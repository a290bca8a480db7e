import DiagramStream.Proofs.Scan.Leading
import DiagramStream.Proofs.Sequence.Joining
import DiagramStream.Arrow

/-!
Sequence statements as lines, in one form of the many that are read alike. Main statement: each word of such a line is
read as what it was written for, by what was read before it and what stands behind it.
-/

namespace DiagramStream.Sequence
open Text Scan

-- Texts that fit into a line

def Unbroken (text : String) : Prop := '\n' ∉ text.toList ∧ '\r' ∉ text.toList

-- A text within its line, without blanks around it.
def Settled (text : String) : Prop := Unbroken text ∧ strip text.toList = text.toList

def Nameable (name : String) : Prop := Unbroken name ∧ '"' ∉ name.toList

def IsColor (color : String) : Prop :=
  color.toList.head? = some '#' ∧ color.toList.tail ≠ [] ∧ color.toList.tail.all isWord = true

def IsStereotype (text : String) : Prop :=
  Settled text ∧ text.toList.head?.any isWord = true ∧ '>' ∉ text.toList

-- A condition that is taken for a marker would not be read at all.
def IsCondition (text : String) : Prop :=
  Settled text ∧ text ≠ "" ∧ ¬"@startuml".toList <+: text.toList ∧ ¬"@enduml".toList <+: text.toList

instance (text : String) : Decidable (Unbroken text) := inferInstanceAs (Decidable (_ ∧ _))
instance (text : String) : Decidable (Settled text) := inferInstanceAs (Decidable (_ ∧ _))
instance (name : String) : Decidable (Nameable name) := inferInstanceAs (Decidable (_ ∧ _))
instance (color : String) : Decidable (IsColor color) := inferInstanceAs (Decidable (_ ∧ _ ∧ _))
instance (text : String) : Decidable (IsStereotype text) := inferInstanceAs (Decidable (_ ∧ _ ∧ _))
instance (text : String) : Decidable (IsCondition text) := inferInstanceAs (Decidable (_ ∧ _ ∧ _ ∧ _))

theorem strip_space (text : List Char) : strip (' ' :: text) = strip text := rfl

theorem strip?_settled {text : List Char} (settled : strip text = text) (some_ : text ≠ []) :
    strip? text = some text := by
  unfold strip?
  rw [settled]
  cases text with
  | nil => exact absurd rfl some_
  | cons c rest => rfl

theorem strip_head {c : Char} {text : List Char} (settled : strip (c :: text) = c :: text) : isBlank c = false := by
  cases blank : isBlank c with
  | false => rfl
  | true =>
    have shorter : (strip (c :: text)).length ≤ text.length := by
      have start : (trimStart isBlank (c :: text)).length ≤ text.length := by
        rw [trimStart, List.dropWhile_cons_of_pos blank]
        exact (List.dropWhile_suffix _).length_le
      have ended : (strip (c :: text)).length ≤ (trimStart isBlank (c :: text)).length := by
        simp only [strip, trim, trimEnd, List.length_reverse]
        exact Nat.le_trans (List.dropWhile_suffix _).length_le (Nat.le_of_eq (List.length_reverse))
      exact Nat.le_trans ended start
    rw [settled] at shorter
    exact absurd shorter (Nat.not_succ_le_self _)

theorem condition_settled {text : String} (settled : strip text.toList = text.toList) (some_ : text ≠ "") :
    condition text.toList = some text := by
  have full : text.toList ≠ [] := fun empty => some_ (String.toList_inj.1 (empty.trans String.toList_empty.symm))
  rw [condition, strip?_settled settled full, Option.map_some, String.ofList_toList]

theorem labelOf_settled {text : String} (settled : strip text.toList = text.toList) (some_ : text ≠ "") :
    labelOf (':' :: ' ' :: text.toList) = some text := condition_settled settled some_

theorem stripped_sign (sign : Char) {text : String} (settled : strip text.toList = text.toList) :
    String.ofList (stripped 1 0 (sign :: ' ' :: text.toList)) = text := by
  have inner : stripped 1 0 (sign :: ' ' :: text.toList) = strip (' ' :: text.toList) := by simp [stripped]
  rw [inner, strip_space, settled, String.ofList_toList]

theorem stripped_angles {text : String} (settled : strip text.toList = text.toList) :
    String.ofList (stripped 2 2 ('<' :: '<' :: (text.toList ++ ['>', '>']))) = text := by
  have inner : stripped 2 2 ('<' :: '<' :: (text.toList ++ ['>', '>'])) = strip text.toList := by simp [stripped]
  rw [inner, settled, String.ofList_toList]

-- Words

def quote (name : String) : List Char := '"' :: (name.toList ++ ['"'])

theorem nameOf_quote (name : String) (place : Position) (offset : Nat) :
    nameOf? ⟨.quoted, quote name, place, offset⟩ = some ⟨name, true⟩ := by
  simp [nameOf?, quote]

-- At a stage, in front of the rest, a word is read as one token.
def Lexes (stage : Stage) (kind : Kind) (word rest : List Char) : Prop :=
  kind.ignored = false ∧ ∃ count, count + 1 = word.length ∧
    ∀ state : State, state.stage = stage → grammar.match? state (word ++ rest) = some (kind, count)

variable {stage : Stage} {kind : Kind} {word rest : List Char}

theorem lexes_at (place : Nat) {rule : Rule} (here : rules[place]? = some (kind, rule)) (seen : kind.ignored = false)
    (expected : stage.expects kind = true) (some_ : word ≠ []) (applies : rule (word ++ rest) = word.length)
    (silent : ((rules.take place).all fun entry =>
      !(entry.1.ignored || stage.expects entry.1) || entry.2 (word ++ rest) == 0) = true) :
    Lexes stage kind word rest := by
  obtain ⟨count, length⟩ := Nat.exists_eq_succ_of_ne_zero (fun empty => some_ (List.length_eq_zero_iff.1 empty))
  refine ⟨seen, count, length.symm, ?_⟩
  rintro state rfl
  refine firstMatch_at place here ?_ (applies.trans length) ?_
  · simp [grammar, expected]
  · intro entry listed looked
    have checked := List.all_eq_true.1 silent entry listed
    simpa [show (entry.1.ignored || state.stage.expects entry.1) = true from looked] using checked

-- Only where a condition or the lines of a note are looked for does a word have to share with what takes any text.
theorem expects_apart (expected : stage.expects kind = true) (named : kind ≠ .text ∧ kind ≠ .noteBody ∧ kind ≠ .lineEnd) :
    stage.expects .noteBody = false ∧ stage.expects .text = false := by
  obtain ⟨text, noteBody, lineEnd⟩ := named
  cases stage with
  | block | otherwise => simp [Stage.expects, text, lineEnd] at expected
  | noteLines => simp [Stage.expects, noteBody] at expected
  | whole _ named => cases named <;> exact ⟨rfl, rfl⟩
  | _ => exact ⟨rfl, rfl⟩

theorem lexes_apart (place : Nat) {rule : Rule} (here : rules[place]? = some (kind, rule)) (seen : kind.ignored = false)
    (named : kind ≠ .text ∧ kind ≠ .noteBody ∧ kind ≠ .lineEnd) (expected : stage.expects kind = true)
    (some_ : word ≠ []) (applies : rule (word ++ rest) = word.length)
    (silent : ((rules.take place).all fun entry =>
      entry.1 == .noteBody || entry.1 == .text || entry.2 (word ++ rest) == 0) = true) :
    Lexes stage kind word rest := by
  obtain ⟨noteBody, text⟩ := expects_apart expected named
  refine lexes_at place here seen expected some_ applies (List.all_eq_true.2 ?_)
  intro entry listed
  have checked := List.all_eq_true.1 silent entry listed
  rw [Bool.or_eq_true, Bool.or_eq_true, beq_iff_eq, beq_iff_eq] at checked
  rcases checked with (note | other) | nothing
  · simp [note, noteBody, Kind.ignored]
  · simp [other, text, Kind.ignored]
  · simp [nothing]

def participantKinds : List String :=
  ["participant", "actor", "boundary", "control", "entity", "database", "collections", "queue"]

def blockKinds : List String := ["alt", "loop", "opt", "par", "group", "critical", "break"]

theorem lexes_participant {word : String} (known : word ∈ participantKinds) (rest : List Char) :
    Lexes .ready .participant word.toList (' ' :: rest) := by
  simp only [participantKinds, List.mem_cons, List.not_mem_nil, or_false] at known
  rcases known with rfl | rfl | rfl | rfl | rfl | rfl | rfl | rfl <;> exact lexes_at 2 rfl rfl rfl (by decide) rfl rfl

theorem lexes_block {word : String} (known : word ∈ blockKinds) {c : Char} (ends : c = ' ' ∨ c = '\n')
    (rest : List Char) : Lexes .ready .block word.toList (c :: rest) := by
  simp only [blockKinds, List.mem_cons, List.not_mem_nil, or_false] at known
  rcases ends with rfl | rfl <;> rcases known with rfl | rfl | rfl | rfl | rfl | rfl | rfl <;>
    exact lexes_at 4 rfl rfl rfl (by decide) rfl rfl

theorem lexes_quote {name : String} (nameable : Nameable name) (expected : stage.expects .quoted = true)
    (rest : List Char) : Lexes stage .quoted (quote name) rest := by
  refine lexes_apart 24 rfl rfl (by decide) expected (List.cons_ne_nil _ _) ?_ rfl
  obtain ⟨⟨unbroken, -⟩, unquoted⟩ := nameable
  have inside : ∀ c ∈ name.toList, (c != '"' && c != '\n') = true := by
    intro c member
    have mark : c ≠ '"' := fun same => unquoted (same ▸ member)
    have feed : c ≠ '\n' := fun same => unbroken (same ▸ member)
    simp [mark, feed]
  have body : ((name.toList ++ '"' :: rest).takeWhile fun c => c != '"' && c != '\n') = name.toList := by
    rw [List.takeWhile_append_of_pos inside, List.takeWhile_cons_of_neg (by decide), List.append_nil]
  rw [quote, List.cons_append, List.append_assoc, List.singleton_append, quotedRule]
  simp only [body, List.drop_left, List.length_cons, List.length_append, List.length_nil]

theorem line_rest {word text : List Char} (unbroken : '\n' ∉ text) (below : List Char) :
    Rule.line word (word ++ (text ++ '\n' :: below)) = word.length + text.length := by
  rw [Rule.line, if_pos (List.isPrefixOf_iff_prefix.2 (List.prefix_append _ _)), List.drop_left, lineLength,
    untilLineFeed_line unbroken]

theorem lexes_label {text : List Char} (unbroken : '\n' ∉ text) (expected : stage.expects .label = true)
    (below : List Char) : Lexes stage .label (':' :: text) ('\n' :: below) := by
  refine lexes_apart 27 rfl rfl (by decide) expected (List.cons_ne_nil _ _) ?_ rfl
  have length := @line_rest [':'] _ unbroken below
  simpa [Nat.add_comm] using length

theorem lexes_comment {text : List Char} (unbroken : '\n' ∉ text) (below : List Char) :
    Lexes .ready .comment ('\x27' :: text) ('\n' :: below) := by
  refine lexes_apart 26 rfl rfl (by decide) rfl (List.cons_ne_nil _ _) ?_ rfl
  have length := @line_rest ['\x27'] _ unbroken below
  simpa [Nat.add_comm] using length

theorem lexes_comma (expected : stage.expects .comma = true) (rest : List Char) : Lexes stage .comma [','] rest :=
  lexes_apart 29 rfl rfl (by decide) expected (by decide) rfl rfl

theorem lexes_color {color : String} (proper : IsColor color) (expected : stage.expects .color = true)
    (below : List Char) : Lexes stage .color color.toList ('\n' :: below) := by
  obtain ⟨head, some_, word⟩ := proper
  cases text : color.toList with
  | nil => simp [text] at head
  | cons c tail =>
    rw [text] at head some_ word
    rw [List.tail_cons] at some_ word
    obtain rfl : c = '#' := Option.some.inj head
    refine lexes_apart 28 rfl rfl (by decide) expected (List.cons_ne_nil _ _) ?_ rfl
    have length : wordLength (tail ++ '\n' :: below) = tail.length := by
      rw [wordLength, List.takeWhile_append_of_pos (List.all_eq_true.1 word), List.takeWhile_cons_of_neg (by decide),
        List.append_nil]
    have full : tail.length ≠ 0 := fun empty => some_ (List.length_eq_zero_iff.1 empty)
    rw [List.cons_append, colorRule, length, if_neg full, List.length_cons, Nat.add_comm]

theorem lexes_arrow {source : Name} {arrow : String} (known : arrow ∈ Arrow.table.map Prod.fst) (rest : List Char) :
    Lexes (.sender source) .arrow arrow.toList (' ' :: rest) := by
  simp only [Arrow.table, List.map_cons, List.map_nil, List.mem_cons, List.not_mem_nil, or_false] at known
  rcases known with rfl | rfl | rfl | rfl | rfl | rfl | rfl | rfl | rfl | rfl | rfl | rfl | rfl | rfl | rfl <;>
    exact lexes_at 14 rfl rfl rfl (by decide) rfl rfl

theorem isSpacing_word {c : Char} (word : isWord c = true) : isSpacing c = false := by
  cases spacing : isSpacing c with
  | false => rfl
  | true =>
    simp only [isSpacing, Bool.or_eq_true, beq_iff_eq] at spacing
    rcases spacing with rfl | rfl
    · cases word
    · cases word

theorem isSpacing_seen {c : Char} (seen : isBlank c = false) : isSpacing c = false := by
  cases spacing : isSpacing c with
  | false => rfl
  | true =>
    simp only [isSpacing, Bool.or_eq_true, beq_iff_eq] at spacing
    rcases spacing with rfl | rfl
    · cases seen
    · cases seen

theorem lexes_stereotype {said : Declaring} {text : String} (proper : IsStereotype text) (rest : List Char) :
    Lexes (.declared said) .stereotype ('<' :: '<' :: (text.toList ++ ['>', '>'])) rest := by
  refine lexes_at 0 rfl rfl rfl (List.cons_ne_nil _ _) ?_ rfl
  obtain ⟨⟨⟨unbroken, -⟩, -⟩, head, unclosed⟩ := proper
  cases whole : text.toList with
  | nil => simp [whole] at head
  | cons c more =>
    rw [whole] at head unbroken unclosed
    have starts : isWord c = true := head
    have spacing := isSpacing_word starts
    have inside : ∀ d ∈ more, (d != '>' && d != '\n') = true := by
      intro d member
      have mark : d ≠ '>' := fun same => unclosed (List.mem_cons_of_mem _ (same ▸ member))
      have feed : d ≠ '\n' := fun same => unbroken (List.mem_cons_of_mem _ (same ▸ member))
      simp [mark, feed]
    have body : ((more ++ '>' :: '>' :: rest).takeWhile fun c => c != '>' && c != '\n') = more := by
      rw [List.takeWhile_append_of_pos inside, List.takeWhile_cons_of_neg (by decide), List.append_nil]
    have text : '<' :: '<' :: (c :: more ++ ['>', '>']) ++ rest = '<' :: '<' :: c :: (more ++ '>' :: '>' :: rest) := by
      simp
    rw [text, stereotypeRule]
    simp only [List.takeWhile_cons_of_neg (Bool.eq_false_iff.1 spacing), List.length_nil, List.drop_zero, starts,
      Bool.true_or, if_true, body, List.drop_left]
    simp [List.isPrefixOf]
    omega

theorem expects_text (condition : stage.expects .text = true) (expected : stage.expects kind = true) :
    kind = .text ∨ kind = .lineEnd := by
  cases stage with
  | block | otherwise => simpa [Stage.expects] using expected
  | whole _ named => cases named <;> cases condition
  | _ => cases condition

theorem marker_unread {text : List Char} (start : ¬"@startuml".toList <+: text) (end_ : ¬"@enduml".toList <+: text)
    (below : List Char) :
    Rule.oneOf [.line "@startuml".toList, .line "@enduml".toList] (text ++ '\n' :: below) = 0 := by
  have unread : ∀ {word : List Char}, '\n' ∉ word → ¬word <+: text → Rule.line word (text ++ '\n' :: below) = 0 := by
    intro word whole other
    rw [Rule.line, isPrefixOf_line whole, if_neg (mt List.isPrefixOf_iff_prefix.1 other)]
  refine Decidable.byContradiction fun applies => ?_
  obtain ⟨rule, listed, applied, -⟩ := Rule.oneOf_rule applies
  simp only [List.mem_cons, List.not_mem_nil, or_false] at listed
  rcases listed with rfl | rfl
  · exact applied (unread (by decide) start)
  · exact applied (unread (by decide) end_)

theorem lexes_condition {text : String} (proper : IsCondition text) (expected : stage.expects .text = true)
    (below : List Char) : Lexes stage .text text.toList ('\n' :: below) := by
  obtain ⟨⟨⟨unbroken, -⟩, settled⟩, some_, start, end_⟩ := proper
  cases whole : text.toList with
  | nil => exact absurd (String.toList_inj.1 (whole.trans String.toList_empty.symm)) some_
  | cons c rest =>
    rw [whole] at unbroken settled start end_
    have seen := strip_head settled
    refine ⟨rfl, rest.length, rfl, ?_⟩
    rintro state rfl
    refine firstMatch_at 22 rfl (by simp [grammar, expected]) ?_ ?_
    · have later : '\n' ∉ rest := fun member => unbroken (List.mem_cons_of_mem _ member)
      simp [textRule, seen, lineLength, untilLineFeed_line later, Nat.add_comm]
    · rintro ⟨kind, rule⟩ listed looked
      have kinds : ((rules.take 22).all fun entry => entry.1 != .text && entry.1 != .lineEnd) = true := rfl
      have other := List.all_eq_true.1 kinds _ listed
      rcases Bool.or_eq_true_iff.1 looked with ignored | expected'
      · rcases rules_ignored _ (List.mem_of_mem_take listed) ignored with blank | marker
        · cases blank
          simp [Rule.run, isSpacing_seen seen]
        · cases marker
          exact marker_unread start end_ below
      · rcases expects_text expected expected' with rfl | rfl
        · cases other
        · cases other

-- Written statements

def optional (lead : List Char) (text : Option String) : List Char := text.elim [] fun text => lead ++ text.toList

def writtenOther (name : Option String) : List Char := name.elim [] fun name => ' ' :: 'a' :: 's' :: ' ' :: quote name

def writtenStereotype (text : Option String) : List Char :=
  text.elim [] fun text => ' ' :: '<' :: '<' :: (text.toList ++ ['>', '>'])

def writtenNames : List String → List Char
  | [] => []
  | [name] => quote name
  | name :: rest => quote name ++ ',' :: ' ' :: writtenNames rest

def writtenSide (side : String) : List Char :=
  if side = "over" then "over".toList else side.toList ++ ' ' :: "of".toList

def writtenDeclaration (kind name : String) (otherName : Option String) (attrs : Attrs) : List Char :=
  kind.toList ++ ' ' :: (quote name ++ (writtenOther otherName ++
    (writtenStereotype (attrs.get? "stereotype") ++ optional [' '] (attrs.get? "color"))))

def writtenMessage (source arrow target : String) (label mark : Option String) : List Char :=
  quote source ++ ' ' :: (arrow.toList ++ ' ' :: (quote target ++
    (optional [' '] mark ++ optional [' ', ':', ' '] label)))

def writtenUse (word name : String) (color : Option String) : List Char :=
  word.toList ++ ' ' :: (quote name ++ optional [' '] color)

def writtenNote (targets : List String) (side text : String) : List Char :=
  "note".toList ++ ' ' :: (writtenSide side ++ ' ' :: (writtenNames targets ++ ' ' :: ':' :: ' ' :: text.toList))

def writtenBlock (kind : String) (condition : Option String) : List Char := kind.toList ++ optional [' '] condition

-- Dividers and the statements of graphs are left out.
def written : Statement → List Char
  | .declaration kind name otherName _ attrs => writtenDeclaration kind name otherName attrs
  | .message source arrow target label mark => writtenMessage source arrow target label mark
  | .activation name attrs => writtenUse "activate" name (attrs.get? "color")
  | .deactivation name => writtenUse "deactivate" name none
  | .destruction name => writtenUse "destroy" name none
  | .note targets side text => writtenNote targets side text
  | .blockOpen kind condition => writtenBlock kind condition
  | .blockElse condition => writtenBlock "else" condition
  | .blockEnd => "end".toList
  | .comment text => '\x27' :: ' ' :: text.toList
  | _ => []

def writtenLines (statements : List Statement) : List Char :=
  statements.flatMap fun statement => written statement ++ ['\n']

-- Statements with such a form

def Shaped : Statement → Prop
  | .declaration kind name otherName label attrs =>
    kind ∈ participantKinds ∧ Nameable name ∧ (∀ other ∈ otherName, Nameable other) ∧
      label = some (otherName.getD name) ∧ (∀ key ∈ attrs.keys, key = "stereotype" ∨ key = "color") ∧
      (∀ text ∈ attrs.get? "stereotype", IsStereotype text) ∧ ∀ color ∈ attrs.get? "color", IsColor color
  | .message source arrow target label mark =>
    Nameable source ∧ Nameable target ∧ arrow ∈ Arrow.table.map Prod.fst ∧
      (∀ text ∈ label, Settled text ∧ text ≠ "") ∧ ∀ sign ∈ mark, sign = "++" ∨ sign = "--"
  | .activation name attrs =>
    Nameable name ∧ (∀ key ∈ attrs.keys, key = "color") ∧ ∀ color ∈ attrs.get? "color", IsColor color
  | .deactivation name => Nameable name
  | .destruction name => Nameable name
  | .note targets side text =>
    (∀ name ∈ targets, Nameable name) ∧ Settled text ∧
      (side = "over" ∧ targets ≠ [] ∨ (side = "left" ∨ side = "right") ∧ targets.length = 1)
  | .blockOpen kind condition => kind ∈ blockKinds ∧ ∀ text ∈ condition, IsCondition text
  | .blockElse condition => ∀ text ∈ condition, IsCondition text
  | .blockEnd => True
  | .comment text => Settled text
  | _ => False

instance : (statement : Statement) → Decidable (Shaped statement)
  | .declaration .. => inferInstanceAs (Decidable (_ ∧ _ ∧ _ ∧ _ ∧ _ ∧ _ ∧ _))
  | .message .. => inferInstanceAs (Decidable (_ ∧ _ ∧ _ ∧ _ ∧ _))
  | .activation .. => inferInstanceAs (Decidable (_ ∧ _ ∧ _))
  | .deactivation name => inferInstanceAs (Decidable (Nameable name))
  | .destruction name => inferInstanceAs (Decidable (Nameable name))
  | .note .. => inferInstanceAs (Decidable (_ ∧ _ ∧ (_ ∨ _)))
  | .blockOpen .. => inferInstanceAs (Decidable (_ ∧ _))
  | .blockElse condition => inferInstanceAs (Decidable (∀ text ∈ condition, IsCondition text))
  | .blockEnd => .isTrue trivial
  | .comment text => inferInstanceAs (Decidable (Settled text))
  | .divider .. | .graphOpen .. | .subgraphOpen .. | .scopeClose .. | .nodeStatement .. | .edgeStatement ..
  | .attrStatement .. | .assignment .. | .vacant => .isFalse id

-- The order of a declaration's attributes is not written down.
def Matches : Statement → Statement → Prop
  | .declaration kind name otherName label attrs, .declaration kind' name' otherName' label' attrs' =>
    kind = kind' ∧ name = name' ∧ otherName = otherName' ∧ label = label' ∧ ∀ key, attrs.get? key = attrs'.get? key
  | one, other => one = other

end DiagramStream.Sequence
