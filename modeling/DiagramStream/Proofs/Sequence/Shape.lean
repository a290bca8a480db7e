import DiagramStream.Proofs.Parsing
import DiagramStream.Proofs.Scan.Words
import DiagramStream.Proofs.Sequence.Canonical
import DiagramStream.Proofs.Table
import DiagramStream.Proofs.Text.Classes

/-!
What every sequence text comes to. Main statement: names that are read have no line breaks, labels and conditions no
blanks around them, and marks, note targets and attributes are of the sorts that the notation has.
-/

namespace DiagramStream.Text

variable {drops : Char → Bool}

theorem trimStart_stop {c : Char} {text : List Char} (settled : trimStart drops (c :: text) = c :: text) :
    drops c = false := by
  refine Bool.eq_false_iff.2 fun dropped => ?_
  rw [trimStart, List.dropWhile_cons_of_pos dropped] at settled
  have shorter := (List.dropWhile_suffix drops : text.dropWhile drops <:+ text).length_le
  rw [settled] at shorter
  exact Nat.not_succ_le_self _ shorter

theorem trimStart_twice (drops : Char → Bool) (text : List Char) :
    trimStart drops (trimStart drops text) = trimStart drops text := by
  induction text with
  | nil => rfl
  | cons c text ih =>
    cases dropped : drops c with
    | true => rwa [trimStart, trimStart, List.dropWhile_cons_of_pos dropped]
    | false =>
      rw [trimStart, trimStart, List.dropWhile_cons_of_neg (by simp [dropped]),
        List.dropWhile_cons_of_neg (by simp [dropped])]

theorem trimEnd_twice (drops : Char → Bool) (text : List Char) :
    trimEnd drops (trimEnd drops text) = trimEnd drops text := by
  rw [trimEnd, trimEnd, List.reverse_reverse]
  exact congrArg List.reverse (trimStart_twice drops text.reverse)

-- What is cut off at the end leaves the head as it is.
theorem trimStart_trimEnd {text : List Char} (settled : trimStart drops text = text) :
    trimStart drops (trimEnd drops text) = trimEnd drops text := by
  have first : trimEnd drops text <+: text := by
    have last : text.reverse.dropWhile drops <:+ text.reverse := List.dropWhile_suffix drops
    simpa [trimEnd] using List.reverse_prefix.2 last
  cases kept : trimEnd drops text with
  | nil => rfl
  | cons c rest =>
    rw [kept] at first
    obtain ⟨more, rfl⟩ := first
    exact List.dropWhile_cons_of_neg (by simp [trimStart_stop settled])

theorem strip_twice (text : List Char) : strip (strip text) = strip text := by
  have settled := trimStart_trimEnd (trimStart_twice isBlank text)
  unfold strip trim
  rw [settled, trimEnd_twice]

theorem return_not_mem_unifyLineEnds (text : List Char) : '\r' ∉ unifyLineEnds text := by
  fun_induction unifyLineEnds text with
  | case1 rest ih => simpa using ih
  | case2 rest _ ih => simpa using ih
  | case3 c rest _ plain ih =>
    have kept : c ≠ '\r' := plain
    simpa [kept.symm] using ih
  | case4 => exact List.not_mem_nil

end DiagramStream.Text

namespace DiagramStream.Sequence
open Text Scan

-- A label or a condition, if there is one.
def Said (text : Option String) : Prop := ∀ one ∈ text, one ≠ "" ∧ strip one.toList = one.toList

-- A note at one side has one target.
def Noted (side : String) (targets : List String) : Prop :=
  targets ≠ [] ∧ (side = "left" ∨ side = "right" → targets.length = 1) ∧ ∀ target ∈ targets, Unbroken target

def Sayable : Statement → Prop
  | .declaration _ name otherName label attrs =>
    Unbroken name ∧ (∀ other ∈ otherName, Unbroken other) ∧ (∀ text ∈ label, Unbroken text) ∧
      ∀ key ∈ attrs.keys, key = "stereotype" ∨ key = "color"
  | .message source _ target label mark =>
    Unbroken source ∧ Unbroken target ∧ Said label ∧ ∀ sign ∈ mark, sign = "++" ∨ sign = "--"
  | .activation name attrs => Unbroken name ∧ ∀ key ∈ attrs.keys, key = "color"
  | .deactivation name => Unbroken name
  | .destruction name => Unbroken name
  | .note targets side _ => Noted side targets
  | .divider .. => True
  | .blockOpen kind condition => (ScopeKind.ofName? kind).any ScopeKind.isBlock = true ∧ Said condition
  | .blockElse condition => Said condition
  | .blockEnd => True
  | .comment _ => True
  | _ => False

-- Tokens

variable {token : Token Kind} {source : List Char}

theorem condition_said (text : List Char) : Said (condition text) := by
  intro one some
  obtain ⟨kept, stripped, rfl⟩ := Option.map_eq_some_iff.1 some
  unfold strip? at stripped
  split at stripped
  · cases stripped
  · rename_i full
    cases stripped
    refine ⟨?_, by rw [String.toList_ofList, strip_twice]⟩
    intro empty
    exact full (by simpa using congrArg String.toList empty)

theorem mark_known (found : token.OfRule rules) (kind : token.kind = .mark) :
    String.ofList token.text = "++" ∨ String.ofList token.text = "--" := by
  obtain ⟨rule, text, listed, applies, taken⟩ := found
  rw [kind] at listed
  obtain rfl : rule = markRule := by simpa [rules] using listed
  rw [taken]
  unfold markRule at applies ⊢
  split at applies
  · exact .inl rfl
  · split at applies
    · split at applies
      · rename_i ended
        rw [if_pos ended]
        exact .inr rfl
      · exact absurd rfl applies
    · exact absurd rfl applies
  · exact absurd rfl applies

theorem quoted_inside {text : List Char} {c : Char} (member : c ∈ ((text.take (quotedRule text)).drop 1).dropLast) :
    c ≠ '\n' := by
  unfold quotedRule at member
  split at member
  · rename_i rest
    dsimp only at member
    split at member
    · rename_i more closed
      have whole := List.take_append_drop (rest.takeWhile fun c => c != '"' && c != '\n').length rest
      rw [Rule.take_takeWhile, closed] at whole
      rw [List.take_succ_cons, List.drop_one, List.tail_cons, List.take_add, Rule.take_takeWhile, closed,
        List.take_succ_cons, List.take_zero, List.dropLast_concat] at member
      have inside := Rule.mem_takeWhile member
      simp only [Bool.and_eq_true, bne_iff_ne] at inside
      exact inside.2
    · cases member
  · cases member

theorem nameOf_unbroken {name : Name} (found : token.OfRule rules) (within : token.text ⊆ source)
    (plain : '\r' ∉ source) (named : nameOf? token = some name) : Unbroken name.text := by
  obtain ⟨rule, text, listed, applies, taken⟩ := found
  unfold nameOf? at named
  split at named
  · rename_i kind
    rw [kind] at listed
    obtain rfl : rule = .word := by simpa [rules] using listed
    cases named
    refine ⟨fun feed => ?_, fun back => plain (within (by simpa using back))⟩
    rw [String.toList_ofList, taken] at feed
    cases Rule.word_take feed
  · rename_i kind
    rw [kind] at listed
    obtain rfl : rule = quotedRule := by simpa [rules] using listed
    cases named
    refine ⟨fun feed => ?_, fun back => ?_⟩
    · rw [String.toList_ofList, taken] at feed
      exact quoted_inside feed rfl
    · rw [String.toList_ofList] at back
      exact plain (within (List.mem_of_mem_drop (List.dropLast_subset _ back)))
  · cases named

-- The statement in hand

def Declaring.Sayable (said : Declaring) : Prop := Unbroken said.name.text ∧ ∀ other ∈ said.other, Unbroken other.text

def Stage.Sayable : Stage → Prop
  | .ready => True
  | .participant _ => True
  | .declared said => said.Sayable
  | .also said => said.Sayable
  | .stereotyped said => said.Sayable
  | .sender name => Unbroken name.text
  | .arrow source _ => Unbroken source.text
  | .receiver source _ target => Unbroken source.text ∧ Unbroken target.text
  | .marked source _ target mark => Unbroken source.text ∧ Unbroken target.text ∧ (mark = "++" ∨ mark = "--")
  | .activate => True
  | .activated name => Unbroken name.text
  | .single _ => True
  | .block kind => (ScopeKind.ofName? kind).any ScopeKind.isBlock = true
  | .otherwise => True
  | .note => True
  | .noteSide _ => True
  | .noteOf _ => True
  | .noteOver targets => ∀ target ∈ targets, Unbroken target
  | .noteTargets side targets _ => Noted side targets
  | .noteLines side targets => Noted side targets
  | .whole statement _ => Sequence.Sayable statement

variable {stage later : Stage} {statement : Statement}

theorem Declaring.statement_sayable {said : Declaring} (sayable : said.Sayable) (color : Option String) :
    Sequence.Sayable (said.statement color) := by
  obtain ⟨named, also⟩ := sayable
  refine ⟨named, ?_, ?_, ?_⟩
  · intro other listed
    obtain ⟨name, some, rfl⟩ := Option.map_eq_some_iff.1 listed
    exact also name some
  · rintro text ⟨⟩
    split
    · split
      · exact also _ ‹_›
      · exact named
    · exact named
  · intro key listed
    rw [Table.mem_keys_ofList] at listed
    simp only [Table.keysOf, List.map_append, List.mem_append, List.mem_map, Option.mem_toList,
      Option.map_eq_some_iff] at listed
    rcases listed with ⟨_, ⟨_, -, rfl⟩, rfl⟩ | ⟨_, ⟨_, -, rfl⟩, rfl⟩
    · exact .inl rfl
    · exact .inr rfl

theorem Stage.complete_sayable (sayable : stage.Sayable) (whole : stage.complete? = some (some statement)) :
    Sequence.Sayable statement := by
  cases stage with
  | declared => cases whole; exact Declaring.statement_sayable sayable none
  | stereotyped => cases whole; exact Declaring.statement_sayable sayable none
  | receiver => cases whole; exact ⟨sayable.1, sayable.2, nofun, nofun⟩
  | marked => cases whole; exact ⟨sayable.1, sayable.2.1, nofun, fun _ same => Option.some.inj same ▸ sayable.2.2⟩
  | activated => cases whole; exact ⟨sayable, fun _ listed => nomatch listed⟩
  | block => cases whole; exact ⟨sayable, nofun⟩
  | otherwise => cases whole; exact (nofun : Said none)
  | whole => cases whole; exact sayable
  | _ => cases whole

-- Tokens are taken from a text without carriage returns.
theorem Stage.follow_sayable (found : token.OfRule rules) (within : token.text ⊆ source) (plain : '\r' ∉ source)
    (sayable : stage.Sayable) (followed : stage.follow token = some later) : later.Sayable := by
  have named {toStage : Name → Stage} (followed : (nameOf? token).map toStage = some later)
      (fits : ∀ name, Unbroken name.text → (toStage name).Sayable) : later.Sayable := by
    obtain ⟨name, named, rfl⟩ := Option.map_eq_some_iff.1 followed
    exact fits name (nameOf_unbroken found within plain named)
  have colored {name color : String} (unbroken : Unbroken name) :
      Sequence.Sayable (.activation name (colorAttr color)) := by
    refine ⟨unbroken, fun key listed => ?_⟩
    simpa [colorAttr, Table.mem_keys_ofList, Table.keysOf] using listed
  unfold Stage.follow at followed
  dsimp only at followed
  split at followed
  -- The line begins.
  case h_5 kind => cases followed; exact block_control found kind
  case h_14 => exact named followed fun _ fresh => fresh
  -- A declaration.
  case h_15 => exact named followed fun _ fresh => ⟨fresh, by simp⟩
  case h_18 => cases followed; exact Declaring.statement_sayable sayable _
  case h_19 => exact named followed fun _ fresh => ⟨sayable.1, fun _ same => Option.some.inj same ▸ fresh⟩
  case h_20 => cases followed; exact Declaring.statement_sayable sayable _
  -- A message.
  case h_22 => exact named followed fun _ fresh => ⟨sayable, fresh⟩
  case h_23 kind => cases followed; exact ⟨sayable.1, sayable.2, mark_known found kind⟩
  case h_24 => cases followed; exact ⟨sayable.1, sayable.2, condition_said _, by simp⟩
  case h_25 =>
    cases followed
    exact ⟨sayable.1, sayable.2.1, condition_said _, fun _ same => Option.some.inj same ▸ sayable.2.2⟩
  -- A lifeline.
  case h_26 => exact named followed fun _ fresh => fresh
  case h_27 => cases followed; exact colored sayable
  case h_28 => exact named followed fun _ fresh => fresh
  case h_29 => exact named followed fun _ fresh => fresh
  -- A block.
  case h_30 => cases followed; exact ⟨sayable, condition_said _⟩
  case h_31 => cases followed; exact condition_said _
  -- A note.
  case h_33 => cases followed; exact List.forall_mem_nil _
  case h_35 => exact named followed fun _ fresh => ⟨List.cons_ne_nil _ _, fun _ => rfl, by simpa using fresh⟩
  case h_36 => exact named followed fun _ fresh => ⟨List.cons_ne_nil _ _, fun _ => rfl, by simpa using fresh⟩
  case h_37 =>
    refine named followed fun _ fresh => ⟨by simp, fun side => absurd side (by decide), ?_⟩
    intro target listed
    rcases List.mem_append.1 listed with earlier | last
    · exact sayable target earlier
    · exact List.mem_singleton.1 last ▸ fresh
  case h_38 => cases followed; exact sayable.2.2
  all_goals first
    | (cases followed <;> exact sayable)
    | (split at followed <;> cases followed; exact sayable)

-- The statements so far

def State.Sayable (state : State) : Prop :=
  (∀ placed ∈ state.done, Sequence.Sayable placed.statement) ∧ state.stage.Sayable

theorem State.endLine_sayable {state later : State} (sayable : state.Sayable) (ended : state.endLine = some later) :
    later.Sayable := by
  obtain ⟨statement?, whole, rfl⟩ := Option.map_eq_some_iff.1 ended
  cases statement? with
  | none => exact sayable
  | some statement =>
    refine ⟨?_, trivial⟩
    intro placed listed
    rcases List.mem_append.1 listed with earlier | last
    · exact sayable.1 placed earlier
    · obtain rfl := List.mem_singleton.1 last
      exact Stage.complete_sayable sayable.2 whole

theorem State.shift_sayable {state later : State} (found : token.OfRule rules) (within : token.text ⊆ source)
    (plain : '\r' ∉ source) (sayable : state.Sayable) (shifted : state.shift token = some later) : later.Sayable := by
  rcases State.shift_cases shifted with ⟨followed, kept⟩ | ended
  · exact ⟨kept ▸ sayable.1, Stage.follow_sayable found within plain sayable.2 followed⟩
  · exact State.endLine_sayable sayable ended

theorem State.finish_sayable {state : State} {done : List Placed} (sayable : state.Sayable)
    (ended : state.finish = some done) : ∀ placed ∈ done, Sequence.Sayable placed.statement := by
  unfold State.finish at ended
  split at ended
  · cases ended
    exact sayable.1
  · cases ended

theorem parse_sayable {text : String} {document : Document} (parsed : parse text = .ok document) :
    document.format = .sequence ∧ ∀ placed ∈ document.statements, Sequence.Sayable placed.statement := by
  obtain ⟨format, reads⟩ := parse_eq_ok.1 parsed
  have plain : '\r' ∉ prepare text.toList := by
    simp [prepare, return_not_mem_unifyLineEnds]
  have start : State.Sayable grammar.start := ⟨List.forall_mem_nil _, trivial⟩
  refine ⟨format, reads.keeps State.Sayable (fun done => ∀ placed ∈ done, Sequence.Sayable placed.statement)
    ?_ State.finish_sayable (List.Subset.refl _) start⟩
  exact fun found within sayable shifted => State.shift_sayable found within plain sayable shifted

end DiagramStream.Sequence
