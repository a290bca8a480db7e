import Mathlib.Data.List.Forall2
import DiagramStream.Proofs.Sequence.Canonical
import DiagramStream.Proofs.Table

/-!
Sequence statements written and read again. Main statement: what is written of a sequence, a statement to a line, is
read as the same statements.
-/

namespace DiagramStream.Sequence
open Text Scan

-- The statements so far and the one in hand, wherever they stand.
def State.outline (state : State) : List Statement × Stage := (state.done.map Placed.statement, state.stage)

def Leading (done : List Statement) (stage : Stage) (text : List Char) (all : List Statement) : Prop :=
  grammar.Leads State.outline (List.map Placed.statement) (done, stage) text all

variable {done all : List Statement} {stage later : Stage} {kind : Kind} {word text : List Char}

theorem leading_word (lexes : Lexes stage kind word text)
    (followed : ∀ place offset, stage.follow ⟨kind, word, place, offset⟩ = some later)
    (rest : Leading done later text all) : Leading done stage (word ++ text) all := by
  obtain ⟨seen, count, length, found⟩ := lexes
  refine Grammar.Leads.word (done, later) length seen ?_ ?_ rest
  · intro state viewed
    exact found state (Prod.mk.inj viewed).2
  · intro state place offset viewed
    obtain ⟨rfl, rfl⟩ := Prod.mk.inj viewed
    simp only [grammar, State.shift, followed]
    cases state.stage <;> exact ⟨_, rfl, rfl⟩

theorem leading_space (open_ : stage.expects .noteBody = false) (rest : Leading done stage text all) :
    Leading done stage (' ' :: text) all := by
  refine @Grammar.Leads.blank _ _ _ _ _ _ _ _ _ _ _ .blank isSpacing rfl ?_ ' ' rfl rest
  intro state c rest viewed spacing
  refine match_blank ?_ spacing rest
  rw [(Prod.mk.inj viewed).2]
  exact open_

theorem leading_quote {name : String} (toStage : Name → Stage) (nameable : Nameable name)
    (expected : stage.expects .quoted = true)
    (goes : ∀ word place offset, stage.follow ⟨.quoted, word, place, offset⟩ =
      (nameOf? ⟨.quoted, word, place, offset⟩).map toStage)
    (rest : Leading done (toStage ⟨name, true⟩) text all) : Leading done stage (quote name ++ text) all := by
  refine leading_word (lexes_quote nameable expected text) ?_ rest
  intro place offset
  rw [goes, nameOf_quote]
  rfl

-- The ends of lines

-- At the head of a line nothing is lost with blank lines.
theorem leading_fill (rest : Leading done .ready text all) (state : State) (cursor : Cursor)
    (viewed : state.outline = (done, .ready)) (whole : cursor.rest = '\n' :: text) :
    ∃ result, grammar.Reads state (cursor.skip ((text.takeWhile isFill).length + 1)) result ∧
      result.map Placed.statement = all := by
  have behind : (cursor.skip 1).rest = text := by simp [Cursor.skip, whole]
  obtain ⟨result, reads, same⟩ := rest state (cursor.skip 1) viewed behind
  have filled := ready_fill reads (Prod.mk.inj viewed).2
  rw [behind, Cursor.skip_skip, Nat.add_comm 1] at filled
  exact ⟨result, filled, same⟩

theorem lineEnd_whole {last : Option Statement} (whole : stage.complete? = some last) :
    stage.expects .lineEnd = true ∧ ∀ place offset, stage.follow ⟨.lineEnd, word, place, offset⟩ = none := by
  cases stage with
  | whole _ named => cases named <;> exact ⟨rfl, fun _ _ => rfl⟩
  | ready | declared | stereotyped | receiver | marked | activated | block | otherwise => exact ⟨rfl, fun _ _ => rfl⟩
  | _ => cases whole

theorem endLine_outline {state : State} {last : Option Statement} (whole : state.stage.complete? = some last) :
    ∃ next, state.endLine = some next ∧ next.outline = (state.done.map Placed.statement ++ last.toList, .ready) := by
  unfold State.endLine
  rw [whole]
  cases last with
  | none =>
    have ready : state.stage = .ready := by
      cases stage : state.stage <;> rw [stage] at whole <;> first | rfl | cases whole
    exact ⟨state, rfl, by simp [State.outline, ready]⟩
  | some statement => exact ⟨_, rfl, by simp [State.outline]⟩

theorem leading_lineEnd {last : Option Statement} (whole : stage.complete? = some last)
    (rest : Leading (done ++ last.toList) .ready text all) : Leading done stage ('\n' :: text) all := by
  intro state cursor viewed start
  obtain ⟨rfl, rfl⟩ := Prod.mk.inj viewed
  obtain ⟨next, ended, outline⟩ := endLine_outline whole
  obtain ⟨result, reads, same⟩ := leading_fill rest next cursor outline start
  obtain ⟨expected, silent⟩ := @lineEnd_whole _ (cursor.rest.take ((text.takeWhile isFill).length + 1)) _ whole
  refine ⟨result, .take (by simp [start]) (start ▸ match_lineEnd expected text) rfl ?_ reads, same⟩
  simpa only [grammar, State.shift, silent, if_true] using ended

-- A statement is in hand and whole, and its line ends here.
def Ending (done : List Statement) (statement : Statement) (text : List Char) (all : List Statement) : Prop :=
  ∀ stage, stage.complete? = some (some statement) → Leading done stage ('\n' :: text) all

theorem ending_of_leading {statement : Statement} (rest : Leading (done ++ [statement]) .ready text all) :
    Ending done statement text all :=
  fun _ whole => leading_lineEnd whole rest

theorem leading_nil (done : List Statement) : Leading done .ready [] done := by
  refine Grammar.Leads.ended ?_
  intro state viewed
  obtain ⟨same, ready⟩ := Prod.mk.inj viewed
  exact ⟨state.done, by simp [grammar, State.finish, ready], same⟩

-- Statements

-- What a line may end with: a color, a label or a condition, or nothing of the sort.

variable {said : Option String → Statement}

theorem leading_color {color : Option String} (proper : ∀ one ∈ color, IsColor one)
    (whole : stage.complete? = some (some (said none))) (looked : stage.expects .color = true)
    (goes : ∀ word place offset,
      stage.follow ⟨.color, word, place, offset⟩ = some (.whole (said (some (String.ofList word))) false))
    (ending : Ending done (said color) text all) :
    Leading done stage (optional [' '] color ++ '\n' :: text) all := by
  cases color with
  | none => exact ending stage whole
  | some color =>
    have apart := expects_apart looked (by decide)
    have lexes := lexes_color (proper color rfl) looked text
    refine leading_space apart.1 (@leading_word _ _ _ _ _ color.toList _ lexes (goes _) ?_)
    rw [String.ofList_toList]
    exact ending _ rfl

theorem leading_label {label : Option String} (settled : ∀ one ∈ label, Settled one ∧ one ≠ "")
    (whole : stage.complete? = some (some (said none))) (looked : stage.expects .label = true)
    (goes : ∀ word place offset,
      stage.follow ⟨.label, word, place, offset⟩ = some (.whole (said (labelOf word)) false))
    (ending : Ending done (said label) text all) :
    Leading done stage (optional [' ', ':', ' '] label ++ '\n' :: text) all := by
  cases label with
  | none => exact ending stage whole
  | some label =>
    obtain ⟨⟨⟨unbroken, -⟩, same⟩, some_⟩ := settled label rfl
    have apart := expects_apart looked (by decide)
    have lexes := @lexes_label _ (' ' :: label.toList) (by simpa using unbroken) looked text
    refine leading_space apart.1 (@leading_word _ _ _ _ _ (':' :: ' ' :: label.toList) _ lexes (goes _) ?_)
    rw [labelOf_settled same some_]
    exact ending _ rfl

theorem leading_condition {condition : Option String} (proper : ∀ one ∈ condition, IsCondition one)
    (whole : stage.complete? = some (some (said none))) (looked : stage.expects .text = true)
    (goes : ∀ word place offset,
      stage.follow ⟨.text, word, place, offset⟩ = some (.whole (said (Sequence.condition word)) false))
    (ending : Ending done (said condition) text all) :
    Leading done stage (optional [' '] condition ++ '\n' :: text) all := by
  cases condition with
  | none => exact ending stage whole
  | some condition =>
    obtain ⟨⟨-, same⟩, some_, -⟩ := proper condition rfl
    have apart : stage.expects .noteBody = false := by
      cases note : stage.expects .noteBody with
      | false => rfl
      | true => rcases expects_text looked note with other | other <;> cases other
    have lexes := lexes_condition (proper condition rfl) looked text
    refine leading_space apart (@leading_word _ _ _ _ _ condition.toList _ lexes (goes _) ?_)
    rw [condition_settled same some_]
    exact ending _ rfl

-- Names

theorem leading_names {names targets : List String} (nameable : ∀ name ∈ names, Nameable name) (some_ : names ≠ [])
    (rest : Leading done (.noteTargets "over" (targets ++ names) true) text all) :
    Leading done (.noteOver targets) (writtenNames names ++ text) all := by
  fun_induction writtenNames names generalizing targets with
  | case1 => exact absurd rfl some_
  | case2 name =>
    have here := nameable name List.mem_cons_self
    exact leading_quote (fun name => .noteTargets "over" (targets ++ [name.text]) true) here rfl (fun _ _ _ => rfl) rest
  | case3 name names more ih =>
    obtain ⟨here, others⟩ := List.forall_mem_cons.1 nameable
    rw [List.append_cons] at rest
    have later := ih others more rest
    rw [List.append_assoc, List.cons_append, List.cons_append]
    refine leading_quote (fun name => .noteTargets "over" (targets ++ [name.text]) true) here rfl (fun _ _ _ => rfl) ?_
    exact leading_word (lexes_comma rfl _) (fun _ _ => rfl) (leading_space rfl later)

-- A keyword and the name it is about.
theorem leading_keyword {word name : String} (toStage : Name → Stage)
    (lexes : ∀ rest, Lexes .ready kind word.toList (' ' :: rest))
    (begins : ∀ place offset, Stage.ready.follow ⟨kind, word.toList, place, offset⟩ = some stage)
    (nameable : Nameable name) (looked : stage.expects .quoted = true)
    (goes : ∀ word place offset, stage.follow ⟨.quoted, word, place, offset⟩ =
      (nameOf? ⟨.quoted, word, place, offset⟩).map toStage)
    (rest : Leading done (toStage ⟨name, true⟩) text all) :
    Leading done .ready (word.toList ++ ' ' :: (quote name ++ text)) all := by
  have apart := expects_apart looked (by decide)
  exact leading_word (lexes _) begins (leading_space apart.1 (leading_quote toStage nameable looked goes rest))

-- The statements

-- What is read of a statement: the attributes of a declaration come in the order of the grammar.
def standard : Statement → Statement
  | .declaration kind name otherName label attrs =>
    .declaration kind name otherName label (Table.ofList
      (((attrs.get? "stereotype").map fun text => ("stereotype", text)).toList
        ++ ((attrs.get? "color").map fun text => ("color", text)).toList))
  | statement => statement

theorem leading_other {kind : String} {name : Name} {otherName : Option String}
    (nameable : ∀ other ∈ otherName, Nameable other)
    (rest : Leading done (.declared ⟨kind, name, otherName.map fun other => ⟨other, true⟩, none⟩) text all) :
    Leading done (.declared ⟨kind, name, none, none⟩) (writtenOther otherName ++ text) all := by
  cases otherName with
  | none => exact rest
  | some otherName =>
    have lexes := fun rest => @lexes_at (.declared ⟨kind, name, none, none⟩) .also ['a', 's'] (' ' :: rest) 12 _ rfl rfl
      rfl (by decide) rfl rfl
    refine leading_space rfl (@leading_word _ _ _ _ _ ['a', 's'] _ (lexes _) (fun _ _ => rfl) (leading_space rfl ?_))
    exact leading_quote (fun other => .declared ⟨kind, name, some other, none⟩) (nameable otherName rfl) rfl
      (fun _ _ _ => rfl) rest

theorem leading_attrs {kind : String} {name : Name} {other : Option Name} {stereotype color : Option String}
    (stereotyped : ∀ one ∈ stereotype, IsStereotype one) (colored : ∀ one ∈ color, IsColor one)
    (ending : Ending done (Declaring.statement ⟨kind, name, other, stereotype⟩ color) text all) :
    Leading done (.declared ⟨kind, name, other, none⟩)
      (writtenStereotype stereotype ++ (optional [' '] color ++ '\n' :: text)) all := by
  cases stereotype with
  | none => exact leading_color colored rfl rfl (fun _ _ _ => rfl) ending
  | some stereotype =>
    have proper := stereotyped stereotype rfl
    have rest : Leading done (.stereotyped ⟨kind, name, other, some stereotype⟩) (optional [' '] color ++ '\n' :: text)
        all := leading_color colored rfl rfl (fun _ _ _ => rfl) ending
    rw [← stripped_angles proper.1.2] at rest
    exact leading_space rfl (leading_word (lexes_stereotype proper _) (fun _ _ => rfl) rest)

theorem leading_declaration {kind name : String} {otherName label : Option String} {attrs : Attrs}
    (shaped : Shaped (.declaration kind name otherName label attrs))
    (ending : Ending done (standard (.declaration kind name otherName label attrs)) text all) :
    Leading done .ready (writtenDeclaration kind name otherName attrs ++ '\n' :: text) all := by
  obtain ⟨known, nameable, others, rfl, -, stereotyped, colored⟩ := shaped
  have begins : ∀ place offset, Stage.ready.follow ⟨.participant, kind.toList, place, offset⟩ =
      some (.participant kind) := by
    intro place offset
    simp [Stage.follow]
  have whole : ∀ color, Declaring.statement ⟨kind, ⟨name, true⟩, otherName.map fun other => ⟨other, true⟩,
      attrs.get? "stereotype"⟩ color = .declaration kind name otherName (some (otherName.getD name)) (Table.ofList
        (((attrs.get? "stereotype").map fun text => ("stereotype", text)).toList
          ++ (color.map fun text => ("color", text)).toList)) := by
    intro color
    cases otherName <;> rfl
  rw [standard, ← whole] at ending
  simp only [writtenDeclaration, List.append_assoc, List.cons_append]
  refine leading_keyword (fun name => .declared ⟨kind, name, none, none⟩) (fun _ => lexes_participant known _) begins
    nameable rfl (fun _ _ _ => rfl) ?_
  exact leading_other others (leading_attrs stereotyped colored ending)

theorem leading_mark {source target : Name} {arrow : String} {label mark : Option String}
    (sign : ∀ one ∈ mark, one = "++" ∨ one = "--") (settled : ∀ one ∈ label, Settled one ∧ one ≠ "")
    (ending : Ending done (.message source.text arrow target.text label mark) text all) :
    Leading done (.receiver source arrow target)
      (optional [' '] mark ++ (optional [' ', ':', ' '] label ++ '\n' :: text)) all := by
  cases mark with
  | none =>
    exact @leading_label _ _ _ _ (fun label => .message source.text arrow target.text label none) _ settled rfl rfl
      (fun _ _ _ => rfl) ending
  | some mark =>
    have marked : Leading done (.marked source arrow target mark) (optional [' ', ':', ' '] label ++ '\n' :: text)
        all :=
      @leading_label _ _ _ _ (fun label => .message source.text arrow target.text label (some mark)) _ settled rfl rfl
        (fun _ _ _ => rfl) ending
    have lexes : Lexes (.receiver source arrow target) .mark mark.toList
        (optional [' ', ':', ' '] label ++ '\n' :: text) := by
      rcases sign mark rfl with rfl | rfl
      · exact lexes_at 1 rfl rfl rfl (by decide) rfl rfl
      -- Two strokes are a mark for what follows them.
      · cases label with
        | none => exact lexes_at 1 rfl rfl rfl (by decide) rfl rfl
        | some label => exact lexes_at 1 rfl rfl rfl (by decide) rfl rfl
    rw [← @String.ofList_toList mark] at marked
    exact leading_space rfl (leading_word lexes (fun _ _ => rfl) marked)

theorem leading_message {source arrow target : String} {label mark : Option String}
    (shaped : Shaped (.message source arrow target label mark))
    (ending : Ending done (.message source arrow target label mark) text all) :
    Leading done .ready (writtenMessage source arrow target label mark ++ '\n' :: text) all := by
  obtain ⟨sender, receiver, known, settled, sign⟩ := shaped
  have arrived := @leading_mark _ _ _ ⟨source, true⟩ ⟨target, true⟩ _ _ _ sign settled ending
  have sent := leading_quote (.receiver ⟨source, true⟩ arrow) receiver
    (show (Stage.arrow ⟨source, true⟩ arrow).expects .quoted = true from rfl) (fun _ _ _ => rfl) arrived
  simp only [writtenMessage, List.append_assoc, List.cons_append]
  refine leading_quote .sender sender rfl (fun _ _ _ => rfl) (leading_space rfl ?_)
  exact leading_word (lexes_arrow known _) (fun place offset => by simp [Stage.follow]) (leading_space rfl sent)

theorem leading_side {targets : List String} {side : String} (nameable : ∀ name ∈ targets, Nameable name)
    (placed : side = "over" ∧ targets ≠ [] ∨ (side = "left" ∨ side = "right") ∧ targets.length = 1)
    (rest : ∀ more, Leading done (.noteTargets side targets more) text all) :
    Leading done .note (writtenSide side ++ ' ' :: (writtenNames targets ++ text)) all := by
  rcases placed with ⟨rfl, some_⟩ | ⟨sided, single⟩
  · have named := @leading_names _ _ _ _ [] nameable some_ (rest true)
    exact @leading_word _ _ _ _ _ "over".toList _ (lexes_at 10 rfl rfl rfl (by decide) rfl rfl) (fun _ _ => rfl)
      (leading_space rfl named)
  · obtain ⟨name, rfl⟩ := List.length_eq_one_iff.1 single
    have named := leading_quote (fun name => .noteTargets side [name.text] false) (nameable name List.mem_cons_self)
      (show (Stage.noteOf side).expects .quoted = true from rfl) (fun _ _ _ => rfl) (rest false)
    have placed : Leading done (.noteSide side) (' ' :: ("of".toList ++ ' ' :: (writtenNames [name] ++ text))) all :=
      leading_space rfl (leading_word (lexes_at 13 rfl rfl rfl (by decide) rfl rfl) (fun _ _ => rfl)
        (leading_space rfl named))
    have lexes : ∀ rest, Lexes .note .side side.toList (' ' :: rest) := by
      intro rest
      rcases sided with rfl | rfl <;> exact lexes_at 7 rfl rfl rfl (by decide) rfl rfl
    have other : side ≠ "over" := by
      rcases sided with rfl | rfl <;> decide
    rw [writtenSide, if_neg other, List.append_assoc, List.cons_append]
    refine leading_word (lexes _) ?_ placed
    intro place offset
    simp [Stage.follow]

theorem leading_note {targets : List String} {side note : String} (shaped : Shaped (.note targets side note))
    (ending : Ending done (.note targets side note) text all) :
    Leading done .ready (writtenNote targets side note ++ '\n' :: text) all := by
  obtain ⟨nameable, ⟨⟨unbroken, -⟩, same⟩, placed⟩ := shaped
  have labelled : ∀ more, Leading done (.noteTargets side targets more)
      (' ' :: ':' :: ' ' :: (note.toList ++ '\n' :: text)) all := by
    intro more
    have lexes := @lexes_label (.noteTargets side targets more) (' ' :: note.toList) (by simpa using unbroken)
      (by cases more <;> rfl) text
    have told := ending (.whole (.note targets side note) false) rfl
    rw [← stripped_sign ':' same] at told
    exact leading_space (by cases more <;> rfl) (leading_word lexes (fun _ _ => by cases more <;> rfl) told)
  simp only [writtenNote, List.append_assoc, List.cons_append]
  exact leading_word (lexes_at 8 rfl rfl rfl (by decide) rfl rfl) (fun _ _ => rfl)
    (leading_space rfl (leading_side nameable placed labelled))

theorem leading_block {word : String} {condition : Option String}
    (lexes : ∀ c rest, c = ' ' ∨ c = '\n' → Lexes .ready kind word.toList (c :: rest))
    (begins : ∀ place offset, Stage.ready.follow ⟨kind, word.toList, place, offset⟩ = some stage)
    (proper : ∀ one ∈ condition, IsCondition one) (whole : stage.complete? = some (some (said none)))
    (looked : stage.expects .text = true)
    (goes : ∀ word place offset,
      stage.follow ⟨.text, word, place, offset⟩ = some (.whole (said (Sequence.condition word)) false))
    (ending : Ending done (said condition) text all) :
    Leading done .ready (writtenBlock word condition ++ '\n' :: text) all := by
  have conditioned := leading_condition proper whole looked goes ending
  rw [writtenBlock, List.append_assoc]
  refine leading_word ?_ begins conditioned
  cases condition with
  | none => exact lexes '\n' text (.inr rfl)
  | some condition => exact lexes ' ' _ (.inl rfl)

theorem leading_written {statement : Statement} (shaped : Shaped statement)
    (ending : Ending done (standard statement) text all) :
    Leading done .ready (written statement ++ '\n' :: text) all := by
  cases statement with
  | declaration => exact leading_declaration shaped ending
  | message => exact leading_message shaped ending
  | note => exact leading_note shaped ending
  | activation name attrs =>
    obtain ⟨nameable, only, colored⟩ := shaped
    have told : Ending done (.activation name
        (Table.ofList ((attrs.get? "color").map fun color => ("color", color)).toList)) text all := by
      rwa [← Table.eq_ofList_of_only only]
    rw [written, writtenUse, List.append_assoc, List.cons_append, List.append_assoc]
    refine leading_keyword .activated (fun _ => lexes_at 5 rfl rfl rfl (by decide) rfl rfl) (fun _ _ => rfl) nameable
      rfl (fun _ _ _ => rfl) ?_
    exact @leading_color _ _ _ _
      (fun color => .activation name (Table.ofList (color.map fun color => ("color", color)).toList)) _ colored
      rfl rfl (fun _ _ _ => rfl) told
  | deactivation name =>
    rw [written, writtenUse, List.append_assoc, List.cons_append, List.append_assoc]
    refine leading_keyword (fun name => .whole (.deactivation name.text) true)
      (fun _ => lexes_at 3 rfl rfl rfl (by decide) rfl rfl) (fun _ _ => rfl) shaped rfl (fun _ _ _ => rfl) ?_
    exact ending _ rfl
  | destruction name =>
    rw [written, writtenUse, List.append_assoc, List.cons_append, List.append_assoc]
    refine leading_keyword (fun name => .whole (.destruction name.text) true)
      (fun _ => lexes_at 6 rfl rfl rfl (by decide) rfl rfl) (fun _ _ => rfl) shaped rfl (fun _ _ _ => rfl) ?_
    exact ending _ rfl
  | blockOpen kind condition =>
    obtain ⟨known, proper⟩ := shaped
    have begins : ∀ place offset, Stage.ready.follow ⟨.block, kind.toList, place, offset⟩ = some (.block kind) := by
      intro place offset
      simp [Stage.follow]
    exact leading_block (fun c rest ends => lexes_block known ends rest) begins proper rfl rfl (fun _ _ _ => rfl) ending
  | blockElse condition =>
    refine @leading_block _ _ .otherwise .otherwise _ .blockElse "else" _ ?_ (fun _ _ => rfl) shaped rfl rfl
      (fun _ _ _ => rfl) ending
    intro c rest ends
    rcases ends with rfl | rfl <;> exact lexes_at 9 rfl rfl rfl (by decide) rfl rfl
  | blockEnd =>
    have lexes : Lexes .ready .finish "end".toList ('\n' :: text) := lexes_at 11 rfl rfl rfl (by decide) rfl rfl
    exact leading_word lexes (fun _ _ => rfl) (ending _ rfl)
  | comment note =>
    obtain ⟨⟨unbroken, -⟩, same⟩ := shaped
    have lexes := @lexes_comment (' ' :: note.toList) (by simpa using unbroken) text
    have told := ending (.whole (.comment note) false) rfl
    rw [← stripped_sign '\x27' same] at told
    exact leading_word lexes (fun _ _ => rfl) told
  | _ => cases shaped

theorem leading_writtenLines {statements : List Statement} (shaped : ∀ statement ∈ statements, Shaped statement) :
    Leading done .ready (writtenLines statements ++ ['\n']) (done ++ statements.map standard) := by
  induction statements generalizing done with
  | nil => exact @leading_lineEnd _ _ .ready _ none rfl (leading_nil _)
  | cons statement statements ih =>
    obtain ⟨here, others⟩ := List.forall_mem_cons.1 shaped
    have rest := @ih (done ++ [standard statement]) others
    rw [List.append_assoc] at rest
    rw [writtenLines, List.flatMap_cons, List.append_assoc, List.append_assoc]
    exact leading_written here (ending_of_leading rest)

-- Carriage returns, which would count as line ends

theorem unifyLineEnds_unreturned {text : List Char} (unreturned : '\r' ∉ text) : unifyLineEnds text = text := by
  induction text with
  | nil => rfl
  | cons c text ih =>
    obtain ⟨plain, later⟩ : '\r' ≠ c ∧ '\r' ∉ text := by simpa using unreturned
    rw [unifyLineEnds_cons (Ne.symm plain), ih later]

theorem quote_unreturned {name : String} (nameable : Nameable name) : '\r' ∉ quote name := by
  simpa [quote] using nameable.1.2

theorem writtenNames_unreturned {names : List String} (nameable : ∀ name ∈ names, Nameable name) :
    '\r' ∉ writtenNames names := by
  fun_induction writtenNames names with
  | case1 => exact List.not_mem_nil
  | case2 name => exact quote_unreturned (nameable name List.mem_cons_self)
  | case3 name names _ ih =>
    obtain ⟨here, others⟩ := List.forall_mem_cons.1 nameable
    simp [quote_unreturned here, ih others]

theorem optional_unreturned {lead : List Char} {text : Option String} (led : '\r' ∉ lead)
    (unreturned : ∀ one ∈ text, '\r' ∉ one.toList) : '\r' ∉ optional lead text := by
  cases text with
  | none => exact List.not_mem_nil
  | some text => simp [optional, led, unreturned text rfl]

theorem IsColor.unreturned {color : String} (proper : IsColor color) : '\r' ∉ color.toList := by
  obtain ⟨head, -, word⟩ := proper
  cases text : color.toList with
  | nil => exact List.not_mem_nil
  | cons c tail =>
    rw [text] at head word
    obtain rfl : c = '#' := Option.some.inj head
    intro member
    rcases List.mem_cons.1 member with same | inside
    · cases same
    · cases List.all_eq_true.1 word _ inside

theorem words_unreturned : (∀ word ∈ participantKinds, '\r' ∉ word.toList) ∧ (∀ word ∈ blockKinds, '\r' ∉ word.toList) ∧
    ∀ arrow ∈ Arrow.table.map Prod.fst, '\r' ∉ arrow.toList := by decide +kernel

theorem written_unreturned {statement : Statement} (shaped : Shaped statement) : '\r' ∉ written statement := by
  obtain ⟨participants, blocks, arrows⟩ := words_unreturned
  cases statement with
  | declaration kind name otherName label attrs =>
    obtain ⟨known, nameable, others, -, -, stereotyped, colored⟩ := shaped
    have other : '\r' ∉ writtenOther otherName := by
      cases otherName with
      | none => exact List.not_mem_nil
      | some otherName => simp [writtenOther, quote_unreturned (others otherName rfl)]
    have stereotype : '\r' ∉ writtenStereotype (attrs.get? "stereotype") := by
      cases found : attrs.get? "stereotype" with
      | none => exact List.not_mem_nil
      | some text => simp [writtenStereotype, (stereotyped text found).1.1.2]
    have color := @optional_unreturned [' '] _ (by decide) fun one found => (colored one found).unreturned
    simp [written, writtenDeclaration, participants kind known, quote_unreturned nameable, other, stereotype, color]
  | message source arrow target label mark =>
    obtain ⟨sender, receiver, known, settled, sign⟩ := shaped
    have marked := @optional_unreturned [' '] mark (by decide) fun one found => by
      rcases sign one found with rfl | rfl <;> decide
    have labelled := @optional_unreturned [' ', ':', ' '] label (by decide) fun one found => (settled one found).1.1.2
    simp [written, writtenMessage, quote_unreturned sender, quote_unreturned receiver, arrows arrow known, marked,
      labelled]
  | note targets side note =>
    obtain ⟨nameable, settled, placed⟩ := shaped
    have sided : '\r' ∉ writtenSide side := by
      rcases placed with ⟨rfl, -⟩ | ⟨rfl | rfl, -⟩ <;> decide +kernel
    simp [written, writtenNote, sided, writtenNames_unreturned nameable, settled.1.2]
  | activation name attrs =>
    obtain ⟨nameable, -, colored⟩ := shaped
    have color := @optional_unreturned [' '] _ (by decide) fun one found => (colored one found).unreturned
    simp [written, writtenUse, quote_unreturned nameable, color]
  | deactivation name => simp [written, writtenUse, quote_unreturned shaped, optional]
  | destruction name => simp [written, writtenUse, quote_unreturned shaped, optional]
  | blockOpen kind condition =>
    obtain ⟨known, proper⟩ := shaped
    have conditioned := @optional_unreturned [' '] _ (by decide) fun one found => (proper one found).1.1.2
    simp [written, writtenBlock, blocks kind known, conditioned]
  | blockElse condition =>
    have conditioned := @optional_unreturned [' '] _ (by decide) fun one found => (shaped one found).1.1.2
    simp [written, writtenBlock, conditioned]
  | blockEnd => decide +kernel
  | comment note => simp [written, shaped.1.2]
  | _ => cases shaped

-- What is read

theorem standard_matches {statement : Statement} (shaped : Shaped statement) :
    Matches (standard statement) statement := by
  cases statement with
  | declaration kind name otherName label attrs =>
    obtain ⟨-, -, -, -, only, -⟩ := shaped
    refine ⟨rfl, rfl, rfl, rfl, ?_⟩
    intro key
    by_cases stereotype : key = "stereotype"
    · subst stereotype
      cases attrs.get? "stereotype" <;> cases attrs.get? "color" <;> simp [Table.ofList, Table.get?_set]
    by_cases color : key = "color"
    · subst color
      cases attrs.get? "stereotype" <;> cases attrs.get? "color" <;> simp [Table.ofList, Table.get?_set]
    have absent : attrs.get? key = none :=
      (attrs.get?_eq_none_iff key).2 fun listed => (only key listed).elim stereotype color
    rw [absent]
    cases attrs.get? "stereotype" <;> cases attrs.get? "color" <;>
      simp [Table.ofList, Table.get?_set, stereotype, color]
  | _ => rfl

-- No word of a line is taken for another, whatever the texts are and in whatever order the lines stand.
theorem parse_canonical {statements : List Statement} (shaped : ∀ statement ∈ statements, Shaped statement) :
    ∃ placed, parse (String.ofList (writtenLines statements)) = .ok ⟨.sequence, placed⟩ ∧
      List.Forall₂ Matches (placed.map Placed.statement) statements := by
  have unreturned : '\r' ∉ writtenLines statements := by
    intro member
    obtain ⟨statement, listed, inside⟩ := List.mem_flatMap.1 member
    rcases List.mem_append.1 inside with line | feed
    · exact written_unreturned (shaped statement listed) line
    · simp at feed
  have text : prepare (String.ofList (writtenLines statements)).toList = writtenLines statements ++ ['\n'] := by
    rw [prepare, String.toList_ofList, unifyLineEnds_unreturned unreturned]
  have leads := @leading_writtenLines [] statements shaped
  obtain ⟨placed, reads, same⟩ := leads State.start (Cursor.start _) rfl rfl
  refine ⟨placed, parse_eq_ok.2 ⟨rfl, text ▸ reads⟩, ?_⟩
  rw [same, List.nil_append, List.forall₂_map_left_iff, List.forall₂_same]
  exact fun statement listed => standard_matches (shaped statement listed)

-- Names, labels and conditions that look like arrows, marks and keywords, and attributes the other way around.
theorem parse_canonical_lookalikes :
    let statements : List Statement :=
      [.declaration "actor" "as" (some "<<-") (some "<<-") (Table.ofList [("color", "#a"), ("stereotype", "x --")]),
       .message "left" "-->x" "x" (some ": ++") (some "--"),
       .blockOpen "alt" (some "else"),
       .note ["end"] "left" "end note"]
    let text :=
      "actor \"as\" as \"<<-\" <<x -->> #a\n\"left\" -->x \"x\" -- : : ++\nalt else\nnote left of \"end\" : end note\n"
    (∀ statement ∈ statements, Shaped statement) ∧
      ∃ placed, parse text = .ok ⟨.sequence, placed⟩ ∧
        List.Forall₂ Matches (placed.map Placed.statement) statements := by
  intro statements text
  have shaped : ∀ statement ∈ statements, Shaped statement := by decide +kernel
  have same : String.ofList (writtenLines statements) = text := by decide +kernel
  refine ⟨shaped, ?_⟩
  rw [← same]
  exact parse_canonical shaped

end DiagramStream.Sequence
