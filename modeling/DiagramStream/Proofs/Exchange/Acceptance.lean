import DiagramStream.Proofs.Exchange.Follow

/-!
Which sequence diagrams are told. Main statement: exactly those in which every statement fits what comes
before it and no block is left open; any other is refused at its first statement that does not fit, or at its
end for its innermost block.
-/

namespace DiagramStream

-- A statement fits after others if its arrow is known, its block is there, and the node that it deactivates
-- is active.
structure Fits (before : List Placed) (placed : Placed) : Prop where
  arrow : ∀ source arrow target label mark,
    placed.statement = .message source arrow target label mark → arrow ∈ Arrow.table.map Prod.fst
  ends : placed.statement = .blockEnd → openBlocks before ≠ []
  branches : ∀ condition, placed.statement = .blockElse condition →
    ∃ block outer, openBlocks before = block :: outer ∧ block.kind ∈ [ScopeKind.alt, .par, .critical]
  lowers : ∀ id, placed.statement.move? (rosterOf (before ++ [placed])) = some (.lower id) →
    0 < activeDepth before id

def Orderly (statements : List Placed) : Prop :=
  ∀ before placed, before ++ [placed] <+: statements → Fits before placed

theorem ofText?_isSome_iff (arrow : String) :
    arrow ∈ Arrow.table.map Prod.fst ↔ ∃ kind, Arrow.ofText? arrow = some kind :=
  Table.mem_keysOf_iff arrow Arrow.table

theorem isBranching_iff (kind : ScopeKind) :
    kind ∈ [ScopeKind.alt, .par, .critical] ↔ kind.isBranching = true := by
  cases kind <;> simp [ScopeKind.isBranching]

-- Blocks that control keywords open can be closed.
theorem nest_isBlock {place : Nat} {blocks : List Block} (older : ∀ block ∈ blocks, block.kind.isBlock = true)
    {placed : Placed} (control : placed.statement.opensControl = true) :
    ∀ block ∈ nest place blocks placed, block.kind.isBlock = true := by
  intro block member
  rcases mem_nest member with old | ⟨one, old, same, _⟩ | ⟨kind, condition, shape, known, _⟩
  · exact older block old
  · rw [same]
    exact older one old
  · rw [shape] at control
    obtain ⟨scope, named, fits⟩ := Statement.opensControl_kind control
    cases named.symm.trans known
    exact fits

theorem openBlocks_isBlock {statements : List Placed}
    (control : ∀ placed ∈ statements, placed.statement.opensControl = true) :
    ∀ block ∈ openBlocks statements, block.kind.isBlock = true := by
  induction statements using List.reverseRecOn with
  | nil => intro block member; cases member
  | append_singleton before placed ih =>
    rw [openBlocks_concat]
    exact nest_isBlock (ih fun one member => control one (List.mem_append_left _ member)) (control placed (by simp))

-- Only a deactivation and a message with its mark lower a node.
theorem message_lowers {roster : Roster} {source arrow target : String} {label mark : Option String} {kind : Arrow}
    (known : Arrow.ofText? arrow = some kind) {id : String} :
    (Statement.message source arrow target label mark).move? roster = some (.lower id) ↔
      mark = some "--" ∧ (kind.ends (roster.idOf source) (roster.idOf target)).1 = id := by
  simp only [Statement.move?, known, Option.bind_some]
  split
  · rename_i raised; simp [raised]
  · split
    · rename_i lowered; simp [lowered]
    · rename_i other; simp [other]

theorem fits_message {before : List Placed} {position : Text.Position} {source arrow target : String}
    {label mark : Option String} {kind : Arrow} (known : Arrow.ofText? arrow = some kind) :
    offenceAfter? before ⟨position, .message source arrow target label mark⟩ = none ↔
      Fits before ⟨position, .message source arrow target label mark⟩ := by
  have listed := (ofText?_isSome_iff arrow).2 ⟨kind, known⟩
  constructor
  · intro fine
    refine ⟨?_, by simp, by simp, ?_⟩
    · intro _ _ _ _ _ same
      cases same
      exact listed
    · intro id lowered
      obtain ⟨marked, rfl⟩ := (message_lowers known).1 lowered
      simp only [offenceAfter?, offence?, known, marked, if_true] at fine
      rw [rosterOf_concat]
      split at fine
      · cases fine
      · rename_i active
        exact Nat.pos_of_ne_zero (marked ▸ active)
  · intro fits
    simp only [offenceAfter?, offence?, known]
    split
    · rename_i marked
      have active := fits.lowers _ ((message_lowers known).2 ⟨marked, rfl⟩)
      rw [rosterOf_concat] at active
      rw [if_neg (by omega)]
    · rfl

theorem fits_deactivation {before : List Placed} {position : Text.Position} {name : String} :
    offenceAfter? before ⟨position, .deactivation name⟩ = none ↔ Fits before ⟨position, .deactivation name⟩ := by
  simp only [offenceAfter?, offence?, ite_eq_right_iff, reduceCtorEq, imp_false]
  constructor
  · intro active
    refine ⟨by simp, by simp, by simp, ?_⟩
    intro id lowered
    rw [rosterOf_concat] at lowered
    cases lowered
    omega
  · intro fits
    have active := fits.lowers _ rfl
    rw [rosterOf_concat] at active
    omega

theorem offenceAfter?_none_iff {before : List Placed} {placed : Placed}
    (control : placed.statement.opensControl = true)
    (blocks : ∀ block ∈ openBlocks before, block.kind.isBlock = true) :
    offenceAfter? before placed = none ↔ Fits before placed := by
  obtain ⟨position, statement⟩ := placed
  cases statement with
  | message source arrow target label mark =>
    cases known : Arrow.ofText? arrow with
    | none =>
      refine iff_of_false (by simp [offenceAfter?, offence?, known]) ?_
      intro fits
      obtain ⟨kind, found⟩ := (ofText?_isSome_iff arrow).1 (fits.arrow _ _ _ _ _ rfl)
      cases known.symm.trans found
    | some kind => exact fits_message known
  | deactivation name => exact fits_deactivation
  | blockOpen kind condition =>
    obtain ⟨scope, known, _⟩ := Statement.opensControl_kind control
    exact iff_of_true (by simp [offenceAfter?, offence?, known]) ⟨by simp, by simp, by simp, by simp [Statement.move?]⟩
  | blockElse condition =>
    cases open_ : openBlocks before with
    | nil =>
      refine iff_of_false (by simp [offenceAfter?, offence?, open_]) ?_
      intro fits
      obtain ⟨block, outer, same, _⟩ := fits.branches condition rfl
      cases open_.symm.trans same
    | cons block outer =>
      simp only [offenceAfter?, offence?, open_, List.head?_cons, Option.map_some]
      constructor
      · intro fine
        refine ⟨by simp, by simp, ?_, by simp [Statement.move?]⟩
        intro _ _
        exact ⟨block, outer, open_, (isBranching_iff _).2 (by simpa using fine)⟩
      · intro fits
        obtain ⟨inner, rest, same, branching⟩ := fits.branches condition rfl
        cases open_.symm.trans same
        simpa using (isBranching_iff _).1 branching
  | blockEnd =>
    cases open_ : openBlocks before with
    | nil => exact iff_of_false (by simp [offenceAfter?, offence?, open_]) fun fits => fits.ends rfl open_
    | cons block outer =>
      have closes := blocks block (by rw [open_]; exact List.mem_cons_self ..)
      exact iff_of_true (by simp [offenceAfter?, offence?, open_, closes])
        ⟨by simp, fun _ => by simp [open_], by simp, by simp [Statement.move?]⟩
  | _ =>
    exact iff_of_true rfl ⟨by simp, by simp, by simp, by simp [Statement.move?]⟩

-- Every failure of a statement names the line that the statement stands on.
theorem offenceAfter?_line {before : List Placed} {placed : Placed} {failure : Failure}
    (control : placed.statement.opensControl = true) (offence : offenceAfter? before placed = some failure) :
    failure.line? = some placed.position.line := by
  obtain ⟨position, statement⟩ := placed
  cases statement with
  | message source arrow target label mark =>
    simp only [offenceAfter?, offence?] at offence
    split at offence
    · cases offence; rfl
    · split at offence
      · split at offence
        · cases offence; rfl
        · cases offence
      · cases offence
  | deactivation name =>
    simp only [offenceAfter?, offence?] at offence
    split at offence
    · cases offence; rfl
    · cases offence
  | blockOpen kind condition =>
    obtain ⟨scope, known, _⟩ := Statement.opensControl_kind control
    simp [offenceAfter?, offence?, known] at offence
  | blockElse condition | blockEnd =>
    simp only [offenceAfter?, offence?] at offence
    split at offence
    · cases offence; rfl
    · split at offence
      · cases offence
      · cases offence; rfl
  | _ => cases offence

theorem orderly_iff_clean {statements : List Placed}
    (control : ∀ placed ∈ statements, placed.statement.opensControl = true) :
    Orderly statements ↔ Clean offenceAfter? statements := by
  have same : ∀ before placed, before ++ [placed] <+: statements →
      (offenceAfter? before placed = none ↔ Fits before placed) := by
    intro before placed within
    refine offenceAfter?_none_iff (control placed (within.subset (by simp))) (openBlocks_isBlock ?_)
    intro one member
    exact control one (within.subset (List.mem_append_left _ member))
  constructor
  · intro orderly before placed within
    exact (same before placed within).2 (orderly before placed within)
  · intro clean before placed within
    exact (same before placed within).1 (clean before placed within)

namespace Narration

-- At the end the blocks tell what is left open.
theorem ofDocument_orderly {statements : List Placed} (batching : Batching)
    (spoken : ∀ placed ∈ statements, placed.statement.ofSequence = true)
    (clean : Clean offenceAfter? statements) :
    match openBlocks statements with
    | [] => ∃ narration, ofDocument ⟨.sequence, statements⟩ batching = .ok narration
    | block :: _ => ofDocument ⟨.sequence, statements⟩ batching = .error (.neverClosed block.kind block.line) := by
  obtain ⟨last, told, follows⟩ := exchange_decides.tellAll_clean (opening_follows statements batching) spoken clean
  have faces := follows.faces
  unfold ofDocument
  cases blocks : openBlocks statements with
  | nil =>
    rw [blocks] at faces
    have frames := List.map_eq_nil_iff.1 faces
    simp only [told, finish, Nesting.ensureClosed, frames]
    exact ⟨_, rfl⟩
  | cons block outer =>
    obtain ⟨top, rest, frames, face, _⟩ := follows.innermost blocks
    have kind : top.kind = block.kind := congrArg Face.kind face
    have line : top.line = block.line := congrArg Face.line face
    simp only [told, finish, Nesting.ensureClosed, frames, kind, line]

theorem ofDocument_sequence {statements : List Placed} (batching : Batching)
    (spoken : ∀ placed ∈ statements, placed.statement.ofSequence = true)
    (control : ∀ placed ∈ statements, placed.statement.opensControl = true) :
    ((∃ narration, ofDocument ⟨.sequence, statements⟩ batching = .ok narration) ↔
      Orderly statements ∧ openBlocks statements = []) ∧
    (∀ before placed rest, statements = before ++ placed :: rest → Orderly before → ¬Fits before placed →
      ∃ failure, offenceAfter? before placed = some failure ∧ failure.line? = some placed.position.line ∧
        ofDocument ⟨.sequence, statements⟩ batching = .error failure) ∧
    (∀ block outer, Orderly statements → openBlocks statements = block :: outer →
      ofDocument ⟨.sequence, statements⟩ batching = .error (.neverClosed block.kind block.line)) := by
  have orderly := orderly_iff_clean control
  refine ⟨⟨?_, ?_⟩, ?_, ?_⟩
  · rintro ⟨narration, told⟩
    obtain ⟨last, run, closed, _⟩ := (ofDocument_ok_iff _ _ _).1 told
    obtain ⟨clean, follows⟩ := exchange_decides.clean_of_told (opening_follows statements batching) spoken run
    exact ⟨orderly.2 clean, follows.closed closed⟩
  · rintro ⟨fits, closed⟩
    have outcome := ofDocument_orderly batching spoken (orderly.1 fits)
    rwa [closed] at outcome
  · rintro before placed rest rfl fits unfit
    have earlier : ∀ one ∈ before, one.statement.opensControl = true :=
      fun one member => control one (List.mem_append_left _ member)
    have clean := (orderly_iff_clean earlier).1 fits
    have here := offenceAfter?_none_iff (control placed (by simp)) (openBlocks_isBlock earlier)
    cases offence : offenceAfter? before placed with
    | none => exact absurd (here.1 offence) unfit
    | some failure =>
      refine ⟨failure, rfl, offenceAfter?_line (control placed (by simp)) offence, ?_⟩
      unfold ofDocument
      rw [exchange_decides.tellAll_fault (opening_follows _ batching) spoken clean offence]
  · intro block outer fits blocks
    have outcome := ofDocument_orderly batching spoken (orderly.1 fits)
    rwa [blocks] at outcome

-- A block with two branches, and an activation that a reversed arrow takes back under a second name.
theorem ofDocument_sequence_alias :
    let statements : List Placed :=
      [⟨⟨1, 1⟩, .declaration "actor" "a" (some "b") none Table.empty⟩,
       ⟨⟨2, 1⟩, .message "c" "->" "a" none (some "++")⟩, ⟨⟨3, 1⟩, .blockOpen "par" none⟩,
       ⟨⟨4, 1⟩, .blockElse (some "rest")⟩, ⟨⟨5, 1⟩, .message "c" "<--" "b" none (some "--")⟩,
       ⟨⟨6, 1⟩, .blockEnd⟩]
    (∀ placed ∈ statements, placed.statement.ofSequence = true) ∧
    (∀ placed ∈ statements, placed.statement.opensControl = true) ∧
    Orderly statements ∧ openBlocks statements = [] := by
  intro statements
  have spoken : ∀ placed ∈ statements, placed.statement.ofSequence = true := by decide
  have control : ∀ placed ∈ statements, placed.statement.opensControl = true := by decide
  exact ⟨spoken, control, (ofDocument_sequence .block spoken control).1.1 ⟨_, rfl⟩⟩

end Narration
end DiagramStream
