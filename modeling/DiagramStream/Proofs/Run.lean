import Mathlib.Data.List.Induction
import DiagramStream.Narration.Document

/-!
Runs over several statements. Main statements: a run splits wherever the statements do, what every statement
keeps a run keeps, a run stops at the first statement that is at fault, with its failure, and two runs over
statements that are told alike in pairs are told alike.
-/

namespace DiagramStream

-- Statements none of which is at fault, where the fault of a statement is read off those before it.
def Clean (fault? : List Placed → Placed → Option Failure) (statements : List Placed) : Prop :=
  ∀ before placed, before ++ [placed] <+: statements → fault? before placed = none

section
variable {fault? : List Placed → Placed → Option Failure}

theorem Clean.earlier {earlier statements : List Placed} (clean : Clean fault? statements)
    (begins : earlier <+: statements) : Clean fault? earlier :=
  fun before placed within => clean before placed (within.trans begins)

theorem clean_nil : Clean fault? [] := by
  intro before placed within
  simp at within

theorem clean_concat {before : List Placed} {placed : Placed} :
    Clean fault? (before ++ [placed]) ↔ Clean fault? before ∧ fault? before placed = none := by
  constructor
  · intro clean
    exact ⟨clean.earlier (List.prefix_append ..), clean before placed (List.prefix_refl _)⟩
  · rintro ⟨clean, fine⟩ earlier other within
    rcases List.prefix_concat_iff.1 within with whole | begins
    · obtain ⟨rfl, rfl⟩ := List.append_singleton_inj.1 whole
      exact fine
    · exact clean earlier other begins

-- Either nothing is wrong, or there is a first statement that is.
theorem clean_or_first (fault? : List Placed → Placed → Option Failure) (statements : List Placed) :
    Clean fault? statements ∨ ∃ before placed rest failure, statements = before ++ placed :: rest ∧
      Clean fault? before ∧ fault? before placed = some failure := by
  induction statements using List.reverseRecOn with
  | nil => exact .inl clean_nil
  | append_singleton earlier last ih =>
    rcases ih with clean | ⟨before, placed, rest, failure, rfl, clean, fault⟩
    · cases fault : fault? earlier last with
      | none => exact .inl (clean_concat.2 ⟨clean, fault⟩)
      | some failure => exact .inr ⟨earlier, last, [], failure, rfl, clean, fault⟩
    · exact .inr ⟨before, placed, rest ++ [last], failure, by simp, clean, fault⟩

end

namespace Narration

-- A narration can be recognized by anything that can be seen of it.
theorem ok_of_seen {α : Type} {outcome : Except Failure Narration} {seen : Narration → Option α} {value : α}
    (shown : outcome.toOption.bind seen = some value) :
    ∃ narration, outcome = .ok narration ∧ seen narration = some value := by
  cases outcome with
  | error failure => cases shown
  | ok narration => exact ⟨narration, rfl, shown⟩

-- Refused with the same failure, or told alike.
def Both (related : Narration → Narration → Prop) : Except Failure Narration → Except Failure Narration → Prop
  | .ok one, .ok other => related one other
  | .error failure, .error other => failure = other
  | _, _ => False

theorem Both.cases {related : Narration → Narration → Prop} {one two : Except Failure Narration}
    (both : Both related one two) :
    (∃ failure, one = .error failure ∧ two = .error failure) ∨
      ∃ first second, one = .ok first ∧ two = .ok second ∧ related first second := by
  cases one with
  | error failure =>
    cases two with
    | error other => exact .inl ⟨failure, rfl, congrArg Except.error (Eq.symm both)⟩
    | ok second => cases both
  | ok first =>
    cases two with
    | error failure => cases both
    | ok second => exact .inr ⟨first, second, rfl, rfl, both⟩

theorem Both.imp {related other : Narration → Narration → Prop} {one two : Except Failure Narration}
    (both : Both related one two)
    (implies : ∀ first second, one = .ok first → related first second → other first second) : Both other one two := by
  rcases both.cases with ⟨failure, rfl, rfl⟩ | ⟨first, second, rfl, rfl, here⟩
  · exact rfl
  · exact implies first second rfl here

-- Two outcomes that are each alike to a third.
theorem Both.join {related other : Narration → Narration → Prop} {one two common : Except Failure Narration}
    (both : Both related one common) (too : Both other two common) :
    (∃ failure, one = .error failure ∧ two = .error failure) ∨
      ∃ first second shared, one = .ok first ∧ two = .ok second ∧ related first shared ∧ other second shared := by
  rcases both.cases with ⟨failure, rfl, rfl⟩ | ⟨first, shared, rfl, rfl, here⟩
  · rcases too.cases with ⟨failure, rfl, same⟩ | ⟨second, shared, rfl, same, -⟩ <;> cases same
    exact .inl ⟨_, rfl, rfl⟩
  · rcases too.cases with ⟨failure, rfl, same⟩ | ⟨second, shared, rfl, same, there⟩ <;> cases same
    exact .inr ⟨first, second, shared, rfl, rfl, here, there⟩

theorem tellAll_append (narration : Narration) (earlier later : List Placed) :
    narration.tellAll (earlier ++ later) =
      match narration.tellAll earlier with
      | .error failure => .error failure
      | .ok middle => middle.tellAll later := by
  induction earlier generalizing narration with
  | nil => rfl
  | cons placed rest ih =>
    simp only [List.cons_append, tellAll]
    cases narration.tell placed with
    | error failure => rfl
    | ok next => exact ih next

theorem tellAll_concat {narration middle : Narration} {before : List Placed}
    (told : narration.tellAll before = .ok middle) (placed : Placed) :
    narration.tellAll (before ++ [placed]) = middle.tell placed := by
  rw [tellAll_append, told]
  simp only [tellAll]
  cases middle.tell placed <;> rfl

theorem tellAll_failed {narration : Narration} {before : List Placed} {failure : Failure}
    (failed : narration.tellAll before = .error failure) (later : List Placed) :
    narration.tellAll (before ++ later) = .error failure := by
  rw [tellAll_append, failed]

theorem tellAll_preserves (Kept : Narration → Prop) {statements : List Placed} {narration last : Narration}
    (step : ∀ placed ∈ statements, ∀ before after, Kept before → before.tell placed = .ok after → Kept after)
    (kept : Kept narration) (told : narration.tellAll statements = .ok last) : Kept last := by
  induction statements generalizing narration with
  | nil => cases told; exact kept
  | cons placed rest ih =>
    unfold tellAll at told
    split at told
    · cases told
    · rename_i next one
      exact ih (fun later member => step later (List.mem_cons_of_mem _ member))
        (step placed (List.mem_cons_self ..) _ _ kept one) told

-- The same for what is kept of the statements so far.
theorem tellAll_reaches (Reached : Narration → List Placed → Prop) {statements : List Placed}
    {narration last : Narration}
    (step : ∀ placed ∈ statements, ∀ before one other, Reached one before → one.tell placed = .ok other →
      Reached other (before ++ [placed]))
    (start : Reached narration []) (told : narration.tellAll statements = .ok last) : Reached last statements := by
  induction statements using List.reverseRecOn generalizing last with
  | nil => cases told; exact start
  | append_singleton earlier placed ih =>
    cases run : narration.tellAll earlier with
    | error failure => cases (tellAll_failed run [placed]).symm.trans told
    | ok middle =>
      have reached := ih (fun one member => step one (List.mem_append_left _ member)) run
      exact step placed (by simp) earlier middle last reached ((tellAll_concat run placed).symm.trans told)

-- Two runs side by side, over the same statements but for a change that is made to each.
theorem tellAll_both (related : List Placed → Narration → Narration → Prop) (change : Placed → Placed)
    {statements : List Placed} {one two : Narration} (start : related [] one two)
    (step : ∀ placed ∈ statements, ∀ before first second, related before first second →
      Both (related (before ++ [placed])) (first.tell placed) (second.tell (change placed))) :
    Both (related statements) (one.tellAll statements) (two.tellAll (statements.map change)) := by
  induction statements using List.reverseRecOn with
  | nil => exact start
  | append_singleton before placed ih =>
    have both := ih fun earlier member => step earlier (List.mem_append_left _ member)
    rw [List.map_append, List.map_singleton]
    rcases both.cases with ⟨failure, run, run'⟩ | ⟨first, second, run, run', here⟩
    · rw [tellAll_failed run, tellAll_failed run']
      exact rfl
    · rw [tellAll_concat run, tellAll_concat run']
      exact step placed (by simp) before first second here

-- A run that fails does so at a statement, right after all that were told before it.
theorem tellAll_error {narration : Narration} {statements : List Placed} {failure : Failure}
    (failed : narration.tellAll statements = .error failure) :
    ∃ before placed rest middle, statements = before ++ placed :: rest ∧
      narration.tellAll before = .ok middle ∧ middle.tell placed = .error failure := by
  induction statements using List.reverseRecOn with
  | nil => cases failed
  | append_singleton earlier last ih =>
    cases run : narration.tellAll earlier with
    | ok middle => exact ⟨earlier, last, [], middle, rfl, run, (tellAll_concat run last).symm.trans failed⟩
    | error other =>
      cases (tellAll_failed run [last]).symm.trans failed
      obtain ⟨before, placed, rest, middle, rfl, told, refused⟩ := ih run
      exact ⟨before, placed, rest ++ [last], middle, by simp, told, refused⟩

-- The faults decide which of the allowed statements are told, as long as the narration stands where the
-- statements so far lead.
structure Decides (fault? : List Placed → Placed → Option Failure) (allowed : Placed → Prop)
    (reached : Narration → List Placed → Prop) : Prop where
  accepts : ∀ narration before placed, reached narration before → allowed placed →
    fault? before placed = none → ∃ next, narration.tell placed = .ok next ∧ reached next (before ++ [placed])
  refuses : ∀ narration before placed failure, reached narration before → allowed placed →
    fault? before placed = some failure → narration.tell placed = .error failure

section
variable {fault? : List Placed → Placed → Option Failure} {allowed : Placed → Prop}
  {reached : Narration → List Placed → Prop} {narration : Narration}

theorem Decides.tellAll_clean (decides : Decides fault? allowed reached) (start : reached narration [])
    {statements : List Placed} (allows : ∀ placed ∈ statements, allowed placed)
    (clean : Clean fault? statements) :
    ∃ last, narration.tellAll statements = .ok last ∧ reached last statements := by
  induction statements using List.reverseRecOn with
  | nil => exact ⟨narration, rfl, start⟩
  | append_singleton earlier placed ih =>
    obtain ⟨before, fine⟩ := clean_concat.1 clean
    obtain ⟨middle, told, there⟩ := ih (fun one member => allows one (List.mem_append_left _ member)) before
    obtain ⟨next, one, here⟩ := decides.accepts middle earlier placed there (allows placed (by simp)) fine
    exact ⟨next, (tellAll_concat told placed).trans one, here⟩

theorem Decides.tellAll_fault (decides : Decides fault? allowed reached) (start : reached narration [])
    {before rest : List Placed} {placed : Placed} (allows : ∀ one ∈ before ++ placed :: rest, allowed one)
    (clean : Clean fault? before) {failure : Failure} (fault : fault? before placed = some failure) :
    narration.tellAll (before ++ placed :: rest) = .error failure := by
  obtain ⟨middle, told, there⟩ :=
    decides.tellAll_clean start (fun one member => allows one (List.mem_append_left _ member)) clean
  have refused := decides.refuses middle before placed failure there (allows placed (by simp)) fault
  have stopped := tellAll_failed ((tellAll_concat told placed).trans refused) rest
  rwa [List.append_assoc] at stopped

theorem Decides.clean_of_told (decides : Decides fault? allowed reached) (start : reached narration [])
    {statements : List Placed} (allows : ∀ placed ∈ statements, allowed placed) {last : Narration}
    (told : narration.tellAll statements = .ok last) : Clean fault? statements ∧ reached last statements := by
  rcases clean_or_first fault? statements with clean | ⟨before, placed, rest, failure, rfl, clean, fault⟩
  · obtain ⟨other, same, there⟩ := decides.tellAll_clean start allows clean
    cases same.symm.trans told
    exact ⟨clean, there⟩
  · cases (decides.tellAll_fault start allows clean fault).symm.trans told

theorem Decides.tellAll_error_iff (decides : Decides fault? allowed reached) (start : reached narration [])
    {statements : List Placed} (allows : ∀ placed ∈ statements, allowed placed) {failure : Failure} :
    narration.tellAll statements = .error failure ↔ ∃ before placed rest, statements = before ++ placed :: rest ∧
      Clean fault? before ∧ fault? before placed = some failure := by
  constructor
  · intro failed
    rcases clean_or_first fault? statements with clean | ⟨before, placed, rest, other, rfl, clean, fault⟩
    · obtain ⟨last, told, -⟩ := decides.tellAll_clean start allows clean
      cases told.symm.trans failed
    · cases (decides.tellAll_fault start allows clean fault).symm.trans failed
      exact ⟨before, placed, rest, rfl, clean, fault⟩
  · rintro ⟨before, placed, rest, rfl, clean, fault⟩
    exact decides.tellAll_fault start allows clean fault

end

-- A document is told exactly when all its statements are and no scope is left open.
theorem ofDocument_ok_iff (document : Document) (batching : Batching) (narration : Narration) :
    ofDocument document batching = .ok narration ↔
      ∃ last, (opening document batching).tellAll document.statements = .ok last ∧
        last.nesting.frames = [] ∧
        narration = { last with events := last.events ++ last.heldBack
          ++ (if last.batching = .diagram then [.batchEnd] else []) } := by
  unfold ofDocument
  cases run : (opening document batching).tellAll document.statements with
  | error failure => simp
  | ok last =>
    cases open_ : last.nesting.frames with
    | nil => simp [finish, Nesting.ensureClosed, open_, eq_comm]
    | cons top outer => simp [finish, Nesting.ensureClosed, open_]

end Narration
end DiagramStream
