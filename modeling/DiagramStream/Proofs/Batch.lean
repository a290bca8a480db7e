import DiagramStream.Event

/-!
Batches of a stream: where their markers stand. Main statement: where the markers come in pairs, the last one
before a place tells whether a batch is open there.
-/

namespace DiagramStream

def Event.isMarker : Event → Bool
  | .batchStart => true
  | .batchEnd => true
  | _ => false

def markers (events : List Event) : List Event := events.filter (·.isMarker)

def unmarked (events : List Event) : List Event := events.filter fun event => !event.isMarker

@[simp] theorem markers_append (earlier later : List Event) :
    markers (earlier ++ later) = markers earlier ++ markers later := List.filter_append ..

theorem markers_singleton (event : Event) : markers [event] = if event.isMarker then [event] else [] := by
  cases event <;> rfl

@[simp] theorem unmarked_append (earlier later : List Event) :
    unmarked (earlier ++ later) = unmarked earlier ++ unmarked later := List.filter_append ..

-- Starts and ends in turn.
def batchPairs (count : Nat) : List Event := (List.replicate count [Event.batchStart, .batchEnd]).flatten

theorem batchPairs_succ (count : Nat) :
    batchPairs (count + 1) = batchPairs count ++ [.batchStart, .batchEnd] := by
  simp [batchPairs, List.replicate_succ']

theorem batchEnd_follows {count : Nat} {earlier later : List Event}
    (pairs : earlier ++ .batchStart :: later = batchPairs count) : ∃ rest, later = .batchEnd :: rest := by
  induction count generalizing earlier with
  | zero => simp [batchPairs] at pairs
  | succ count ih =>
    have first : batchPairs (count + 1) = .batchStart :: .batchEnd :: batchPairs count := by
      simp [batchPairs, List.replicate_succ]
    rw [first] at pairs
    cases earlier with
    | nil => exact ⟨_, (List.cons.inj pairs).2⟩
    | cons one earlier =>
      cases earlier with
      | nil => cases (List.cons.inj (List.cons.inj pairs).2).1
      | cons other earlier => exact ih (List.cons.inj (List.cons.inj pairs).2).2

theorem batchStart_precedes {count : Nat} {earlier later : List Event}
    (pairs : earlier ++ .batchEnd :: later = batchPairs count) : ∃ rest, earlier = rest ++ [.batchStart] := by
  induction count generalizing later with
  | zero => simp [batchPairs] at pairs
  | succ count ih =>
    rw [batchPairs_succ] at pairs
    rcases List.append_eq_append_iff.1 pairs with ⟨between, whole, tail⟩ | ⟨between, rfl, tail⟩
    · cases between with
      | nil => cases tail
      | cons one between =>
        cases (List.cons.inj tail).1
        exact ih whole.symm
    · cases between with
      | nil => cases tail
      | cons one between =>
        obtain ⟨rfl, rest⟩ := List.cons.inj tail
        cases between with
        | nil => exact ⟨batchPairs count, rfl⟩
        | cons other between => cases between <;> cases (List.cons.inj rest).2

-- Between a start and the end that answers it.
def WithinBatch (before after : List Event) : Prop :=
  ∃ earlier inside rest later, before = earlier ++ .batchStart :: inside ∧ after = rest ++ .batchEnd :: later ∧
    markers inside = [] ∧ markers rest = []

-- Where markers come in pairs, the last one before tells.
theorem withinBatch_iff {count : Nat} {before after : List Event}
    (pairs : markers before ++ markers after = batchPairs count) :
    WithinBatch before after ↔ (markers before).getLast? = some .batchStart := by
  constructor
  · rintro ⟨earlier, inside, rest, later, rfl, -, quiet, -⟩
    have last : markers (earlier ++ .batchStart :: inside) = markers earlier ++ [.batchStart] := by
      rw [markers_append]
      exact congrArg (markers earlier ++ .batchStart :: ·) quiet
    simp [last]
  · intro last
    obtain ⟨starts, shape⟩ := List.getLast?_eq_some_iff.1 last
    rw [shape, List.append_assoc] at pairs
    obtain ⟨ends, follows⟩ := batchEnd_follows pairs
    obtain ⟨rest, later, split, quiet, -⟩ := List.filter_eq_cons_iff.1 follows
    obtain ⟨outer, inner, rfl, -, opened⟩ := List.filter_eq_append_iff.1 shape
    obtain ⟨earlier, inside, rfl, -, -, closed⟩ := List.filter_eq_cons_iff.1 opened
    exact ⟨outer ++ earlier, inside, rest, later, by simp, split, closed, List.filter_eq_nil_iff.2 quiet⟩

end DiagramStream
