import Mathlib.Data.List.Infix
import DiagramStream.Proofs.Batch
import DiagramStream.Proofs.Past
import DiagramStream.Proofs.Canvas.Refusals

/-!
When changes are announced. Main statement: a change outside all batches is announced at once, those within an outermost
batch are announced together when it ends, and nothing else is ever announced.
-/

namespace DiagramStream

-- How many batches are open. An end that answers no start is passed over.
def openBatches (events : List Event) : Nat :=
  events.foldl (fun batches event =>
    match event with
    | .batchStart => batches + 1
    | .batchEnd => batches - 1
    | _ => batches) 0

namespace Canvas

-- The event changes the diagram, if it comes after the others: it is no marker, and it is not refused.
def Changes (canvas : Canvas) (before : List Event) (event : Event) : Prop :=
  event.isMarker = false ∧ ((canvas.applyAll before).1.apply event).2 = .done

instance (canvas : Canvas) (before : List Event) (event : Event) : Decidable (canvas.Changes before event) :=
  inferInstanceAs (Decidable (_ ∧ _))

-- A change was made within the outermost batch that is open now: since then some batch was open all the time.
def ChangedInBatch (canvas : Canvas) (events : List Event) : Prop :=
  ∃ moment ∈ withPast events, canvas.Changes moment.1 moment.2 ∧
    ∀ later ∈ events.inits, moment.1.length < later.length → 0 < openBatches later

instance (canvas : Canvas) (events : List Event) : Decidable (canvas.ChangedInBatch events) :=
  inferInstanceAs (Decidable (∃ moment ∈ withPast events, _ ∧ _))

-- What is announced at once.
def ChangesAlone (canvas : Canvas) (before : List Event) (event : Event) : Prop :=
  openBatches before = 0 ∧ canvas.Changes before event

instance (canvas : Canvas) (before : List Event) (event : Event) : Decidable (canvas.ChangesAlone before event) :=
  inferInstanceAs (Decidable (_ ∧ _))

-- The end of an outermost batch that has changes to announce.
def EndsChanged (canvas : Canvas) (before : List Event) (event : Event) : Prop :=
  event = .batchEnd ∧ openBatches before = 1 ∧ canvas.ChangedInBatch before

instance (canvas : Canvas) (before : List Event) (event : Event) : Decidable (canvas.EndsChanged before event) :=
  inferInstanceAs (Decidable (_ ∧ _ ∧ _))

end Canvas

-- Batches

theorem openBatches_concat (before : List Event) (event : Event) :
    openBatches (before ++ [event]) =
      match event with
      | .batchStart => openBatches before + 1
      | .batchEnd => openBatches before - 1
      | _ => openBatches before := by
  unfold openBatches
  rw [List.foldl_append]
  rfl

theorem openBatches_plain {event : Event} (plain : event.isMarker = false) (before : List Event) :
    openBatches (before ++ [event]) = openBatches before := by
  rw [openBatches_concat]
  cases event with
  | batchStart => cases plain
  | batchEnd => cases plain
  | _ => rfl

theorem openBatches_shut {before : List Event} {event : Event} (inside : 0 < openBatches before)
    (shut : openBatches (before ++ [event]) = 0) : event = .batchEnd ∧ openBatches before = 1 := by
  rw [openBatches_concat] at shut
  cases event with
  | batchEnd =>
    have outermost : openBatches before - 1 = 0 := shut
    exact ⟨rfl, by omega⟩
  | batchStart => cases shut
  | _ => exact absurd shut (Nat.ne_of_gt inside)

namespace Canvas

theorem ChangedInBatch.inside {canvas : Canvas} {events : List Event} (changed : canvas.ChangedInBatch events) :
    0 < openBatches events := by
  obtain ⟨moment, listed, -, still⟩ := changed
  have past : moment.1 ++ [moment.2] <+: events := mem_withPast_iff.1 listed
  refine still events ((List.mem_inits _ _).2 (List.prefix_refl _)) ?_
  simpa [Nat.succ_le_iff] using past.length_le

theorem changedInBatch_concat (canvas : Canvas) (before : List Event) (event : Event) :
    canvas.ChangedInBatch (before ++ [event]) ↔
      0 < openBatches (before ++ [event]) ∧ (canvas.ChangedInBatch before ∨ canvas.Changes before event) := by
  constructor
  · intro changed
    refine ⟨changed.inside, ?_⟩
    obtain ⟨moment, listed, change, still⟩ := changed
    rw [withPast_concat] at listed
    rcases List.mem_append.1 listed with older | last
    · refine .inl ⟨moment, older, change, ?_⟩
      intro later early
      exact still later ((List.mem_inits _ _).2 (((List.mem_inits _ _).1 early).trans (List.prefix_append _ _)))
    · cases List.mem_singleton.1 last
      exact .inr change
  · intro now
    obtain ⟨inside, earlier | last⟩ := now
    · obtain ⟨moment, listed, change, still⟩ := earlier
      refine ⟨moment, by simp [listed], change, ?_⟩
      intro later early past
      rcases List.prefix_concat_iff.1 ((List.mem_inits _ _).1 early) with rfl | early
      · exact inside
      · exact still later ((List.mem_inits _ _).2 early) past
    · refine ⟨(before, event), by simp, last, ?_⟩
      intro later early past
      rcases List.prefix_concat_iff.1 ((List.mem_inits _ _).1 early) with rfl | early
      · exact inside
      · exact absurd early.length_le (Nat.not_le.2 past)

-- Steps

theorem announce_inside {canvas : Canvas} (inside : 0 < canvas.batches) :
    canvas.announce = { canvas with unannounced := true } := by
  simp [announce, inBatch, inside]

theorem announce_outside {canvas : Canvas} (outside : canvas.batches = 0) :
    canvas.announce = { canvas with unannounced := false, announcements := canvas.announcements + 1 } := by
  simp [announce, inBatch, outside]

-- Whatever is changed, the change is announced last.
theorem apply_announced {canvas : Canvas} {event : Event} (plain : event.isMarker = false)
    (done : (canvas.apply event).2 = .done) :
    ∃ drawn : Canvas, (canvas.apply event).1 = drawn.announce ∧ drawn.batches = canvas.batches ∧
      drawn.announcements = canvas.announcements := by
  cases event with
  | batchStart => cases plain
  | batchEnd => cases plain
  | setLayout layout direction attrs => exact ⟨_, rfl, rfl, rfl⟩
  | addNode node =>
    simp only [apply, addNode] at done ⊢
    split at done
    · cases done
    · rename_i fresh
      rw [if_neg fresh]
      exact ⟨_, rfl, rfl, rfl⟩
  | updateNode id change =>
    simp only [apply, updateNode] at done ⊢
    split at done
    · cases done
    · exact ⟨_, rfl, rfl, rfl⟩
  | addEdge edge =>
    simp only [apply, addEdge] at done ⊢
    split at done
    · cases done
    · rename_i fresh
      rw [if_neg fresh]
      split at done
      · cases done
      · rename_i source
        rw [if_neg source]
        split at done
        · cases done
        · rename_i target
          rw [if_neg target]
          exact ⟨_, rfl, rfl, rfl⟩

theorem endBatch_inner {canvas : Canvas} {outer : Nat} (batches : canvas.batches = outer + 2) :
    canvas.endBatch.1 = { canvas with batches := outer + 1 } := by
  simp [endBatch, batches]

theorem endBatch_outermost {canvas : Canvas} (batches : canvas.batches = 1) :
    canvas.endBatch.1 =
      { canvas with
        batches := 0, unannounced := false
        announcements := canvas.announcements + if canvas.unannounced then 1 else 0 } := by
  cases pending : canvas.unannounced with
  | false => simp [endBatch, batches, pending]
  | true => simp [endBatch, batches, pending, announce, inBatch]

-- What is to be announced in the course of these events.
def due (start : Canvas) (events : List Event) : Nat :=
  (withPast events).countP (fun moment => start.ChangesAlone moment.1 moment.2) +
    (withPast events).countP fun moment => start.EndsChanged moment.1 moment.2

theorem due_concat (start : Canvas) (before : List Event) (event : Event) :
    start.due (before ++ [event]) =
      start.due before + if start.ChangesAlone before event ∨ start.EndsChanged before event then 1 else 0 := by
  -- An event is not announced twice, as the end of a batch is no change.
  have either : ¬(start.ChangesAlone before event ∧ start.EndsChanged before event) := by
    intro both
    obtain ⟨alone, rfl, -⟩ := both
    cases alone.2.1
  simp only [due, withPast_concat, List.countP_append, List.countP_singleton, decide_eq_true_eq]
  by_cases alone : start.ChangesAlone before event
  · have other : ¬start.EndsChanged before event := fun ends => either ⟨alone, ends⟩
    simp only [alone, other, if_true, if_false, true_or]
    omega
  · simp only [alone, if_false, false_or]
    omega

-- What a canvas recalls of the events that came since the start.
structure Recalls (canvas start : Canvas) (events : List Event) : Prop where
  batches : canvas.batches = openBatches events
  unannounced : canvas.unannounced = true ↔ start.ChangedInBatch events
  announcements : canvas.announcements = start.due events

-- It is enough to see what the last event made of it.
theorem Recalls.concat {canvas after start : Canvas} {events : List Event} {event : Event}
    (recalls : Recalls canvas start events) (batches : after.batches = openBatches (events ++ [event]))
    (unannounced : after.unannounced = true ↔
      0 < openBatches (events ++ [event]) ∧ (start.ChangedInBatch events ∨ start.Changes events event))
    (announcements : after.announcements = canvas.announcements +
      if start.ChangesAlone events event ∨ start.EndsChanged events event then 1 else 0) :
    Recalls after start (events ++ [event]) := by
  refine ⟨batches, unannounced.trans (changedInBatch_concat ..).symm, ?_⟩
  rw [announcements, recalls.announcements, due_concat]

section
variable {start : Canvas} {events : List Event}

theorem Recalls.plain (recalls : Recalls (start.applyAll events).1 start events) {event : Event}
    (plain : event.isMarker = false) :
    Recalls ((start.applyAll events).1.apply event).1 start (events ++ [event]) := by
  have same := openBatches_plain plain events
  have unmarked : ¬start.EndsChanged events event := by
    intro ends
    obtain ⟨rfl, -⟩ := ends
    cases plain
  by_cases done : ((start.applyAll events).1.apply event).2 = .done
  · have change : start.Changes events event := ⟨plain, done⟩
    obtain ⟨drawn, whole, batches, announcements⟩ := apply_announced plain done
    rw [recalls.batches] at batches
    rw [whole]
    by_cases inside : 0 < openBatches events
    · rw [announce_inside (batches ▸ inside)]
      refine recalls.concat (batches.trans same.symm) ?_ ?_
      · simp [same, inside, change]
      · have shared : ¬start.ChangesAlone events event := fun alone => Nat.ne_of_gt inside alone.1
        simp [shared, unmarked, announcements]
    · have outside : openBatches events = 0 := Nat.eq_zero_of_not_pos inside
      rw [announce_outside (batches.trans outside)]
      refine recalls.concat (batches.trans same.symm) ?_ ?_
      · simp [same, outside]
      · have alone : start.ChangesAlone events event := ⟨outside, change⟩
        simp [alone, announcements]
  · have refused : ¬start.Changes events event := fun change => done change.2
    have alone : ¬start.ChangesAlone events event := fun alone => refused alone.2
    rw [apply_refused done]
    refine recalls.concat (recalls.batches.trans same.symm) ?_ ?_
    · rw [recalls.unannounced, same]
      exact ⟨fun changed => ⟨changed.inside, .inl changed⟩, fun now => now.2.resolve_right refused⟩
    · simp [alone, unmarked]

theorem Recalls.begins (recalls : Recalls (start.applyAll events).1 start events) :
    Recalls ((start.applyAll events).1.apply .batchStart).1 start (events ++ [.batchStart]) := by
  have marker : ¬start.Changes events .batchStart := fun change => by cases change.1
  have alone : ¬start.ChangesAlone events .batchStart := fun alone => marker alone.2
  have other : ¬start.EndsChanged events .batchStart := fun ends => by cases ends.1
  have batches : openBatches (events ++ [.batchStart]) = openBatches events + 1 := openBatches_concat ..
  refine recalls.concat ?_ ?_ ?_
  · rw [batches, ← recalls.batches]
    rfl
  · rw [batches, or_iff_left marker, and_iff_right (Nat.succ_pos _)]
    exact recalls.unannounced
  · simp [alone, other, apply]

-- Only the end of an outermost batch can make a difference to what is announced.
theorem Recalls.ends (recalls : Recalls (start.applyAll events).1 start events) :
    Recalls ((start.applyAll events).1.apply .batchEnd).1 start (events ++ [.batchEnd]) := by
  have marker : ¬start.Changes events .batchEnd := fun change => by cases change.1
  have alone : ¬start.ChangesAlone events .batchEnd := fun alone => marker alone.2
  have batches : openBatches (events ++ [.batchEnd]) = openBatches events - 1 := openBatches_concat ..
  match depth : openBatches events with
  | 0 =>
    have stray : ((start.applyAll events).1.apply .batchEnd).2 ≠ .done := by
      simp [apply, endBatch, recalls.batches, depth]
    have unchanged : ¬start.ChangedInBatch events := fun changed => by
      have inside := changed.inside
      omega
    have quiet : ¬start.EndsChanged events .batchEnd := fun ends => unchanged ends.2.2
    rw [apply_refused stray]
    refine recalls.concat ?_ ?_ ?_
    · rw [recalls.batches, batches, depth]
    · simp [recalls.unannounced, unchanged, marker]
    · simp [alone, quiet]
  | 1 =>
    have outermost := endBatch_outermost (recalls.batches.trans depth)
    have ends : start.EndsChanged events .batchEnd ↔ (start.applyAll events).1.unannounced = true := by
      simp [EndsChanged, depth, recalls.unannounced]
    rw [apply, outermost]
    refine recalls.concat ?_ ?_ ?_
    · simp [batches, depth]
    · simp [batches, depth]
    · simp [alone, ends]
  | outer + 2 =>
    have inner := endBatch_inner (recalls.batches.trans depth)
    have quiet : ¬start.EndsChanged events .batchEnd := fun ends => by
      have outermost := ends.2.1
      omega
    rw [apply, inner]
    refine recalls.concat ?_ ?_ ?_
    · simp [batches, depth]
    · simpa [batches, depth, marker] using recalls.unannounced
    · simp [alone, quiet]

theorem Recalls.apply (recalls : Recalls (start.applyAll events).1 start events) (event : Event) :
    Recalls ((start.applyAll events).1.apply event).1 start (events ++ [event]) := by
  cases event with
  | batchStart => exact recalls.begins
  | batchEnd => exact recalls.ends
  | _ => exact recalls.plain rfl

end

theorem applyAll_concat (canvas : Canvas) (events : List Event) (event : Event) :
    (canvas.applyAll (events ++ [event])).1 = ((canvas.applyAll events).1.apply event).1 := by
  rw [applyAll_append]
  rfl

theorem applyAll_recalls (name : String) (format : Option String) (events : List Event) :
    Recalls ((blank name format).applyAll events).1 (blank name format) events := by
  induction events using List.reverseRecOn with
  | nil =>
    refine ⟨rfl, iff_of_false ?_ ?_, rfl⟩
    · exact Bool.false_ne_true
    · exact fun changed => absurd changed.inside (Nat.lt_irrefl 0)
  | append_singleton before event ih =>
    rw [applyAll_concat]
    exact ih.apply event

-- Every run

section
variable {name : String} {format : Option String}

theorem announcements_concat (events : List Event) (event : Event) :
    ((blank name format).applyAll (events ++ [event])).1.announcements =
      ((blank name format).applyAll events).1.announcements +
        if (blank name format).ChangesAlone events event ∨ (blank name format).EndsChanged events event then 1
        else 0 := by
  rw [(applyAll_recalls name format _).announcements, (applyAll_recalls name format events).announcements, due_concat]

theorem announcements_inside {events : List Event} {event : Event} (inside : 0 < openBatches (events ++ [event])) :
    ((blank name format).applyAll (events ++ [event])).1.announcements =
      ((blank name format).applyAll events).1.announcements := by
  have silent : ¬((blank name format).ChangesAlone events event ∨ (blank name format).EndsChanged events event) := by
    intro told
    rcases told with ⟨outside, plain, -⟩ | ⟨rfl, outermost, -⟩
    · rw [openBatches_plain plain, outside] at inside
      exact Nat.lt_irrefl 0 inside
    · rw [openBatches_concat, outermost] at inside
      exact Nat.lt_irrefl 0 inside
  rw [announcements_concat, if_neg silent]
  rfl

theorem announcements_mono {earlier later : List Event} (past : earlier <+: later) :
    ((blank name format).applyAll earlier).1.announcements ≤ ((blank name format).applyAll later).1.announcements := by
  induction later using List.reverseRecOn with
  | nil => rw [List.prefix_nil.1 past]
  | append_singleton before event ih =>
    rcases List.prefix_concat_iff.1 past with rfl | past
    · exact Nat.le_refl _
    · rw [announcements_concat]
      exact Nat.le_trans (ih past) (Nat.le_add_right _ _)

-- A change waits for its announcement only as long as its batch is open.
theorem announcements_after {before events : List Event} {event : Event}
    (change : (blank name format).Changes before event) (past : before ++ [event] <+: events) :
    (blank name format).ChangedInBatch events ∨
      ((blank name format).applyAll before).1.announcements < ((blank name format).applyAll events).1.announcements := by
  induction events using List.reverseRecOn with
  | nil => simp at past
  | append_singleton events last ih =>
    rw [changedInBatch_concat, announcements_concat]
    rcases List.prefix_concat_iff.1 past with same | past
    · obtain ⟨rfl, rfl⟩ := List.append_singleton_inj.1 same
      by_cases inside : 0 < openBatches before
      · exact .inl ⟨by rwa [openBatches_plain change.1], .inr change⟩
      · have alone : (blank name format).ChangesAlone before event := ⟨Nat.eq_zero_of_not_pos inside, change⟩
        exact .inr (by simp [alone])
    · have grew : ((blank name format).applyAll before).1.announcements ≤
          ((blank name format).applyAll events).1.announcements :=
        announcements_mono ((List.prefix_append before [event]).trans past)
      rcases ih past with waiting | already
      · by_cases inside : 0 < openBatches (events ++ [last])
        · exact .inl ⟨inside, .inl waiting⟩
        · obtain ⟨rfl, outermost⟩ := openBatches_shut waiting.inside (Nat.eq_zero_of_not_pos inside)
          have ends : (blank name format).EndsChanged events .batchEnd := ⟨rfl, outermost, waiting⟩
          rw [if_pos (.inr ends)]
          exact .inr (Nat.lt_succ_of_le grew)
      · exact .inr (Nat.lt_of_lt_of_le already (Nat.le_add_right _ _))

end

theorem applyAll_announces (events : List Event) (name : String) (format : Option String) :
    let start := blank name format
    let announced (events : List Event) := (start.applyAll events).1.announcements
    (start.applyAll events).1.batches = openBatches events ∧
      announced events =
        (withPast events).countP (fun moment => start.ChangesAlone moment.1 moment.2) +
          (withPast events).countP (fun moment => start.EndsChanged moment.1 moment.2) ∧
      (∀ event, 0 < openBatches (events ++ [event]) → announced (events ++ [event]) = announced events) ∧
      ∀ before event, start.Changes before event → before ++ [event] <+: events → openBatches events = 0 →
        announced before < announced events := by
  intro start announced
  have recalls := applyAll_recalls name format events
  refine ⟨recalls.batches, recalls.announcements, fun event inside => announcements_inside inside, ?_⟩
  intro before event change past shut
  rcases announcements_after change past with waiting | told
  · exact absurd waiting.inside (by omega)
  · exact told

-- A stray end, a change outside, one in a batch within a batch, and a batch in which everything is refused.
theorem applyAll_announces_nested :
    let node (id : String) : Node := ⟨id, genericKind, id, Table.empty⟩
    let events : List Event :=
      [.batchEnd, .addNode (node "a"), .batchStart, .batchStart, .addNode (node "b"), .batchEnd, .batchEnd,
        .batchStart, .addNode (node "a"), .batchEnd]
    let announced (events : List Event) := ((blank "" none).applyAll events).1.announcements
    announced events = 2 ∧ announced (events ++ [.batchStart]) = announced events ∧
      announced (events.take 4) < announced events := by
  intro node events announced
  obtain ⟨-, count, silent, told⟩ := applyAll_announces events "" none
  refine ⟨count.trans (by decide), silent .batchStart (by decide), ?_⟩
  exact told (events.take 4) (.addNode (node "b")) (by decide) (by decide) (by decide)

end Canvas
end DiagramStream
