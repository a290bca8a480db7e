import DiagramStream.Proofs.Audit.Remarks

/-!
Which streams the audit passes. Main statement: exactly those whose markers come in pairs, whose layout hints
come first, which add each node once and before it is used, and whose messages are numbered from one.
-/

namespace DiagramStream

-- The numbers from one on.
def numbersUpTo (count : Nat) : List Int := (List.range count).map fun (number : Nat) => (number : Int) + 1

-- What a stream is to be, as a whole.
structure WellFormed (events : List Event) : Prop where
  markers : ∃ count, markers events = batchPairs count
  layouts : ∀ before layout direction attrs after, events = before ++ .setLayout layout direction attrs :: after →
    ∀ earlier ∈ before, earlier.draws = false
  nodes : (nodeIds events).Nodup
  updates : ∀ before id change after, events = before ++ .updateNode id change :: after → id ∈ nodeIds before
  ends : ∀ before edge after, events = before ++ .addEdge edge :: after →
    edge.source ∈ nodeIds before ∧ edge.target ∈ nodeIds before
  numbers : ∃ count, numbersOf events = numbersUpTo count

-- What an event needs of those before it.
def Event.Due (before : List Event) : Event → Prop
  | .batchStart => batchOpenAfter before = false
  | .batchEnd => batchOpenAfter before = true
  | .setLayout .. => drawn before = false
  | .addNode node => node.id ∉ nodeIds before
  | .updateNode id _ => id ∈ nodeIds before
  | .addEdge edge => (edge.source ∈ nodeIds before ∧ edge.target ∈ nodeIds before) ∧
    ∀ number, edge.sequence = some number → number = highest before + 1

namespace Audit

theorem remarksOnEnd_fine_iff {before : List Event} {role : Role} {id edge : String} :
    (∀ finding ∈ remarksOnEnd before role id edge, finding.severity ≠ .error) ↔ id ∈ nodeIds before := by
  simp [remarksOnEnd, Finding.severity]

theorem remarksOnNumber_fine_iff {before : List Event} {edge : Edge} :
    (∀ finding ∈ remarksOnNumber before edge, finding.severity ≠ .error) ↔
      ∀ number, edge.sequence = some number → number = highest before + 1 := by
  unfold remarksOnNumber
  cases edge.sequence <;> simp [Finding.severity]

theorem remarks_fine_iff {before : List Event} {event : Event} :
    (∀ finding ∈ remarks before event, finding.severity ≠ .error) ↔ event.Due before := by
  cases event with
  | addEdge edge =>
    have same : ∀ finding ∈ (if edge.source = edge.target
        then [Finding.selfEdge before.length edge.source edge.id] else []), finding.severity ≠ .error := by
      simp [Finding.severity]
    simp only [remarks, List.forall_mem_append, remarksOnEnd_fine_iff, remarksOnNumber_fine_iff, Event.Due]
    exact and_congr_left fun _ => and_iff_left same
  | _ => simp [remarks, Event.Due, Finding.severity]

theorem ofEvents_fine_iff {events : List Event} :
    (∀ finding ∈ ofEvents events, finding.severity ≠ .error) ↔
      Everywhere (fun before event => event.Due before) events ∧ batchOpenAfter events = false := by
  rw [forall_ofEvents_iff fun _ _ harmless => harmless]
  simp only [remarks_fine_iff]
  exact and_congr_right fun _ => by simp [Finding.severity]

theorem isValid_iff (findings : List Finding) :
    isValid findings = true ↔ ∀ finding ∈ findings, finding.severity ≠ .error := by
  simp [isValid, count]

end Audit

-- Markers

theorem batchOpenAfter_iff (events : List Event) :
    batchOpenAfter events = true ↔ ∃ earlier, markers events = earlier ++ [.batchStart] := by
  rw [batchOpenAfter, decide_eq_true_eq, List.getLast?_eq_some_iff]

-- A marker answers the one before it.
def Event.Alternates (before : List Event) (event : Event) : Prop :=
  (event = .batchStart → batchOpenAfter before = false) ∧ (event = .batchEnd → batchOpenAfter before = true)

theorem markers_of_alternates {events : List Event}
    (all : Everywhere (fun before event => event.Alternates before) events) :
    ∃ count, markers events = batchPairs count ++ if batchOpenAfter events then [.batchStart] else [] := by
  induction events using List.reverseRecOn with
  | nil => exact ⟨0, rfl⟩
  | append_singleton before event ih =>
    obtain ⟨earlier, starts, ends⟩ := everywhere_concat.1 all
    obtain ⟨count, shape⟩ := ih earlier
    rw [batchOpenAfter_concat, markers_append, markers_singleton, shape]
    cases event with
    | batchStart => exact ⟨count, by simp [starts rfl, Event.isMarker]⟩
    | batchEnd => exact ⟨count + 1, by simp [ends rfl, Event.isMarker, batchPairs_succ]⟩
    | _ => exact ⟨count, by simp [Event.isMarker]⟩

theorem alternates_iff (events : List Event) :
    Everywhere (fun before event => event.Alternates before) events ∧ batchOpenAfter events = false ↔
      ∃ count, markers events = batchPairs count := by
  constructor
  · rintro ⟨all, closed⟩
    obtain ⟨count, shape⟩ := markers_of_alternates all
    exact ⟨count, by simpa [closed] using shape⟩
  · rintro ⟨count, pairs⟩
    refine ⟨?_, ?_⟩
    · rintro before event after rfl
      rw [List.append_cons, List.append_assoc, markers_append, markers_append, markers_singleton] at pairs
      refine ⟨?_, ?_⟩
      · rintro rfl
        refine Bool.eq_false_iff.2 fun opened => ?_
        obtain ⟨earlier, shape⟩ := (batchOpenAfter_iff _).1 opened
        rw [shape, List.append_assoc] at pairs
        obtain ⟨rest, other⟩ := batchEnd_follows pairs
        cases (List.cons.inj other).1
      · rintro rfl
        exact (batchOpenAfter_iff _).2 (batchStart_precedes pairs)
    · refine Bool.eq_false_iff.2 fun opened => ?_
      obtain ⟨earlier, shape⟩ := (batchOpenAfter_iff _).1 opened
      obtain ⟨rest, more⟩ := batchEnd_follows (shape.symm.trans pairs)
      cases more

-- Nodes

theorem fresh_iff_nodup (events : List Event) :
    Everywhere (fun before event => ∀ node, event = .addNode node → node.id ∉ nodeIds before) events ↔
      (nodeIds events).Nodup := by
  induction events using List.reverseRecOn with
  | nil => exact iff_of_true everywhere_nil List.nodup_nil
  | append_singleton before event ih =>
    rw [everywhere_concat, ih, nodeIds_append]
    cases event with
    | addNode node =>
      have ids : nodeIds [.addNode node] = [node.id] := rfl
      simp [ids, List.nodup_append, List.forall_mem_ne']
    | _ => simp [nodeIds, nodesOf]

-- Numbers

theorem numbersUpTo_succ (count : Nat) : numbersUpTo (count + 1) = numbersUpTo count ++ [(count : Int) + 1] := by
  simp [numbersUpTo, List.range_succ]

theorem highest_numbered {events : List Event} {count : Nat} (numbered : numbersOf events = numbersUpTo count) :
    highest events = count := by
  rw [highest, numbered]
  clear numbered
  induction count with
  | zero => rfl
  | succ count ih =>
    rw [numbersUpTo_succ, List.foldl_append, ih, List.foldl_cons, List.foldl_nil]
    omega

theorem numbers_iff (events : List Event) :
    Everywhere (fun before event =>
        ∀ edge number, event = .addEdge edge → edge.sequence = some number → number = highest before + 1) events ↔
      ∃ count, numbersOf events = numbersUpTo count := by
  induction events using List.reverseRecOn with
  | nil => exact iff_of_true everywhere_nil ⟨0, rfl⟩
  | append_singleton before event ih =>
    rw [everywhere_concat, ih, numbersOf_append]
    cases event with
    | addEdge edge =>
      cases given : edge.sequence with
      | none =>
        have none : numbersOf [.addEdge edge] = [] := by simp [numbersOf, edgesOf, given]
        rw [none, List.append_nil]
        refine and_iff_left ?_
        rintro _ number ⟨⟩ some
        cases given.symm.trans some
      | some number =>
        have one : numbersOf [.addEdge edge] = [number] := by simp [numbersOf, edgesOf, given]
        rw [one]
        constructor
        · rintro ⟨⟨count, numbered⟩, next⟩
          refine ⟨count + 1, ?_⟩
          rw [next edge number rfl given, highest_numbered numbered, numbered, numbersUpTo_succ]
        · rintro ⟨count, numbered⟩
          cases count with
          | zero => simp [numbersUpTo] at numbered
          | succ count =>
            rw [numbersUpTo_succ] at numbered
            obtain ⟨earlier, rfl⟩ := List.append_singleton_inj.1 numbered
            refine ⟨⟨count, earlier⟩, ?_⟩
            rintro _ other ⟨⟩ same
            rw [highest_numbered earlier]
            exact Option.some.inj (same.symm.trans given)
    | _ => simp [numbersOf, edgesOf]

-- The whole

theorem wellFormed_iff {events : List Event} :
    WellFormed events ↔ Everywhere (fun before event => event.Due before) events ∧ batchOpenAfter events = false := by
  constructor
  · intro formed
    obtain ⟨alternate, closed⟩ := (alternates_iff events).2 formed.markers
    refine ⟨?_, closed⟩
    intro before event after split
    cases event with
    | batchStart => exact (alternate before _ after split).1 rfl
    | batchEnd => exact (alternate before _ after split).2 rfl
    | setLayout layout direction attrs =>
      exact List.any_eq_false.2 fun earlier member =>
        by simp [formed.layouts before layout direction attrs after split earlier member]
    | addNode node => exact (fresh_iff_nodup events).2 formed.nodes before _ after split node rfl
    | updateNode id change => exact formed.updates before id change after split
    | addEdge edge =>
      refine ⟨formed.ends before edge after split, ?_⟩
      intro number given
      exact (numbers_iff events).2 formed.numbers before _ after split edge number rfl given
  · rintro ⟨due, closed⟩
    refine ⟨?_, ?_, ?_, ?_, ?_, ?_⟩
    · refine (alternates_iff events).1 ⟨due.imp ?_, closed⟩
      intro before event here
      refine ⟨?_, ?_⟩
      · rintro rfl; exact here
      · rintro rfl; exact here
    · intro before layout direction attrs after split earlier member
      have undrawn : drawn before = false := due before _ after split
      exact Bool.eq_false_iff.2 (List.any_eq_false.1 undrawn earlier member)
    · refine (fresh_iff_nodup events).1 (due.imp ?_)
      rintro before _ here node rfl
      exact here
    · intro before id change after split
      exact due before _ after split
    · intro before edge after split
      exact (due before _ after split).1
    · refine (numbers_iff events).1 (due.imp ?_)
      rintro before _ here edge number rfl given
      exact here.2 number given

theorem Audit.ofEvents_wellFormed (events : List Event) :
    ((∀ finding ∈ ofEvents events, finding.severity ≠ .error) ↔ WellFormed events) ∧
      ((summary (ofEvents events)).member? "valid" = some (.bool true) ↔ WellFormed events) := by
  have fine : (∀ finding ∈ ofEvents events, finding.severity ≠ .error) ↔ WellFormed events :=
    ofEvents_fine_iff.trans wellFormed_iff.symm
  have valid : (summary (ofEvents events)).member? "valid" = some (.bool (isValid (ofEvents events))) := rfl
  refine ⟨fine, ?_⟩
  rw [valid, Option.some.injEq, Json.bool.injEq, isValid_iff]
  exact fine

end DiagramStream
