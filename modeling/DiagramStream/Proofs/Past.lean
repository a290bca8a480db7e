import Mathlib.Data.List.Induction

/-!
Lists whose items are seen together with those before them. Main statement: a list that grows by one item adds one view,
that of the new item with all the older ones as its past.
-/

namespace DiagramStream
variable {α : Type}

-- Each item after its past.
def withPast (items : List α) : List (List α × α) :=
  items.zipIdx.map fun entry => (items.take entry.2, entry.1)

@[simp] theorem withPast_nil : withPast ([] : List α) = [] := rfl

@[simp] theorem withPast_concat (before : List α) (item : α) :
    withPast (before ++ [item]) = withPast before ++ [(before, item)] := by
  have older : ∀ entry ∈ before.zipIdx, ((before ++ [item]).take entry.2, entry.1) = (before.take entry.2, entry.1) := by
    intro entry member
    rw [List.take_append_of_le_length (Nat.le_of_lt (List.mem_zipIdx' member).1)]
  unfold withPast
  rw [List.zipIdx_append, List.map_append, List.map_congr_left older]
  simp

theorem mem_withPast_iff {items before : List α} {item : α} :
    (before, item) ∈ withPast items ↔ before ++ [item] <+: items := by
  induction items using List.reverseRecOn with
  | nil => simp
  | append_singleton items last ih =>
    rw [withPast_concat, List.mem_append, ih, List.prefix_concat_iff, or_comm]
    refine or_congr_left ?_
    rw [List.mem_singleton, Prod.mk.injEq, List.append_singleton_inj]

end DiagramStream
