import Mathlib.Data.List.Induction
import DiagramStream.Narration.Graph

/-!
Edges that repeat an earlier one. Main statement: whatever edges are added, a strict graph holds those that the
same graph holds when it is not strict, without the ones that repeat an earlier one and numbered anew.
-/

namespace DiagramStream

namespace Edge

def ends (edge : Edge) : String × String := (edge.source, edge.target)

-- Where edges have no direction, one that goes the other way connects the same two nodes.
def connects (directed : Bool) (source target : String) (edge : Edge) : Bool :=
  edge.ends = (source, target) || (!directed && edge.ends = (target, source))

theorem connects_trans {directed : Bool} {source target : String} {one other : Edge}
    (same : other.connects directed one.source one.target = true)
    (connects : one.connects directed source target = true) :
    other.connects directed source target = true := by
  simp only [Edge.connects, ends, Bool.or_eq_true, Bool.and_eq_true, Bool.not_eq_true', decide_eq_true_eq,
    Prod.mk.injEq] at same connects ⊢
  rcases connects with ⟨rfl, rfl⟩ | ⟨loose, rfl, rfl⟩
  · exact same
  · rcases same with forth | ⟨-, back⟩
    · exact .inr ⟨loose, forth⟩
    · exact .inl back

end Edge

-- Edges that repeat no earlier one.
def unrepeated (directed : Bool) (edges : List Edge) : List Edge :=
  (edges.zipIdx.filter fun entry =>
    !(edges.take entry.2).any (Edge.connects directed entry.1.source entry.1.target)).map Prod.fst

def renumbered (edges : List Edge) : List Edge :=
  edges.mapIdx fun index edge => { edge with id := "edge-" ++ toString (index + 1) }

@[simp] theorem unrepeated_nil (directed : Bool) : unrepeated directed [] = [] := rfl

theorem unrepeated_concat (directed : Bool) (edges : List Edge) (edge : Edge) :
    unrepeated directed (edges ++ [edge]) =
      unrepeated directed edges ++
        if edges.any (Edge.connects directed edge.source edge.target) then [] else [edge] := by
  have earlier : ∀ entry ∈ edges.zipIdx, (edges ++ [edge]).take entry.2 = edges.take entry.2 := by
    intro entry member
    exact List.take_append_of_le_length (Nat.le_of_lt (List.mem_zipIdx' member).1)
  unfold unrepeated
  rw [List.zipIdx_append, List.filter_append, List.map_append]
  congr 1
  · refine congrArg (List.map Prod.fst) (List.filter_congr ?_)
    intro entry member
    rw [earlier entry member]
  · cases known : edges.any (Edge.connects directed edge.source edge.target) <;> simp [known]

-- Of every two nodes that are connected some edge is left.
theorem unrepeated_any (directed : Bool) (edges : List Edge) (source target : String) :
    (unrepeated directed edges).any (Edge.connects directed source target) =
      edges.any (Edge.connects directed source target) := by
  induction edges using List.reverseRecOn with
  | nil => rfl
  | append_singleton edges edge ih =>
    rw [unrepeated_concat, List.any_append, List.any_append, ih]
    split
    · rename_i repeated
      obtain ⟨other, listed, same⟩ := List.any_eq_true.1 repeated
      cases connects : edge.connects directed source target with
      | false => simp [connects]
      | true =>
        have known : edges.any (Edge.connects directed source target) = true :=
          List.any_eq_true.2 ⟨other, listed, Edge.connects_trans same connects⟩
        simp [known]
    · rfl

theorem renumbered_concat (edges : List Edge) (edge : Edge) :
    renumbered (edges ++ [edge]) =
      renumbered edges ++ [{ edge with id := "edge-" ++ toString (edges.length + 1) }] := by
  simp [renumbered, List.mapIdx_append]

@[simp] theorem renumbered_length (edges : List Edge) : (renumbered edges).length = edges.length := by
  simp [renumbered]

-- Numbers do not say what an edge connects.
theorem renumbered_any (directed : Bool) (edges : List Edge) (source target : String) :
    (renumbered edges).any (Edge.connects directed source target) =
      edges.any (Edge.connects directed source target) := by
  induction edges using List.reverseRecOn with
  | nil => rfl
  | append_singleton edges edge ih =>
    rw [renumbered_concat, List.any_append, List.any_append, ih]
    rfl

-- Adding edges

-- What is held of the edges in a graph, against the same graph when it is not strict.
structure GraphPart.Thins (strict : Bool) (graph loose : GraphPart) : Prop where
  flag : graph.strict = strict
  free : loose.strict = false
  count : graph.edgeCount = graph.edges.length
  counted : loose.edgeCount = loose.edges.length
  joined : graph.joined = if strict then (graph.edges.map Edge.ends).reverse else []
  edges : graph.edges = if strict then renumbered (unrepeated graph.directed loose.edges) else loose.edges

-- Nodes and the end of the graph do not matter for its edges.
theorem GraphPart.Thins.alter {strict : Bool} {graph loose : GraphPart} (thins : graph.Thins strict loose)
    (nodes : Table Node) (closed : Bool) : { graph with nodes := nodes, closed := closed }.Thins strict loose :=
  ⟨thins.flag, thins.free, thins.count, thins.counted, thins.joined, thins.edges⟩

namespace Narration

theorem isJoined_thins {graph loose : GraphPart} (thins : graph.Thins true loose) (source target : String) :
    isJoined graph source target = loose.edges.any (Edge.connects graph.directed source target) := by
  have joined : graph.joined = (graph.edges.map Edge.ends).reverse := thins.joined
  have edges : graph.edges = renumbered (unrepeated graph.directed loose.edges) := thins.edges
  have listed (pair : String × String) : graph.joined.contains pair = graph.edges.any fun edge => edge.ends = pair := by
    rw [joined, Bool.eq_iff_iff]
    simp
  rw [← unrepeated_any, ← renumbered_any, ← edges, isJoined, listed, listed, Bool.eq_iff_iff]
  cases graph.directed <;> simp [List.any_eq_true, Edge.connects, and_or_left, exists_or]

theorem addEdge_thins {strict : Bool} {graph loose : GraphPart} (thins : graph.Thins strict loose)
    (label : Option String) (base : Attrs) (source target : EdgeEnd) :
    (addEdge graph label base source target).Thins strict (addEdge loose label base source target) := by
  obtain ⟨flag, free, count, counted, joined, edges⟩ := thins
  cases strict with
  | false =>
    have same : graph.edgeCount = loose.edgeCount := by
      rw [count, counted, show graph.edges = loose.edges from edges]
    simp only [addEdge, flag, free, Bool.false_and, Bool.false_eq_true, if_false]
    refine ⟨rfl, rfl, by simp [count], by simp [counted], joined, ?_⟩
    simp [show graph.edges = loose.edges from edges, same]
  | true =>
    have known := isJoined_thins ⟨flag, free, count, counted, joined, edges⟩ source.1 target.1
    have edges : graph.edges = renumbered (unrepeated graph.directed loose.edges) := edges
    simp only [addEdge, flag, free, known, Bool.false_and, Bool.true_and, Bool.false_eq_true, if_false]
    split
    · rename_i repeated
      refine ⟨flag, rfl, count, by simp [counted], joined, ?_⟩
      simp [unrepeated_concat, repeated, edges]
    · rename_i fresh
      refine ⟨rfl, rfl, by simp [count], by simp [counted], ?_, ?_⟩
      · have joined : graph.joined = (graph.edges.map Edge.ends).reverse := joined
        simp [joined, Edge.ends]
      · have length : graph.edgeCount = (unrepeated graph.directed loose.edges).length := by
          rw [count, edges, renumbered_length]
        simp [unrepeated_concat, fresh, renumbered_concat, edges, length]

theorem addEdges_thins {strict : Bool} {graph loose : GraphPart} (thins : graph.Thins strict loose)
    (label : Option String) (base : Attrs) (pairs : List (EdgeEnd × EdgeEnd)) :
    (pairs.foldl (fun graph pair => addEdge graph label base pair.1 pair.2) graph).Thins strict
      (pairs.foldl (fun graph pair => addEdge graph label base pair.1 pair.2) loose) := by
  induction pairs generalizing graph loose with
  | nil => exact thins
  | cons pair rest ih => exact ih (addEdge_thins thins label base pair.1 pair.2)

end Narration
end DiagramStream
