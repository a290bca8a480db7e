import Mathlib.Data.List.Induction
import DiagramStream.Proofs.Graph.Copies

/-!
The attributes of the nodes of a graph, read off the statements. Main statement: under a key that no field of the node
takes, a node holds what was given last, whether a statement named it or a scope gave it.
-/

namespace DiagramStream

-- Scopes give to a node where it is new, or where it is stated in a subgraph.
def Placed.inherits (before : List Placed) (placed : Placed) (id : String) : Bool :=
  if placed.statement.states id then id ∉ refsOf before || 1 < (layersOf (before ++ [placed])).length
  else id ∈ placed.statement.refs && id ∉ refsOf before

-- What a statement names counts before what the scopes around it give.
def gives? (id key : String) (before : List Placed) (placed : Placed) : Option String :=
  (placed.statement.sets? id key).or
    (if placed.inherits before id then Layer.nodeAttr? (layersOf (before ++ [placed])) key else none)

def givings (statements : List Placed) (id key : String) : List String :=
  gather (fun before placed => (gives? id key before placed).toList) statements

namespace Narration

-- Both copies of a node hold under a key what was given last.
structure Given (id key : String) (narration : Narration) (before : List Placed) : Prop where
  listed : (narration.copies? id).bind (·.listed.attrs.get? key) = (givings before id key).getLast?
  held : (narration.copies? id).bind (·.held.attrs.get? key) = (givings before id key).getLast?

-- One statement gives at most one value, which takes the place of all before it.
theorem tell_gives {narration after : Narration} {before : List Placed} {placed : Placed} {id key : String}
    (given : Given id key narration before) (tallied : Tallied narration before) (layered : Layered narration before)
    (graph : placed.statement.ofGraph = true) (plain : key ∉ ["type", "label", "level", "layer", "kind"])
    (told : narration.tell placed = .ok after) :
    (after.copies? id).bind (·.listed.attrs.get? key) =
        (gives? id key before placed).or ((narration.copies? id).bind (·.listed.attrs.get? key)) ∧
      (after.copies? id).bind (·.held.attrs.get? key) =
        (gives? id key before placed).or ((narration.copies? id).bind (·.held.attrs.get? key)) := by
  have after_ := layered.tell tallied.held tallied.plain graph told
  have inherited := after_.nodeAttrs key
  have notField : key ∉ ["type", "label", "level", "layer"] := fun listed => plain (by simp_all)
  cases tell_fate tallied.held tallied.plain graph told id with
  | still other known same =>
    have silent : gives? id key before placed = none := by
      by_cases listed : id ∈ placed.statement.refs
      · simp [gives?, Statement.sets?_of_other other, Placed.inherits, other, tallied.seen (known listed)]
      · simp [gives?, Statement.sets?_of_other other, Placed.inherits, other, listed]
    rw [same, silent, Option.none_or, Option.none_or]
    exact ⟨rfl, rfl⟩
  | mentioned other listed unseen new =>
    have gives : gives? id key before placed = after.nesting.nodeAttrs.get? key := by
      simp [gives?, Statement.sets?_of_other other, Placed.inherits, other, listed, (tallied.copies? id).1 unseen,
        inherited]
    simp [new, unseen, gives, Copies.new]
  | @stated place node attrs own named readable unseen new =>
    have gives : gives? id key before ⟨place, .nodeStatement node attrs⟩ =
        (own.get? key).or (after.nesting.nodeAttrs.get? key) := by
      rw [inherited, ownAttrs_get? readable notField]
      simp [gives?, Statement.sets?, Statement.states, Placed.inherits, named, (tallied.copies? id).1 unseen]
    simp [new, unseen, gives, Copies.new, Table.get?_merge]
  | @restated place node attrs own copies named readable seen revised =>
    have same : copies.held.attrs.get? key = copies.listed.attrs.get? key := by
      simpa [seen] using given.held.trans given.listed.symm
    have gives : gives? id key before ⟨place, .nodeStatement node attrs⟩ =
        (if 1 < after.nesting.depth then after.nesting.nodeAttrs.merge own else own).get? key := by
      have known : id ∈ refsOf before := tallied.seen (by simp [seen])
      have own_ := ownAttrs_get? readable notField
      rw [after_.depth]
      by_cases nested : 1 < (layersOf (before ++ [⟨place, .nodeStatement node attrs⟩])).length <;>
        simp [gives?, Statement.sets?, Statement.states, Placed.inherits, named, known, nested, own_, inherited,
          Table.get?_merge]
    obtain ⟨listed, held⟩ := copies.restated_get? same (by simp_all) (by simp_all)
      ⟨id, attrs.get? "type", attrs.get? "label", none,
        if 1 < after.nesting.depth then after.nesting.nodeAttrs.merge own else own, place.line⟩
    simp [revised, seen, listed, held, gives, same]

-- Where a run stands, with its scopes and with what was given to a node.
structure Supplied (id key : String) (narration : Narration) (before : List Placed) : Prop where
  layered : Layered narration before
  given : Given id key narration before

theorem Supplied.tell {narration after : Narration} {before : List Placed} {placed : Placed} {id key : String}
    (supplied : Supplied id key narration before) (tallied : Tallied narration before)
    (graph : placed.statement.ofGraph = true) (plain : key ∉ ["type", "label", "level", "layer", "kind"])
    (told : narration.tell placed = .ok after) : Supplied id key after (before ++ [placed]) := by
  obtain ⟨listed, held⟩ := tell_gives supplied.given tallied supplied.layered graph plain told
  refine ⟨supplied.layered.tell tallied.held tallied.plain graph told, ?_, ?_⟩
  · rw [listed, supplied.given.listed]
    exact (getLast?_gather_concat ..).symm
  · rw [held, supplied.given.held]
    exact (getLast?_gather_concat ..).symm

theorem ofDocument_given {statements : List Placed} {batching : Batching} {narration : Narration}
    (graph : ∀ placed ∈ statements, placed.statement.ofGraph = true)
    (told : ofDocument ⟨.dot, statements⟩ batching = .ok narration) {key : String}
    (plain : key ∉ ["type", "label", "level", "layer", "kind"]) :
    (nodesOf narration.events).map Node.id = (refsOf statements).eraseDups ∧
      ∀ node ∈ nodesOf narration.events, node.attrs.get? key = (givings statements node.id key).getLast? := by
  have step : ∀ placed ∈ statements, ∀ before one other, Tallied one before → (∀ id, Supplied id key one before) →
      one.tell placed = .ok other → ∀ id, Supplied id key other (before ++ [placed]) :=
    fun placed member before one other tallied supplied told id =>
      (supplied id).tell tallied (graph placed member) plain told
  obtain ⟨last, tallied, supplied, rfl⟩ := ofDocument_reaches graph step (fun _ => ⟨rfl, rfl, rfl⟩) told
  dsimp only
  rw [nodesOf_account]
  refine ⟨?_, ?_⟩
  · rw [← tallied.keys, ← tallied.held.keys]
    exact Table.map_values tallied.held.own
  · intro node listed
    obtain ⟨member, -, copies⟩ := copies?_of_listed tallied.held listed
    simpa [copies] using (supplied node.id).given.held

end Narration

theorem givings_of_sets? {statements : List Placed} {id key : String}
    (named : ∃ placed ∈ statements, (placed.statement.sets? id key).isSome = true) : givings statements id key ≠ [] := by
  unfold givings
  induction statements using List.reverseRecOn with
  | nil => simp at named
  | append_singleton before placed ih =>
    rw [gather_concat]
    obtain ⟨other, member, sets⟩ := named
    rcases List.mem_append.1 member with earlier | last
    · exact List.append_ne_nil_of_left_ne_nil (ih ⟨other, earlier, sets⟩) _
    · rw [List.mem_singleton] at last
      subst last
      obtain ⟨value, sets⟩ := Option.isSome_iff_exists.1 sets
      simp [gives?, sets]

namespace Narration

theorem ofDocument_attrs {statements : List Placed} {batching : Batching} {narration : Narration}
    (graph : ∀ placed ∈ statements, placed.statement.ofGraph = true)
    (told : ofDocument ⟨.dot, statements⟩ batching = .ok narration) {id key : String}
    (plain : key ∉ ["type", "label", "level", "layer", "kind"])
    (named : ∃ placed ∈ statements, (placed.statement.sets? id key).isSome = true) :
    (∃ node ∈ nodesOf narration.events, node.id = id) ∧
      ∃ value, (givings statements id key).getLast? = some value ∧
        ∀ node ∈ nodesOf narration.events, node.id = id → node.attrs.get? key = some value := by
  obtain ⟨ids, given⟩ := ofDocument_given graph told plain
  refine ⟨?_, ?_⟩
  · obtain ⟨placed, member, sets⟩ := named
    have referred : id ∈ refsOf statements := List.mem_flatMap.2 ⟨placed, member, Statement.refs_of_sets? sets⟩
    rw [← List.mem_eraseDups, ← ids] at referred
    exact List.mem_map.1 referred
  · refine ⟨_, List.getLast?_eq_some_getLast (givings_of_sets? named), ?_⟩
    rintro node listed rfl
    rw [given node listed, List.getLast?_eq_some_getLast]

-- A node that takes its color from the scopes when an edge mentions it, and is given two others after that.
theorem ofDocument_attrs_restated :
    let color (name : String) : Attrs := Table.ofList [("color", name)]
    let statements : List Placed :=
      [⟨⟨1, 1⟩, .graphOpen true false none⟩, ⟨⟨2, 1⟩, .attrStatement "node" (color "red")⟩,
       ⟨⟨3, 1⟩, .edgeStatement [[⟨"a", none⟩], [⟨"b", none⟩]] ["->"] Table.empty⟩,
       ⟨⟨4, 1⟩, .nodeStatement ⟨"a", none⟩ (color "green")⟩, ⟨⟨5, 1⟩, .subgraphOpen none⟩,
       ⟨⟨6, 1⟩, .nodeStatement ⟨"a", none⟩ (color "blue")⟩, ⟨⟨7, 1⟩, .scopeClose [] [] Table.empty⟩,
       ⟨⟨8, 1⟩, .nodeStatement ⟨"a", none⟩ Table.empty⟩, ⟨⟨9, 1⟩, .scopeClose [] [] Table.empty⟩]
    (∀ placed ∈ statements, placed.statement.ofGraph = true) ∧ "color" ∉ ["type", "label", "level", "layer", "kind"] ∧
    (∃ placed ∈ statements, (placed.statement.sets? "a" "color").isSome = true) ∧
    ∃ narration, ofDocument ⟨.dot, statements⟩ .diagram = .ok narration ∧
      ∃ node ∈ nodesOf narration.events, node.id = "a" ∧ node.attrs.get? "color" = some "blue" := by
  intro color statements
  have graph : ∀ placed ∈ statements, placed.statement.ofGraph = true := by decide
  have named : ∃ placed ∈ statements, (placed.statement.sets? "a" "color").isSome = true := by decide
  have fine : ((ofDocument ⟨.dot, statements⟩ .diagram).toOption.bind fun _ => some ()) = some () := by decide +kernel
  obtain ⟨narration, told, -⟩ := ok_of_seen fine
  obtain ⟨⟨node, listed, id⟩, value, last, holds⟩ := ofDocument_attrs graph told (by decide) named
  refine ⟨graph, by decide, named, narration, told, node, listed, id, ?_⟩
  rw [holds node listed id, ← last]
  decide +kernel

-- In a subgraph a statement that does not name a color gives the one of the scope, whatever was named before.
theorem ofDocument_repainted :
    let color (name : String) : Attrs := Table.ofList [("color", name)]
    let statements : List Placed :=
      [⟨⟨1, 1⟩, .graphOpen true false none⟩, ⟨⟨1, 11⟩, .nodeStatement ⟨"a", none⟩ (color "red")⟩,
       ⟨⟨1, 25⟩, .subgraphOpen none⟩, ⟨⟨1, 36⟩, .attrStatement "node" (color "blue")⟩,
       ⟨⟨1, 54⟩, .nodeStatement ⟨"a", none⟩ Table.empty⟩, ⟨⟨1, 56⟩, .scopeClose [] [] Table.empty⟩,
       ⟨⟨1, 58⟩, .scopeClose [] [] Table.empty⟩]
    (∀ placed ∈ statements, placed.statement.ofGraph = true) ∧
    statements.filterMap (fun placed => placed.statement.sets? "a" "color") = ["red"] ∧
    ∃ narration, ofDocument ⟨.dot, statements⟩ .diagram = .ok narration ∧
      nodesOf narration.events = [⟨"a", "generic", "a", color "blue"⟩] := by
  refine ⟨by decide, by decide, _, rfl, by decide +kernel⟩

end Narration
end DiagramStream
