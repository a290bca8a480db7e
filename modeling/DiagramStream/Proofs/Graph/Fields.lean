import Mathlib.Data.List.Induction
import DiagramStream.Proofs.Graph.Copies

/-!
The kinds and labels of the nodes of a graph, read off the statements. Main statement: a node is told with the last label
and the last kind that were stated for it, unless something else by the name of the kind is set when it is there already.
-/

namespace DiagramStream
open Roster

-- The last text that node statements set for a node under a key. An empty one counts as none.
def lastGiven (id key : String) (statements : List Placed) : Option String :=
  (statements.filterMap fun placed => given (placed.statement.sets? id key)).getLast?

def kindOf (id : String) (statements : List Placed) : String := (lastGiven id "type" statements).getD genericKind

def labelOf (id : String) (statements : List Placed) : String := (lastGiven id "label" statements).getD id

-- The attribute that goes by the name of the kind.
def kindAttr? (id : String) (statements : List Placed) : Option String :=
  (statements.filterMap (·.statement.sets? id "kind")).getLast?

-- What a statement changes in the kind that a node is told with. Where the node is there already, only what is new is
-- looked at, and of that the attribute before the kind that was meant.
def kindNews? (id : String) (before : List Placed) (placed : Placed) : Option String :=
  if id ∈ refsOf before then
    ((placed.statement.sets? id "kind").filter (kindAttr? id before ≠ some ·)).or
      ((given (placed.statement.sets? id "type")).filter (· ≠ kindOf id before))
  else given (placed.statement.sets? id "type")

def toldKind (id : String) (statements : List Placed) : String :=
  (gather (fun before placed => (kindNews? id before placed).toList) statements).getLast?.getD genericKind

section
variable (id key : String) (before : List Placed) (placed : Placed)

theorem getLast?_filterMap_concat {α β : Type} (f : α → Option β) (items : List α) (last : α) :
    ((items ++ [last]).filterMap f).getLast? = (f last).or (items.filterMap f).getLast? := by
  cases value : f last <;> simp [value]

theorem kindOf_concat :
    kindOf id (before ++ [placed]) = (given (placed.statement.sets? id "type")).getD (kindOf id before) := by
  unfold kindOf lastGiven
  rw [getLast?_filterMap_concat, Option.getD_or]

theorem labelOf_concat :
    labelOf id (before ++ [placed]) = (given (placed.statement.sets? id "label")).getD (labelOf id before) := by
  unfold labelOf lastGiven
  rw [getLast?_filterMap_concat, Option.getD_or]

theorem kindAttr?_concat :
    kindAttr? id (before ++ [placed]) = (placed.statement.sets? id "kind").or (kindAttr? id before) :=
  getLast?_filterMap_concat _ _ _

theorem toldKind_concat :
    toldKind id (before ++ [placed]) = (kindNews? id before placed).getD (toldKind id before) := by
  unfold toldKind
  rw [getLast?_gather_concat, Option.getD_or]

end

-- As long as nothing else goes by its name, the kind is the one that was stated.
theorem toldKind_eq {id : String} {statements : List Placed}
    (alone : ∀ before placed rest, statements = before ++ placed :: rest → id ∈ refsOf before →
      placed.statement.sets? id "kind" = none) : toldKind id statements = kindOf id statements := by
  induction statements using List.reverseRecOn with
  | nil => rfl
  | append_singleton before placed ih =>
    have earlier := ih fun first one rest parts =>
      alone first one (rest ++ [placed]) (by rw [parts, List.append_assoc, List.cons_append])
    rw [toldKind_concat, kindOf_concat, earlier, kindNews?]
    split
    · rename_i known
      rw [alone before placed [] rfl known]
      cases given (placed.statement.sets? id "type") with
      | none => rfl
      | some kind => by_cases old : kind = kindOf id before <;> simp [Option.filter_some, old]
    · rfl

namespace Narration

-- A node against the statements on it.
structure Fielded (id : String) (narration : Narration) (before : List Placed) : Prop where
  kind : ((narration.copies? id).map (·.listed.kind)).getD genericKind = kindOf id before
  told : ((narration.copies? id).map (·.held.kind)).getD genericKind = toldKind id before
  label : ((narration.copies? id).map (·.listed.label)).getD id = labelOf id before
  held : ((narration.copies? id).map (·.held.label)).getD id = labelOf id before
  attr : (narration.copies? id).bind (·.listed.attrs.get? "kind") = kindAttr? id before

-- A statement that sets nothing for the node leaves it alone, or adds it with nothing known of it.
theorem Fielded.silent {id : String} {narration after : Narration} {before : List Placed} {placed : Placed}
    (fielded : Fielded id narration before) (silent : ∀ key, placed.statement.sets? id key = none)
    (becomes : after.copies? id = narration.copies? id ∨ ∃ attrs : Attrs, attrs.get? "kind" = none ∧
      narration.copies? id = none ∧ after.copies? id = some (.new ⟨id, genericKind, id, attrs⟩)) :
    Fielded id after (before ++ [placed]) := by
  have kind : kindOf id (before ++ [placed]) = kindOf id before := by simp [kindOf_concat, silent, given]
  have told : toldKind id (before ++ [placed]) = toldKind id before := by
    simp [toldKind_concat, kindNews?, silent, given]
  have label : labelOf id (before ++ [placed]) = labelOf id before := by simp [labelOf_concat, silent, given]
  have attr : kindAttr? id (before ++ [placed]) = kindAttr? id before := by simp [kindAttr?_concat, silent]
  obtain ⟨kind', told', label', held', attr'⟩ := fielded
  rcases becomes with same | ⟨attrs, plain, unseen, new⟩
  · exact ⟨same ▸ kind'.trans kind.symm, same ▸ told'.trans told.symm, same ▸ label'.trans label.symm,
      same ▸ held'.trans label.symm, same ▸ attr'.trans attr.symm⟩
  · rw [unseen] at kind' told' label' held' attr'
    refine ⟨?_, ?_, ?_, ?_, ?_⟩ <;> rw [new]
    · exact kind'.trans kind.symm
    · exact told'.trans told.symm
    · exact label'.trans label.symm
    · exact held'.trans label.symm
    · exact plain.trans (attr'.trans attr.symm)

theorem Fielded.tell {id : String} {narration after : Narration} {before : List Placed} {placed : Placed}
    (fielded : Fielded id narration before) (tallied : Tallied narration before)
    (generic : narration.roster.defaultKind = genericKind) (unreserved : after.nesting.nodeAttrs.Unreserved)
    (graph : placed.statement.ofGraph = true) (told : narration.tell placed = .ok after) :
    Fielded id after (before ++ [placed]) := by
  have noKind := (Table.get?_eq_none_iff _ _).2 unreserved.kind
  have noLabel := (Table.get?_eq_none_iff _ _).2 unreserved.label
  cases tell_fate tallied.held tallied.plain graph told id with
  | still other known same => exact fielded.silent (Statement.sets?_of_other other) (.inl same)
  | mentioned other listed unseen new =>
    exact fielded.silent (Statement.sets?_of_other other) (.inr ⟨_, noKind, unseen, generic ▸ new⟩)
  | @stated place node attrs own named readable unseen new =>
    have ownKind : own.get? "kind" = attrs.get? "kind" := ownAttrs_get? readable (by decide)
    have sets : ∀ key, (Statement.nodeStatement node attrs).sets? id key = attrs.get? key := fun key => if_pos named
    have absent := (tallied.copies? id).1 unseen
    obtain ⟨kind, held, label, heldLabel, attr⟩ := fielded
    simp only [unseen, Option.map_none, Option.getD_none, Option.bind_none] at kind held label heldLabel attr
    refine ⟨?_, ?_, ?_, ?_, ?_⟩ <;> rw [new]
    · simp [kindOf_concat, sets, ← kind, Copies.new, generic]
    · simp [toldKind_concat, kindNews?, absent, sets, ← held, Copies.new, generic]
    · simp [labelOf_concat, sets, ← label, Copies.new]
    · simp [labelOf_concat, sets, ← label, Copies.new]
    · simp [kindAttr?_concat, sets, ← attr, Copies.new, Table.get?_merge, noKind, ownKind]
  | @restated place node attrs own copies named readable seen revised =>
    have ownKind : own.get? "kind" = attrs.get? "kind" := ownAttrs_get? readable (by decide)
    have ownLabel : own.get? "label" = none := (Table.get?_eq_none_iff _ _).2 (ownAttrs_label readable)
    have sets : ∀ key, (Statement.nodeStatement node attrs).sets? id key = attrs.get? key := fun key => if_pos named
    have known : id ∈ refsOf before := tallied.seen (by simp [seen])
    generalize all_ : (if 1 < after.nesting.depth then after.nesting.nodeAttrs.merge own else own) = all at revised
    have allLabel : all.get? "label" = none := by
      rw [← all_]
      split <;> simp [Table.get?_merge, ownLabel, noLabel]
    have allKind : all.get? "kind" = attrs.get? "kind" := by
      rw [← all_]
      split <;> simp [Table.get?_merge, ownKind, noKind]
    obtain ⟨kind, held, label, heldLabel, attr⟩ := fielded
    simp only [seen, Option.map_some, Option.getD_some, Option.bind_some] at kind held label heldLabel attr
    obtain ⟨kind', held', label', heldLabel'⟩ := copies.restated_fields (heldLabel.trans label.symm)
      ⟨id, attrs.get? "type", attrs.get? "label", none, all, place.line⟩ allLabel
    refine ⟨?_, ?_, ?_, ?_, ?_⟩ <;> rw [revised]
    · simp [kindOf_concat, sets, ← kind, kind']
    · simp [toldKind_concat, kindNews?, known, sets, ← kind, ← held, ← attr, held', allKind]
    · simp [labelOf_concat, sets, ← label, label']
    · simp [labelOf_concat, sets, ← label, label', heldLabel']
    · simp [kindAttr?_concat, sets, ← attr, Copies.restated, revise_get?, allKind]

-- Where a run stands, with defaults that leave the fields of nodes alone.
structure Known (narration : Narration) (before : List Placed) : Prop where
  generic : narration.roster.defaultKind = genericKind
  free : DefaultsFree narration.nesting.frames
  fielded : ∀ id, Fielded id narration before

theorem Known.tell {narration after : Narration} {before : List Placed} {placed : Placed} (known : Known narration before)
    (tallied : Tallied narration before) (graph : placed.statement.ofGraph = true)
    (free : ∀ attrs, placed.statement = .attrStatement "node" attrs → attrs.Unreserved)
    (told : narration.tell placed = .ok after) : Known after (before ++ [placed]) := by
  have keeps : DefaultsKeep Table.Unreserved after.nesting.frames :=
    tell_defaultsKeep unreserved_carried tallied.held tallied.plain graph
      (fun attrs shape defaults unreserved => unreserved.merge (free attrs shape)) known.free told
  have unreserved := keeps.nodeAttrs unreserved_carried
  exact ⟨(tell_defaultKind tallied.held tallied.plain graph told).trans known.generic, keeps,
    fun id => (known.fielded id).tell tallied known.generic unreserved graph told⟩

theorem ofDocument_fields {statements : List Placed} {batching : Batching} {narration : Narration}
    (graph : ∀ placed ∈ statements, placed.statement.ofGraph = true)
    (free : ∀ placed ∈ statements, ∀ attrs, placed.statement = .attrStatement "node" attrs → attrs.Unreserved)
    (told : ofDocument ⟨.dot, statements⟩ batching = .ok narration) :
    ∀ node ∈ nodesOf narration.events,
      node.label = labelOf node.id statements ∧ node.kind = toldKind node.id statements ∧
      ((∀ before placed rest, statements = before ++ placed :: rest → node.id ∈ refsOf before →
        placed.statement.sets? node.id "kind" = none) → node.kind = kindOf node.id statements) ∧
      ∃ member, narration.roster.member? node.id = some member ∧
        member.node.kind = kindOf node.id statements ∧ member.node.label = labelOf node.id statements := by
  have step : ∀ placed ∈ statements, ∀ before one other, Tallied one before → Known one before →
      one.tell placed = .ok other → Known other (before ++ [placed]) :=
    fun placed member before one other tallied known told =>
      known.tell tallied (graph placed member) (free placed member) told
  obtain ⟨last, tallied, known, rfl⟩ := ofDocument_reaches graph step
    ⟨rfl, fun frame member => (nomatch member), fun id => ⟨rfl, rfl, rfl, rfl, rfl⟩⟩ told
  intro node listed
  rw [nodesOf_account] at listed
  obtain ⟨member, found, copies⟩ := copies?_of_listed tallied.held listed
  have fielded := known.fielded node.id
  have kind : member.node.kind = kindOf node.id statements := by simpa [copies] using fielded.kind
  have told : node.kind = toldKind node.id statements := by simpa [copies] using fielded.told
  have label : member.node.label = labelOf node.id statements := by simpa [copies] using fielded.label
  have held : node.label = labelOf node.id statements := by simpa [copies] using fielded.held
  exact ⟨held, told, fun alone => told.trans (toldKind_eq alone), member, found, kind, label⟩

-- A node that is declared in a subgraph once an edge has mentioned it, and again with an empty kind.
theorem ofDocument_fields_restated :
    let statements : List Placed :=
      [⟨⟨1, 1⟩, .graphOpen true false none⟩,
       ⟨⟨2, 1⟩, .attrStatement "node" (Table.ofList [("color", "red")])⟩,
       ⟨⟨3, 1⟩, .edgeStatement [[⟨"a", none⟩], [⟨"b", none⟩]] ["->"] Table.empty⟩, ⟨⟨4, 1⟩, .subgraphOpen none⟩,
       ⟨⟨5, 1⟩, .nodeStatement ⟨"a", none⟩ (Table.ofList [("type", "box"), ("label", "A"), ("level", "2")])⟩,
       ⟨⟨6, 1⟩, .scopeClose [] [] Table.empty⟩,
       ⟨⟨7, 1⟩, .nodeStatement ⟨"a", none⟩ (Table.ofList [("type", ""), ("label", "B")])⟩,
       ⟨⟨8, 1⟩, .scopeClose [] [] Table.empty⟩]
    (∀ placed ∈ statements, placed.statement.ofGraph = true) ∧
    (∀ placed ∈ statements, ∀ attrs, placed.statement = .attrStatement "node" attrs → attrs.Unreserved) ∧
    ∃ narration, ofDocument ⟨.dot, statements⟩ .diagram = .ok narration ∧
      ∀ node ∈ nodesOf narration.events, node.id = "a" → node.kind = "box" ∧ node.label = "B" := by
  intro statements
  have graph : ∀ placed ∈ statements, placed.statement.ofGraph = true := by decide
  have free : ∀ placed ∈ statements, ∀ attrs, placed.statement = .attrStatement "node" attrs → attrs.Unreserved := by
    intro placed member attrs shape
    simp only [statements, List.mem_cons, List.not_mem_nil, or_false] at member
    rcases member with rfl | rfl | rfl | rfl | rfl | rfl | rfl | rfl <;> cases shape
    exact ⟨by decide, by decide⟩
  have fine : ((ofDocument ⟨.dot, statements⟩ .diagram).toOption.bind fun _ => some ()) = some () := by decide +kernel
  obtain ⟨narration, told, -⟩ := ok_of_seen fine
  refine ⟨graph, free, narration, told, ?_⟩
  rintro node listed id
  obtain ⟨label, kind, -, -⟩ := ofDocument_fields graph free told node listed
  rw [label, kind, id]
  decide +kernel

-- An attribute by the name of the kind becomes the kind that a node is told with, if the node is there already.
theorem ofDocument_overstated :
    let statements : List Placed :=
      [⟨⟨1, 1⟩, .graphOpen true false none⟩, ⟨⟨1, 11⟩, .nodeStatement ⟨"a", none⟩ Table.empty⟩,
       ⟨⟨1, 14⟩, .nodeStatement ⟨"a", none⟩ (Table.ofList [("kind", "box")])⟩,
       ⟨⟨1, 27⟩, .scopeClose [] [] Table.empty⟩]
    (∀ placed ∈ statements, placed.statement.ofGraph = true) ∧
    (∀ placed ∈ statements, ∀ attrs, placed.statement ≠ .attrStatement "node" attrs) ∧
    kindOf "a" statements = "generic" ∧
    ∃ narration, ofDocument ⟨.dot, statements⟩ .diagram = .ok narration ∧
      nodesOf narration.events = [⟨"a", "box", "a", Table.empty⟩] ∧
      narration.roster.members.values.map Member.node =
        [⟨"a", "generic", "a", Table.ofList [("kind", "box")]⟩] := by
  refine ⟨by decide, ?_, by decide, _, rfl, by decide, by decide⟩
  simp

end Narration
end DiagramStream
