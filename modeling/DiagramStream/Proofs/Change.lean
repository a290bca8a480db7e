import DiagramStream.Proofs.Roster

/-!
Changes that are told of a node. Main statements: what a change leaves in each field, what a declaration leaves and
what it answers under each key, and that the change it answers with is exactly what it did to the node.
-/

namespace DiagramStream

-- Attributes none of which would be taken for a field of the node itself.
structure Table.Unreserved (attrs : Attrs) : Prop where
  kind : "kind" ∉ attrs.keys
  label : "label" ∉ attrs.keys

namespace Table

theorem empty_unreserved : (empty : Attrs).Unreserved := ⟨by simp, by simp⟩

theorem Unreserved.set {attrs : Attrs} (unreserved : attrs.Unreserved) {key : String} (value : String)
    (kind : key ≠ "kind") (label : key ≠ "label") : (attrs.set key value).Unreserved := by
  refine ⟨?_, ?_⟩
  · rw [mem_keys_set]
    rintro (same | listed)
    · exact kind same.symm
    · exact unreserved.kind listed
  · rw [mem_keys_set]
    rintro (same | listed)
    · exact label same.symm
    · exact unreserved.label listed

theorem Unreserved.merge {attrs later : Attrs} (unreserved : attrs.Unreserved) (after : later.Unreserved) :
    (attrs.merge later).Unreserved := by
  refine ⟨?_, ?_⟩
  · rw [mem_keys_merge]
    rintro (old | new)
    · exact unreserved.kind old
    · exact after.kind new
  · rw [mem_keys_merge]
    rintro (old | new)
    · exact unreserved.label old
    · exact after.label new

end Table

-- Attributes that do not leave a node without a label.
def Table.KeepsLabel (attrs : Attrs) : Prop := attrs.get? "label" ≠ some ""

namespace Table

theorem empty_keepsLabel : (empty : Attrs).KeepsLabel := by simp [KeepsLabel]

theorem KeepsLabel.set {attrs : Attrs} (keeps : attrs.KeepsLabel) {key value : String}
    (some_ : key = "label" → value ≠ "") : (attrs.set key value).KeepsLabel := by
  unfold KeepsLabel
  rw [get?_set]
  split
  · rename_i label
    simpa using some_ label.symm
  · exact keeps

theorem KeepsLabel.merge {attrs later : Attrs} (keeps : attrs.KeepsLabel) (after : later.KeepsLabel) :
    (attrs.merge later).KeepsLabel := by
  unfold KeepsLabel at keeps after ⊢
  rw [get?_merge]
  cases said : later.get? "label" with
  | none => exact keeps
  | some label => rwa [said] at after

theorem keepsLabel_of_not_mem {attrs : Attrs} (absent : "label" ∉ attrs.keys) : attrs.KeepsLabel := by
  simp [KeepsLabel, (get?_eq_none_iff attrs "label").2 absent]

end Table

namespace Node

theorem write_get? (node : Node) (key other value : String) :
    (node.write key value).attrs.get? other =
      if key = "kind" ∨ key = "label" then node.attrs.get? other
      else if other = key then some value else node.attrs.get? other := by
  by_cases kind : key = "kind"
  · simp [write, kind]
  · by_cases label : key = "label"
    · simp [write, label]
    · simp [write, kind, label, Table.get?_set]

-- What a change says last of a key is what it says of it, as it names no key twice.
theorem foldl_write {entries : List (String × String)} (nodup : (Table.keysOf entries).Nodup) (node : Node) :
    let after := entries.foldl (fun node entry => node.write entry.1 entry.2) node
    after.kind = (Table.find? "kind" entries).getD node.kind ∧
      after.label = (Table.find? "label" entries).getD node.label ∧
      ∀ key, after.attrs.get? key =
        if key = "kind" ∨ key = "label" then node.attrs.get? key
        else (Table.find? key entries).or (node.attrs.get? key) := by
  induction entries generalizing node with
  | nil => simp [Table.find?]
  | cons entry rest ih =>
    obtain ⟨fresh, nodupRest⟩ := List.nodup_cons.1 nodup
    obtain ⟨kind, label, attrs⟩ := ih nodupRest (node.write entry.1 entry.2)
    have absent := Table.find?_of_not_mem fresh
    rw [List.foldl_cons]
    refine ⟨?_, ?_, ?_⟩
    · rw [kind]
      by_cases same : entry.1 = "kind"
      · rw [same] at absent
        simp [Table.find?, write, same, absent]
      · by_cases other : entry.1 = "label" <;> simp [Table.find?, write, same, other]
    · rw [label]
      by_cases same : entry.1 = "label"
      · rw [same] at absent
        simp [Table.find?, write, same, absent]
      · by_cases other : entry.1 = "kind" <;> simp [Table.find?, write, same, other]
    · intro key
      rw [attrs, write_get?]
      by_cases reserved : key = "kind" ∨ key = "label"
      · rw [if_pos reserved, if_pos reserved]
        by_cases same : key = entry.1
        · rw [if_pos (same ▸ reserved)]
        · simp [same]
      · rw [if_neg reserved, if_neg reserved]
        by_cases same : entry.1 = key
        · subst same
          simp [Table.find?, reserved, absent]
        · simp [Table.find?, same, Ne.symm same]

theorem merge_kind (node : Node) (change : Attrs) :
    (node.merge change).kind = (change.get? "kind").getD node.kind := (foldl_write change.nodup node).1

theorem merge_label (node : Node) (change : Attrs) :
    (node.merge change).label = (change.get? "label").getD node.label := (foldl_write change.nodup node).2.1

theorem merge_get? (node : Node) (change : Attrs) (key : String) :
    (node.merge change).attrs.get? key =
      if key = "kind" ∨ key = "label" then node.attrs.get? key
      else (change.get? key).or (node.attrs.get? key) := (foldl_write change.nodup node).2.2 key

-- A node whose label is not empty, as long as it has a name to fall back on.
def Labelled (node : Node) : Prop := node.label = "" → node.id = ""

theorem Labelled.merge {node : Node} (labelled : node.Labelled) {change : Attrs} (keeps : change.KeepsLabel) :
    (node.merge change).Labelled := by
  unfold Labelled
  rw [merge_label, merge_id]
  cases said : change.get? "label" with
  | none => exact labelled
  | some label =>
    intro none
    exact absurd (said.trans (congrArg some none)) keeps

@[simp] theorem merge_empty (node : Node) : node.merge Table.empty = node := rfl

theorem merge_set {change : Attrs} {key : String} (fresh : key ∉ change.keys) (node : Node) (value : String) :
    node.merge (change.set key value) = (node.merge change).write key value := by
  unfold merge
  rw [show (change.set key value).entries = _ from Table.write_of_not_mem fresh value, List.foldl_append]
  rfl

end Node

namespace Roster

-- A revision whose change tells all that it did to a node.
def Revision.Tells (node : Node) (revision : Revision) : Prop := node.merge revision.change = revision.node

-- One more entry of the change, under a key that it has not yet.
theorem Revision.Tells.set {node after : Node} {revision : Revision} (tells : revision.Tells node) {key : String}
    (fresh : key ∉ revision.change.keys) {value : String} (wrote : revision.node.write key value = after) :
    Revision.Tells node ⟨after, revision.change.set key value⟩ := by
  unfold Tells at tells ⊢
  rw [Node.merge_set fresh, tells, wrote]

theorem Revision.kind_tells (node : Node) (kind : Option String) :
    let revision := (⟨node, Table.empty⟩ : Revision).kind kind
    revision.Tells node ∧ ∀ key ∈ revision.change.keys, key = "kind" := by
  intro revision
  unfold revision Revision.kind
  split
  · exact ⟨rfl, fun key listed => nomatch listed⟩
  · split
    · exact ⟨rfl, fun key listed => nomatch listed⟩
    · exact ⟨rfl, by simp [Table.mem_keys_set]⟩

theorem Revision.Tells.label {node : Node} {revision : Revision} (tells : revision.Tells node)
    (keys : ∀ key ∈ revision.change.keys, key = "kind") (label : Option String) :
    (revision.label label).Tells node ∧
      ∀ key ∈ (revision.label label).change.keys, key = "kind" ∨ key = "label" := by
  have old : ∀ key ∈ revision.change.keys, key = "kind" ∨ key = "label" := fun key listed => .inl (keys key listed)
  unfold Revision.label
  split
  · exact ⟨tells, old⟩
  · split
    · exact ⟨tells, old⟩
    · refine ⟨tells.set (fun listed => absurd (keys _ listed) (by decide)) rfl, ?_⟩
      intro key listed
      rcases (Table.mem_keys_set _ _ _ _).1 listed with same | earlier
      · exact .inr same
      · exact old key earlier

theorem Revision.Tells.attrs {node : Node} {revision : Revision} (tells : revision.Tells node)
    {entries : List (String × String)} (nodup : (Table.keysOf entries).Nodup)
    (plain : ∀ key ∈ Table.keysOf entries, key ≠ "kind" ∧ key ≠ "label" ∧ key ∉ revision.change.keys) :
    (entries.foldl Revision.attr revision).Tells node := by
  induction entries generalizing revision with
  | nil => exact tells
  | cons entry rest ih =>
    obtain ⟨fresh, nodupRest⟩ := List.nodup_cons.1 nodup
    obtain ⟨kind, label, new⟩ := plain entry.1 (List.mem_cons_self ..)
    have later : ∀ key ∈ Table.keysOf rest, key ≠ "kind" ∧ key ≠ "label" ∧ key ∉ revision.change.keys :=
      fun key listed => plain key (List.mem_cons_of_mem _ listed)
    rw [List.foldl_cons]
    unfold Revision.attr
    split
    · exact ih tells nodupRest later
    · refine ih (tells.set new ?_) nodupRest ?_
      · simp [Node.write, kind, label]
      · intro key listed
        obtain ⟨other, another, absent⟩ := later key listed
        refine ⟨other, another, ?_⟩
        rw [Table.mem_keys_set]
        rintro (same | earlier)
        · exact fresh (same ▸ listed)
        · exact absent earlier

theorem Revision.attrs_keys {entries : List (String × String)} {revision : Revision} {key : String}
    (changed : key ∈ (entries.foldl Revision.attr revision).change.keys) :
    key ∈ revision.change.keys ∨ key ∈ Table.keysOf entries := by
  induction entries generalizing revision with
  | nil => exact .inl changed
  | cons entry rest ih =>
    rcases ih changed with first | later
    · unfold Revision.attr at first
      split at first
      · exact .inl first
      · rcases (Table.mem_keys_set _ _ _ _).1 first with rfl | old
        · exact .inr (List.mem_cons_self ..)
        · exact .inl old
    · exact .inr (List.mem_cons_of_mem _ later)

-- A declaration changes nothing but what it speaks of.
theorem revise_keys {said : Declaration} {node : Node} {key : String}
    (changed : key ∈ (revise node said).change.keys) :
    key = "kind" ∨ key = "label" ∨ key ∈ said.attrs.keys := by
  obtain ⟨kind, kindKeys⟩ := Revision.kind_tells node said.kind
  rcases Revision.attrs_keys changed with field | attr
  · rcases (kind.label kindKeys said.label).2 key field with same | same
    · exact .inl same
    · exact .inr (.inl same)
  · exact .inr (.inr attr)

theorem Revision.attrs_keepsLabel {entries : List (String × String)} {revision : Revision}
    (keeps : revision.change.KeepsLabel) (some_ : ∀ entry ∈ entries, entry.1 = "label" → entry.2 ≠ "") :
    (entries.foldl Revision.attr revision).change.KeepsLabel := by
  induction entries generalizing revision with
  | nil => exact keeps
  | cons entry rest ih =>
    refine ih ?_ fun later member => some_ later (List.mem_cons_of_mem _ member)
    unfold Revision.attr
    split
    · exact keeps
    · exact keeps.set (some_ entry (List.mem_cons_self ..))

-- A declaration gives no empty label, unless one stands among its attributes.
theorem revise_keepsLabel {said : Declaration} (keeps : said.attrs.KeepsLabel) (node : Node) :
    (revise node said).change.KeepsLabel := by
  have kind : ((⟨node, Table.empty⟩ : Revision).kind said.kind).change.KeepsLabel := by
    refine Table.keepsLabel_of_not_mem ?_
    intro listed
    exact absurd ((Revision.kind_tells node said.kind).2 _ listed) (by decide)
  refine Revision.attrs_keepsLabel ?_ ?_
  · unfold Revision.label
    split
    · exact kind
    · rename_i label given
      split
      · exact kind
      · refine kind.set fun _ => ?_
        simpa using (Option.filter_eq_some_iff.1 given).2
  · intro entry member label empty
    exact keeps ((Table.get?_eq_some_iff ..).2 (label ▸ empty ▸ member))

-- What a declaration changes in a node, and nothing else, is what it answers with.
theorem merge_revise {said : Declaration} (unreserved : said.attrs.Unreserved) (node : Node) :
    node.merge (revise node said).change = (revise node said).node := by
  obtain ⟨kind, kindKeys⟩ := Revision.kind_tells node said.kind
  obtain ⟨label, keys⟩ := kind.label kindKeys said.label
  refine label.attrs said.attrs.nodup ?_
  intro key listed
  have notKind : key ≠ "kind" := fun same => unreserved.kind (same ▸ listed)
  have notLabel : key ≠ "label" := fun same => unreserved.label (same ▸ listed)
  exact ⟨notKind, notLabel, fun changed => (keys key changed).elim notKind notLabel⟩

-- What a revision reads, field by field

theorem Revision.kind_eq (node : Node) (kind : Option String) :
    let revision := (⟨node, Table.empty⟩ : Revision).kind kind
    revision.node = { node with kind := (given kind).getD node.kind } ∧
      ∀ key, revision.change.get? key = if key = "kind" then (given kind).filter (· ≠ node.kind) else none := by
  intro revision
  unfold revision Revision.kind
  cases said : given kind with
  | none => exact ⟨rfl, fun key => by simp⟩
  | some other =>
    dsimp only
    by_cases same : other = node.kind
    · rw [if_pos same]
      exact ⟨by simp [same], fun key => by simp [same, Option.filter_some]⟩
    · rw [if_neg same]
      exact ⟨rfl, fun key => by simp [Table.get?_set, same, Option.filter_some]⟩

theorem Revision.label_eq (revision : Revision) (label : Option String) :
    (revision.label label).node = { revision.node with label := (given label).getD revision.node.label } ∧
      ∀ key, (revision.label label).change.get? key =
        (if key = "label" then (given label).filter (· ≠ revision.node.label) else none).or
          (revision.change.get? key) := by
  unfold Revision.label
  cases said : given label with
  | none => exact ⟨rfl, fun key => by simp⟩
  | some other =>
    dsimp only
    by_cases same : other = revision.node.label
    · rw [if_pos same]
      exact ⟨by simp [same], fun key => by simp [same, Option.filter_some]⟩
    · rw [if_neg same]
      exact ⟨rfl, fun key => by simp [Table.get?_set_or, same, Option.filter_some]⟩

theorem Revision.attr_eq (revision : Revision) (entry : String × String) :
    let after := revision.attr entry
    after.node.kind = revision.node.kind ∧ after.node.label = revision.node.label ∧
      (∀ key, after.node.attrs.get? key = if key = entry.1 then some entry.2 else revision.node.attrs.get? key) ∧
      ∀ key, after.change.get? key =
        (if key = entry.1 ∧ revision.node.attrs.get? key ≠ some entry.2 then some entry.2 else none).or
          (revision.change.get? key) := by
  unfold Revision.attr
  by_cases same : revision.node.attrs.get? entry.1 = some entry.2
  · rw [if_pos same]
    refine ⟨rfl, rfl, ?_, ?_⟩ <;> intro key <;> by_cases here : key = entry.1 <;> simp [here, same]
  · rw [if_neg same]
    refine ⟨rfl, rfl, fun key => Table.get?_set _ _ _ _, ?_⟩
    intro key
    by_cases here : key = entry.1 <;> simp [Table.get?_set_or, here, same]

theorem Revision.attrs_eq {entries : List (String × String)} (nodup : (Table.keysOf entries).Nodup)
    (revision : Revision) :
    let after := entries.foldl Revision.attr revision
    after.node.kind = revision.node.kind ∧ after.node.label = revision.node.label ∧
      (∀ key, after.node.attrs.get? key = (Table.find? key entries).or (revision.node.attrs.get? key)) ∧
      ∀ key, after.change.get? key =
        ((Table.find? key entries).filter (revision.node.attrs.get? key ≠ some ·)).or (revision.change.get? key) := by
  induction entries generalizing revision with
  | nil => exact ⟨rfl, rfl, fun key => rfl, fun key => rfl⟩
  | cons entry rest ih =>
    obtain ⟨fresh, nodupRest⟩ := List.nodup_cons.1 nodup
    have absent := Table.find?_of_not_mem fresh
    obtain ⟨kind, label, attrs, change⟩ := ih nodupRest (revision.attr entry)
    obtain ⟨kind', label', attrs', change'⟩ := revision.attr_eq entry
    refine ⟨kind.trans kind', label.trans label', ?_, ?_⟩ <;> intro key
    · rw [List.foldl_cons, attrs, attrs', Table.find?]
      by_cases here : entry.1 = key
      · subst here
        simp [absent]
      · simp [here, Ne.symm here]
    · rw [List.foldl_cons, change, change', attrs', Table.find?]
      by_cases here : entry.1 = key
      · subst here
        simp [absent, Option.filter_some]
      · simp [here, Ne.symm here]

theorem revise_kind (node : Node) (said : Declaration) :
    (revise node said).node.kind = (given said.kind).getD node.kind := by
  unfold revise Revision.attrs
  rw [(Revision.attrs_eq said.attrs.nodup _).1, (Revision.label_eq _ _).1, (Revision.kind_eq _ _).1]

theorem revise_label (node : Node) (said : Declaration) :
    (revise node said).node.label = (given said.label).getD node.label := by
  unfold revise Revision.attrs
  rw [(Revision.attrs_eq said.attrs.nodup _).2.1, (Revision.label_eq _ _).1, (Revision.kind_eq _ _).1]

theorem revise_get? (node : Node) (said : Declaration) (key : String) :
    (revise node said).node.attrs.get? key = (said.attrs.get? key).or (node.attrs.get? key) := by
  unfold revise Revision.attrs
  rw [(Revision.attrs_eq said.attrs.nodup _).2.2.1, (Revision.label_eq _ _).1, (Revision.kind_eq _ _).1]
  rfl

-- An attribute that goes by the name of a field comes last, and is what the change says of that field.
theorem revise_change (node : Node) (said : Declaration) (key : String) :
    (revise node said).change.get? key =
      ((said.attrs.get? key).filter fun value => node.attrs.get? key ≠ some value).or
        ((if key = "label" then (given said.label).filter (· ≠ node.label) else none).or
          (if key = "kind" then (given said.kind).filter (· ≠ node.kind) else none)) := by
  unfold revise Revision.attrs
  rw [(Revision.attrs_eq said.attrs.nodup _).2.2.2, (Revision.label_eq _ _).2, (Revision.label_eq _ _).1,
    (Revision.kind_eq _ _).1, (Revision.kind_eq _ _).2]
  rfl

end Roster
end DiagramStream
