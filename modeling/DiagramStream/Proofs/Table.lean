import DiagramStream.Table

/-!
What a table holds, seen through its keys. Main statements: a key is listed exactly when it has a value,
a write adds at most its own key, at the end, and of two tables written over each other the later one counts.
-/

namespace DiagramStream.Table
variable {β : Type}

theorem find?_of_mem {key : String} {value : β} {entries : List (String × β)}
    (nodup : (keysOf entries).Nodup) (member : (key, value) ∈ entries) :
    find? key entries = some value := by
  induction entries with
  | nil => cases member
  | cons entry rest ih =>
    obtain ⟨fresh, nodupRest⟩ := List.nodup_cons.1 nodup
    rcases List.mem_cons.1 member with rfl | later
    · simp [find?]
    · have other : entry.1 ≠ key := fun same => fresh (same ▸ List.mem_map_of_mem (f := Prod.fst) later)
      simpa [find?, other] using ih nodupRest later

theorem mem_of_find? {key : String} {value : β} {entries : List (String × β)}
    (found : find? key entries = some value) : (key, value) ∈ entries := by
  induction entries with
  | nil => cases found
  | cons entry rest ih =>
    unfold find? at found
    split at found
    · rename_i same
      cases Option.some.inj found
      exact List.mem_cons.2 (.inl (by rw [← same]))
    · exact List.mem_cons_of_mem _ (ih found)

theorem get?_eq_some_iff (table : Table β) (key : String) (value : β) :
    table.get? key = some value ↔ (key, value) ∈ table.entries :=
  ⟨mem_of_find?, find?_of_mem table.nodup⟩

theorem mem_keysOf_iff (key : String) (entries : List (String × β)) :
    key ∈ keysOf entries ↔ ∃ value, find? key entries = some value := by
  induction entries with
  | nil => simp [keysOf, find?]
  | cons entry rest ih =>
    by_cases same : entry.1 = key
    · simp [keysOf, find?, same]
    · have other : key ≠ entry.1 := fun equal => same equal.symm
      simpa [keysOf, find?, same, other] using ih

theorem find?_of_not_mem {key : String} {entries : List (String × β)} (fresh : key ∉ keysOf entries) :
    find? key entries = none := by
  cases found : find? key entries with
  | none => rfl
  | some value => exact absurd ((mem_keysOf_iff key entries).2 ⟨value, found⟩) fresh

theorem mem_keys_iff (table : Table β) (key : String) :
    key ∈ table.keys ↔ ∃ value, table.get? key = some value := mem_keysOf_iff key table.entries

theorem mem_keys_of_get? {table : Table β} {key : String} {value : β} (found : table.get? key = some value) :
    key ∈ table.keys := (mem_keys_iff table key).2 ⟨value, found⟩

theorem get?_eq_none_iff (table : Table β) (key : String) : table.get? key = none ↔ key ∉ table.keys := by
  rw [mem_keys_iff]
  cases table.get? key <;> simp

@[simp] theorem contains_iff (table : Table β) (key : String) :
    table.contains key = true ↔ key ∈ table.keys := by
  rw [mem_keys_iff, contains, Option.isSome_iff_exists]

@[simp] theorem keys_empty : (empty : Table β).keys = [] := rfl

theorem size_eq (table : Table β) : table.size = table.keys.length := by
  simp [size, keys, keysOf]

theorem keys_nodup (table : Table β) : table.keys.Nodup := table.nodup

theorem keys_set_of_mem {table : Table β} {key : String} (listed : key ∈ table.keys) (value : β) :
    (table.set key value).keys = table.keys := by rw [keys_set, if_pos listed]

theorem keys_set_of_not_mem {table : Table β} {key : String} (fresh : key ∉ table.keys) (value : β) :
    (table.set key value).keys = table.keys ++ [key] := by rw [keys_set, if_neg fresh]

@[simp] theorem mem_keys_set (table : Table β) (key other : String) (value : β) :
    other ∈ (table.set key value).keys ↔ other = key ∨ other ∈ table.keys := by
  by_cases listed : key ∈ table.keys
  · rw [keys_set_of_mem listed]
    exact ⟨.inr, fun either => either.elim (fun same => same ▸ listed) id⟩
  · rw [keys_set_of_not_mem listed]
    simp [or_comm]

theorem write_of_not_mem {key : String} {entries : List (String × β)} (fresh : key ∉ keysOf entries) (value : β) :
    write key value entries = entries ++ [(key, value)] := by
  induction entries with
  | nil => rfl
  | cons entry rest ih =>
    obtain ⟨other, later⟩ : key ≠ entry.1 ∧ key ∉ keysOf rest := by simpa [keysOf] using fresh
    simp [write, Ne.symm other, ih later]

-- Writing what is there already changes nothing.
theorem write_of_find? {key : String} {value : β} {entries : List (String × β)}
    (found : find? key entries = some value) : write key value entries = entries := by
  induction entries with
  | nil => cases found
  | cons entry rest ih =>
    by_cases same : entry.1 = key
    · simp only [find?, same, if_true, Option.some.injEq] at found
      simp [write, ← same, ← found]
    · simp only [find?, same, if_false] at found
      simp [write, same, ih found]

theorem get?_foldl_set {entries : List (String × β)} (nodup : (keysOf entries).Nodup) (table : Table β)
    (key : String) :
    (entries.foldl (fun sum entry => sum.set entry.1 entry.2) table).get? key =
      (find? key entries).or (table.get? key) := by
  induction entries generalizing table with
  | nil => simp [find?]
  | cons entry rest ih =>
    obtain ⟨fresh, nodupRest⟩ := List.nodup_cons.1 nodup
    rw [List.foldl_cons, ih nodupRest, get?_set]
    by_cases same : entry.1 = key
    · simp [find?, same, find?_of_not_mem (same ▸ fresh)]
    · simp [find?, same, Ne.symm same]

-- Entries with names of their own stand as they come.
theorem entries_foldl_set {entries : List (String × β)} {table : Table β}
    (nodup : (keysOf (table.entries ++ entries)).Nodup) :
    (entries.foldl (fun sum entry => sum.set entry.1 entry.2) table).entries = table.entries ++ entries := by
  induction entries generalizing table with
  | nil => simp
  | cons entry entries ih =>
    have fresh : entry.1 ∉ keysOf table.entries := by
      simp only [keysOf, List.map_append, List.map_cons] at nodup ⊢
      exact fun listed => (List.nodup_append.1 nodup).2.2 _ listed _ List.mem_cons_self rfl
    have written : (table.set entry.1 entry.2).entries = table.entries ++ [entry] := write_of_not_mem fresh entry.2
    rw [List.append_cons, ← written] at nodup ⊢
    exact ih nodup

theorem ofList_entries (table : Table β) : ofList table.entries = table := ext (entries_foldl_set table.nodup)

theorem mem_keys_ofList (entries : List (String × β)) (key : String) :
    key ∈ (ofList entries).keys ↔ key ∈ keysOf entries := by
  have all (table : Table β) : key ∈ (entries.foldl (fun sum entry => sum.set entry.1 entry.2) table).keys ↔
      key ∈ table.keys ∨ key ∈ keysOf entries := by
    induction entries generalizing table with
    | nil => simp [keysOf]
    | cons entry rest ih => simp [ih, keysOf, or_assoc, or_comm, or_left_comm]
  simpa [ofList] using all empty

-- A table with no name but one.
theorem eq_ofList_of_only {table : Table β} {key : String} (only : ∀ other ∈ table.keys, other = key) :
    table = ofList ((table.get? key).map fun value => (key, value)).toList := by
  obtain ⟨entries, nodup⟩ := table
  cases entries with
  | nil => rfl
  | cons entry rest =>
    obtain ⟨name, value⟩ := entry
    obtain rfl : name = key := only name List.mem_cons_self
    cases rest with
    | nil =>
      refine ext ?_
      simp [get?, find?, ofList, set, write, empty]
    | cons other rest =>
      have again : other.1 = name := only other.1 (by simp [keys, keysOf])
      simp [again] at nodup

theorem get?_merge (table later : Table β) (key : String) :
    (table.merge later).get? key = (later.get? key).or (table.get? key) := get?_foldl_set later.nodup table key

-- The same for a single entry.
theorem get?_set_or (table : Table β) (key other : String) (value : β) :
    (table.set key value).get? other = (if other = key then some value else none).or (table.get? other) := by
  rw [get?_set]
  split <;> rfl

theorem mem_keys_merge (table later : Table β) (key : String) :
    key ∈ (table.merge later).keys ↔ key ∈ table.keys ∨ key ∈ later.keys := by
  simp only [mem_keys_iff, get?_merge]
  cases later.get? key <;> simp

theorem mem_keys_erase (table : Table β) (key other : String) :
    other ∈ (table.erase key).keys ↔ other ≠ key ∧ other ∈ table.keys := by
  simp only [keys, keysOf, erase, List.mem_map, List.mem_filter]
  constructor
  · rintro ⟨entry, ⟨listed, differs⟩, rfl⟩
    exact ⟨by simpa using differs, entry, listed, rfl⟩
  · rintro ⟨differs, entry, listed, rfl⟩
    exact ⟨entry, ⟨listed, by simpa using differs⟩, rfl⟩

theorem get?_erase (table : Table β) (key other : String) :
    (table.erase key).get? other = if other = key then none else table.get? other := by
  change find? other (table.entries.filter (·.1 != key)) = if other = key then none else find? other table.entries
  induction table.entries with
  | nil => simp [find?]
  | cons entry rest ih =>
    by_cases erased : entry.1 = key
    · rw [List.filter_cons_of_neg (by simp [erased]), ih]
      by_cases same : other = key
      · simp [same]
      · simp [find?, erased, same, Ne.symm same]
    · rw [List.filter_cons_of_pos (by simp [erased])]
      by_cases here : entry.1 = other
      · simp [find?, here, here ▸ erased]
      · simp [find?, here, ih]

-- Tables that hold the same under the same keys, seen through a field.
theorem write_map {γ : Type} (field : β → γ) (key : String) (value : β) (entries : List (String × β)) :
    write key (field value) (entries.map fun entry => (entry.1, field entry.2)) =
      (write key value entries).map fun entry => (entry.1, field entry.2) := by
  induction entries with
  | nil => rfl
  | cons entry rest ih => by_cases same : entry.1 = key <;> simp [write, same, ih]

theorem find?_map {γ : Type} (field : β → γ) (key : String) (entries : List (String × β)) :
    find? key (entries.map fun entry => (entry.1, field entry.2)) = (find? key entries).map field := by
  induction entries with
  | nil => rfl
  | cons entry rest ih => by_cases same : entry.1 = key <;> simp [find?, same, ih]

theorem values_set_of_not_mem {table : Table β} {key : String} (fresh : key ∉ table.keys) (value : β) :
    (table.set key value).values = table.values ++ [value] := by
  unfold values
  rw [show (table.set key value).entries = _ from write_of_not_mem fresh value, List.map_append]
  rfl

-- A value that gives way to one with the same field.
theorem map_values_set {γ : Type} {field : β → γ} {table : Table β} {key : String} {before value : β}
    (found : table.get? key = some before) (same : field value = field before) :
    (table.set key value).values.map field = table.values.map field := by
  have written : find? key (table.entries.map fun entry => (entry.1, field entry.2)) = some (field value) := by
    rw [find?_map, show find? key table.entries = _ from found, same]
    rfl
  have entries : (table.set key value).entries.map (fun entry => (entry.1, field entry.2)) =
      table.entries.map fun entry => (entry.1, field entry.2) :=
    (write_map field key value table.entries).symm.trans (write_of_find? written)
  have fields := congrArg (List.map Prod.snd) entries
  rw [List.map_map, List.map_map] at fields
  rw [values, values, List.map_map, List.map_map]
  exact fields

theorem get?_of_values {table : Table β} {index : Nat} {value : β} (placed : table.values[index]? = some value) :
    ∃ key, table.keys[index]? = some key ∧ table.get? key = some value := by
  unfold values at placed
  rw [List.getElem?_map] at placed
  obtain ⟨entry, here, rfl⟩ := Option.map_eq_some_iff.1 placed
  refine ⟨entry.1, ?_, (get?_eq_some_iff table _ _).2 (List.mem_of_getElem? here)⟩
  simp [keys, keysOf, here]

-- Values are listed under their keys, so a field that equals the key can be read off either list.
theorem map_values {field : β → String} {table : Table β}
    (own : ∀ key value, table.get? key = some value → field value = key) :
    table.values.map field = table.keys := by
  simp only [values, keys, keysOf, List.map_map]
  refine List.map_congr_left ?_
  intro entry member
  exact own entry.1 entry.2 ((get?_eq_some_iff table _ _).2 member)

-- A table that is nothing but an index of a list.
def Lists (table : Table β) (key : β → String) (items : List β) : Prop :=
  table.entries = items.map fun item => (key item, item)

namespace Lists
variable {table : Table β} {key : β → String} {items : List β}

theorem keys_eq (lists : table.Lists key items) : table.keys = items.map key := by
  rw [keys, keysOf, show table.entries = _ from lists, List.map_map]
  rfl

theorem nodup (lists : table.Lists key items) : (items.map key).Nodup := lists.keys_eq ▸ table.keys_nodup

theorem get?_eq_some_iff (lists : table.Lists key items) (id : String) (item : β) :
    table.get? id = some item ↔ item ∈ items ∧ key item = id := by
  rw [Table.get?_eq_some_iff, show table.entries = _ from lists, List.mem_map]
  constructor
  · rintro ⟨other, listed, same⟩
    cases same
    exact ⟨listed, rfl⟩
  · rintro ⟨listed, rfl⟩
    exact ⟨item, listed, rfl⟩

theorem get?_eq (lists : table.Lists key items) (id : String) :
    table.get? id = items.find? fun item => key item = id := by
  rw [get?, show table.entries = _ from lists]
  clear lists
  induction items with
  | nil => rfl
  | cons first rest ih =>
    by_cases same : key first = id <;> simp [find?, same, ih]

theorem append (lists : table.Lists key items) (item : β) (fresh : key item ∉ table.keys) :
    (table.set (key item) item).Lists key (items ++ [item]) := by
  unfold Lists
  rw [List.map_append, ← show table.entries = _ from lists]
  exact write_of_not_mem fresh _

end Lists

end DiagramStream.Table
