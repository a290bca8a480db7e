/-!
Tables from names to values that keep the order in which names first came. Writing to a known name
changes its value and not its place. Main statements: what `set` does to look-ups and to the keys.
-/

namespace DiagramStream

-- A table never lists a name twice.
structure Table (β : Type) where
  entries : List (String × β)
  nodup : (entries.map Prod.fst).Nodup
deriving DecidableEq

namespace Table
variable {β : Type}

def keysOf (entries : List (String × β)) : List String := entries.map Prod.fst

def find? (key : String) : List (String × β) → Option β
  | [] => none
  | entry :: rest => if entry.1 = key then some entry.2 else find? key rest

def write (key : String) (value : β) : List (String × β) → List (String × β)
  | [] => [(key, value)]
  | entry :: rest => if entry.1 = key then (key, value) :: rest else entry :: write key value rest

theorem keysOf_write (key : String) (value : β) (entries : List (String × β)) :
    keysOf (write key value entries) =
      if key ∈ keysOf entries then keysOf entries else keysOf entries ++ [key] := by
  induction entries with
  | nil => rfl
  | cons entry rest ih =>
    by_cases same : entry.1 = key
    · simp [write, keysOf, same]
    · by_cases member : key ∈ keysOf rest
      · rw [if_pos member] at ih
        rw [if_pos (show key ∈ keysOf (entry :: rest) from List.mem_cons_of_mem _ member)]
        simpa [write, keysOf, same] using ih
      · rw [if_neg member] at ih
        have absent : key ∉ keysOf (entry :: rest) := fun found =>
          (List.mem_cons.1 found).elim (fun e => same e.symm) member
        rw [if_neg absent]
        simpa [write, keysOf, same] using ih

theorem nodup_write (key : String) (value : β) {entries : List (String × β)}
    (nodup : (keysOf entries).Nodup) : (keysOf (write key value entries)).Nodup := by
  rw [keysOf_write]
  by_cases member : key ∈ keysOf entries
  · rwa [if_pos member]
  · rw [if_neg member]
    refine List.nodup_append.2 ⟨nodup, by simp, ?_⟩
    intro a ha b hb same
    exact member (by simp at hb; exact hb ▸ same ▸ ha)

def empty : Table β := ⟨[], by simp⟩

instance : EmptyCollection (Table β) := ⟨empty⟩
instance : Inhabited (Table β) := ⟨empty⟩

def keys (table : Table β) : List String := keysOf table.entries

def values (table : Table β) : List β := table.entries.map Prod.snd

def size (table : Table β) : Nat := table.entries.length

def isEmpty (table : Table β) : Bool := table.entries.isEmpty

def get? (table : Table β) (key : String) : Option β := find? key table.entries

def contains (table : Table β) (key : String) : Bool := (table.get? key).isSome

def set (table : Table β) (key : String) (value : β) : Table β :=
  ⟨write key value table.entries, nodup_write key value table.nodup⟩

def erase (table : Table β) (key : String) : Table β :=
  ⟨table.entries.filter (·.1 != key), by
    have := table.nodup
    exact (List.Sublist.map Prod.fst List.filter_sublist).nodup this⟩

-- Writes all of `later` over `table`, in the order of `later`.
def merge (table later : Table β) : Table β :=
  later.entries.foldl (fun sum entry => sum.set entry.1 entry.2) table

def ofList (entries : List (String × β)) : Table β :=
  entries.foldl (fun sum entry => sum.set entry.1 entry.2) empty

theorem ext {a b : Table β} (h : a.entries = b.entries) : a = b := by
  cases a; cases b; cases h; rfl

theorem find?_write (key other : String) (value : β) (entries : List (String × β)) :
    find? other (write key value entries) = if other = key then some value else find? other entries := by
  induction entries with
  | nil => simp [write, find?, eq_comm (a := key)]
  | cons entry rest ih =>
    by_cases h : entry.1 = key
    · by_cases h' : other = key
      · subst h'; simp [write, find?, h]
      · have : ¬ key = other := fun e => h' e.symm
        simp [write, find?, h, h', this]
    · by_cases h' : other = key
      · subst h'; simp [write, find?, h, ih]
      · simp [write, find?, h, ih, h']

theorem get?_set (table : Table β) (key other : String) (value : β) :
    (table.set key value).get? other = if other = key then some value else table.get? other :=
  find?_write key other value table.entries

@[simp] theorem get?_set_self (table : Table β) (key : String) (value : β) :
    (table.set key value).get? key = some value := by simp [get?_set]

theorem keys_set (table : Table β) (key : String) (value : β) :
    (table.set key value).keys = if key ∈ table.keys then table.keys else table.keys ++ [key] :=
  keysOf_write key value table.entries

@[simp] theorem get?_empty (key : String) : (empty : Table β).get? key = none := rfl

end Table

-- Attributes of a node, an edge or a statement.
abbrev Attrs := Table String

end DiagramStream
