import DiagramStream.Proofs.Graph.Tally

/-!
What scopes give to the nodes in them. Main statement: what every `node` statement keeps true of the defaults is true of
all that a node ever takes from its scopes.
-/

namespace DiagramStream

-- Something that can be said of attributes whatever is set in them beside the fields of a node.
structure Carried (kept : Attrs → Prop) : Prop where
  empty : kept Table.empty
  set : ∀ {attrs : Attrs} {key : String} (value : String), key ≠ "kind" → key ≠ "label" → kept attrs →
    kept (attrs.set key value)

def DefaultsKeep (kept : Attrs → Prop) (frames : List Frame) : Prop := ∀ frame ∈ frames, kept frame.nodeDefaults

namespace DefaultsKeep
variable {kept : Attrs → Prop} {top frame : Frame} {frames outer : List Frame} {nesting : Nesting}

theorem nodeAttrs (keeps : DefaultsKeep kept nesting.frames) (carried : Carried kept) : kept nesting.nodeAttrs := by
  unfold Nesting.nodeAttrs
  split
  · exact carried.empty
  · rename_i top outer frames
    have defaults : kept top.nodeDefaults := keeps top (by simp [frames])
    have ranked : ∀ rank, kept (top.nodeDefaults.set "rank" rank) :=
      fun rank => carried.set rank (by decide) (by decide) defaults
    have grouped : ∀ {attrs : Attrs} (group path : String), kept attrs →
        kept ((attrs.set "group" group).set "group_path" path) :=
      fun group path kept => carried.set path (by decide) (by decide) (carried.set group (by decide) (by decide) kept)
    cases nesting.groups.getLast? with
    | none =>
      cases nesting.rank? with
      | none => exact defaults
      | some rank => exact ranked rank
    | some group =>
      refine grouped group _ ?_
      cases nesting.rank? with
      | none => exact defaults
      | some rank => exact ranked rank

theorem change (keeps : DefaultsKeep kept (top :: outer)) (defaults : kept frame.nodeDefaults) :
    DefaultsKeep kept (frame :: outer) := by
  intro other member
  rcases List.mem_cons.1 member with rfl | older
  · exact defaults
  · exact keeps other (List.mem_cons_of_mem _ older)

theorem carry (keeps : DefaultsKeep kept frames) (ids : List String) :
    DefaultsKeep kept (Nesting.carry ids frames) := by
  cases frames with
  | nil => exact keeps
  | cons top outer => exact keeps.change (by simpa using keeps top (List.mem_cons_self ..))

theorem enter (keeps : DefaultsKeep kept nesting.frames) (carried : Carried kept) (kind : ScopeKind)
    (label : Option String) (line : Int) : DefaultsKeep kept (nesting.enter kind label line).1.frames := by
  unfold Nesting.enter
  cases frames : nesting.frames with
  | nil =>
    intro frame member
    cases List.mem_singleton.1 member
    exact carried.empty
  | cons top outer =>
    intro frame member
    rcases List.mem_cons.1 member with rfl | older
    · exact keeps top (by simp [frames])
    · exact keeps frame (frames ▸ older)

-- A scope that is closed leaves nothing but its members behind.
theorem leave (keeps : DefaultsKeep kept (top :: outer)) : DefaultsKeep kept (Nesting.carry top.members outer) :=
  carry (fun frame member => keeps frame (List.mem_cons_of_mem _ member)) top.members

end DefaultsKeep

namespace Narration

theorem tell_defaultsKeep {kept : Attrs → Prop} (carried : Carried kept) {narration after : Narration} {placed : Placed}
    (held : Held narration) (plain : narration.roster.Plain) (graph : placed.statement.ofGraph = true)
    (merges : ∀ attrs, placed.statement = .attrStatement "node" attrs → ∀ defaults, kept defaults →
      kept (defaults.merge attrs))
    (keeps : DefaultsKeep kept narration.nesting.frames) (told : narration.tell placed = .ok after) :
    DefaultsKeep kept after.nesting.frames := by
  cases tell_goes held plain graph told with
  | begins | enters => exact keeps.enter carried _ _ _
  | ends place endpoints attrs top frames => exact fun frame member => nomatch member
  | leaves place endpoints attrs top outer frames => exact (frames ▸ keeps).leave
  | continues place endpoints operators attrs top outer frames some_ =>
    have referred := mentionAll_referred (leave_held held frames).1 plain (endpoints.flatten.map NodeRef.name)
    have inside : DefaultsKeep kept (top :: outer) := frames ▸ keeps
    exact (show _ = Nesting.carry _ _ from referred.frames) ▸ inside.leave.carry _
  | joins place endpoints operators attrs body =>
    have referred := mentionAll_referred held plain (endpoints.flatten.map NodeRef.name)
    exact (show _ = Nesting.carry _ _ from referred.frames) ▸ keeps.carry _
  | states place node attrs own after body readable told =>
    rw [(declared_same told).2]
    exact keeps.carry _
  | sets place target attrs body =>
    obtain ⟨top, rest, frames⟩ := List.exists_cons_of_ne_nil body
    rw [frames] at keeps
    have defaults : kept top.nodeDefaults := keeps top (List.mem_cons_self ..)
    simp only [setDefaults, Nesting.update, frames]
    by_cases node : target = "node"
    · simp only [node, if_true]
      exact keeps.change (merges attrs (by rw [node]) _ defaults)
    · simp only [node, if_false]
      refine keeps.change ?_
      split <;> exact defaults
  | assigns place key value body =>
    obtain ⟨top, rest, frames⟩ := List.exists_cons_of_ne_nil body
    rw [frames] at keeps
    simp only [assign, Nesting.update, frames]
    exact keeps.change (keeps top (List.mem_cons_self ..))

end Narration
end DiagramStream
