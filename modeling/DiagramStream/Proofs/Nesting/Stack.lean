import Mathlib.Data.List.Infix
import Mathlib.Data.List.Nodup
import DiagramStream.Proofs.Nesting.Steps

/-!
Scopes that close in the reverse of the order they were opened in. Main statement: after whatever was asked, each
frame stands on the one it was opened in and is younger than it, and what happens between the opening of a frame and
its closing leaves those around it as they were, but for the members that carry over at the end.
-/

namespace DiagramStream

-- What a frame has after members were added to it

theorem addMembers_once {frame : Frame} (once : frame.members.Nodup) (ids : List String) :
    (frame.addMembers ids).members.Nodup := by
  unfold Frame.addMembers
  induction ids generalizing frame with
  | nil => exact once
  | cons id rest ih =>
    refine ih ?_
    unfold Frame.addMember
    by_cases known : id ∈ frame.members
    · simpa [known] using once
    · simpa [known] using once.concat known

theorem addMembers_new {ids : List String} (once : ids.Nodup) (frame : Frame) :
    (frame.addMembers ids).members = frame.members ++ ids.filter (· ∉ frame.members) := by
  unfold Frame.addMembers
  induction ids generalizing frame with
  | nil => simp
  | cons id rest ih =>
    obtain ⟨other, once⟩ := List.nodup_cons.1 once
    rw [List.foldl_cons, ih once]
    unfold Frame.addMember
    by_cases known : id ∈ frame.members
    · simp [known]
    · have others : rest.filter (· ∉ frame.members ++ [id]) = rest.filter (· ∉ frame.members) := by
        refine List.filter_congr fun name listed => ?_
        have differs : name ≠ id := fun same => other (same ▸ listed)
        simp [differs]
      simpa [known] using others

theorem addMembers_parent (frame : Frame) (ids : List String) :
    (frame.addMembers ids).parent = frame.parent := by rw [addMembers_eq]

theorem addMembers_block (frame : Frame) (ids : List String) :
    (frame.addMembers ids).block = frame.block := by rw [addMembers_eq]

namespace Nesting

-- Frames whose innermost one got those members that it did not have yet.
def extend (ids : List String) : List Frame → List Frame
  | [] => []
  | frame :: rest => { frame with members := frame.members ++ ids.filter (· ∉ frame.members) } :: rest

theorem carry_once {ids : List String} (once : ids.Nodup) (frames : List Frame) :
    carry ids frames = extend ids frames := by
  cases frames with
  | nil => rfl
  | cons frame rest => rw [carry, extend, addMembers_eq, addMembers_new once]

-- What is left by a request, whether it was answered or refused.
def after (nesting : Nesting) (request : Request) : Nesting := (request.steps.on nesting).2

def afterAll (nesting : Nesting) (requests : List Request) : Nesting := requests.foldl after nesting

-- All that can become of the scopes by one request. The innermost frame can be exchanged for one in its place.
inductive Moves (nesting : Nesting) : Nesting → Prop where
  | stays : Moves nesting nesting
  | opens (kind : ScopeKind) (label : Option String) (line : Int) : Moves nesting (nesting.enter kind label line).1
  | closes {top : Frame} {outer : List Frame} (frames : nesting.frames = top :: outer) :
      Moves nesting { nesting with frames := carry top.members outer }
  | renews {top frame : Frame} {outer : List Frame} (frames : nesting.frames = top :: outer)
      (parent : frame.parent = top.parent) (block : frame.block = top.block)
      (once : top.members.Nodup → frame.members.Nodup) : Moves nesting { nesting with frames := frame :: outer }

theorem after_refused {nesting : Nesting} {request : Request} {failure : Failure}
    (refused : nesting.answer request = .error failure) : nesting.after request = nesting := by
  rw [after, steps_on, refused]
  rfl

theorem after_answered {nesting next : Nesting} {request : Request} {frame : Option Frame}
    (answered : nesting.answer request = .ok (next, frame)) : nesting.after request = next := by
  rw [after, steps_on, answered]
  rfl

theorem split_frames {nesting : Nesting} {closer : String} {accepts : ScopeKind → Bool} {line : Int} {top : Frame}
    {outer : List Frame} (parted : nesting.split closer accepts line = .ok (top, outer)) :
    nesting.frames = top :: outer := by
  unfold split at parted
  cases frames : nesting.frames with
  | nil =>
    rw [frames] at parted
    cases parted
  | cons innermost rest =>
    by_cases accepted : accepts innermost.kind = true
    · simp only [frames, accepted, if_true] at parted
      cases parted
      rfl
    · simp [frames, accepted] at parted

theorem leave_moves {nesting next : Nesting} {closer : String} {accepts : ScopeKind → Bool} {line : Int}
    {closed : Frame} (left : nesting.leave closer accepts line = .ok (next, closed)) :
    ∃ outer, nesting.frames = closed :: outer ∧ next = { nesting with frames := carry closed.members outer } := by
  unfold leave at left
  cases parted : nesting.split closer accepts line with
  | error failure =>
    rw [parted] at left
    cases left
  | ok parts =>
    rw [parted] at left
    cases left
    exact ⟨_, split_frames parted, rfl⟩

theorem branch_moves {nesting next : Nesting} {condition : Option String} {accepts : ScopeKind → Bool} {line : Int}
    {frame : Frame} (branched : nesting.branch condition accepts line = .ok (next, frame)) :
    ∃ top outer, nesting.frames = top :: outer ∧ next = { nesting with frames := frame :: outer } ∧
      frame = { top with label := condition, branch := top.branch + 1, line := line, members := [] } := by
  unfold branch at branched
  cases parted : nesting.split "else" accepts line with
  | error failure =>
    rw [parted] at branched
    cases branched
  | ok parts =>
    rw [parted] at branched
    cases branched
    exact ⟨_, _, split_frames parted, rfl, rfl⟩

theorem update_moves {change : Frame → Frame} (parent : ∀ frame, (change frame).parent = frame.parent)
    (block : ∀ frame, (change frame).block = frame.block)
    (once : ∀ frame, frame.members.Nodup → (change frame).members.Nodup) (nesting : Nesting) :
    nesting.Moves (nesting.update change) := by
  unfold update
  cases frames : nesting.frames with
  | nil => exact .stays
  | cons top outer => exact .renews frames (parent top) (block top) (once top)

theorem handed_over {result : Except Failure (Nesting × Frame)} {next : Nesting} {frame : Option Frame}
    (answered : result.map (Prod.map id some) = .ok (next, frame)) :
    ∃ handed, result = .ok (next, handed) ∧ frame = some handed := by
  cases result with
  | error failure => cases answered
  | ok parts =>
    cases answered
    exact ⟨parts.2, rfl, rfl⟩

theorem after_moves (nesting : Nesting) (request : Request) : nesting.Moves (nesting.after request) := by
  cases result : nesting.answer request with
  | error failure =>
    rw [after_refused result]
    exact .stays
  | ok parts =>
    obtain ⟨next, frame⟩ := parts
    rw [after_answered result]
    cases request with
    | ensureClosed =>
      rw [answer] at result
      cases closed : nesting.ensureClosed with
      | error failure =>
        rw [closed] at result
        cases result
      | ok done =>
        rw [closed] at result
        cases result
        exact .stays
    | call call =>
      cases call with
      | enter kind label line =>
        rw [answer] at result
        cases known : ScopeKind.ofName? kind with
        | none =>
          rw [known] at result
          cases result
        | some scope =>
          rw [known] at result
          cases result
          exact .opens scope label line
      | leave closer accepts line =>
        obtain ⟨closed, left, -⟩ := handed_over result
        obtain ⟨outer, frames, rfl⟩ := leave_moves left
        exact .closes frames
      | branch condition accepts line =>
        obtain ⟨opened, branched, -⟩ := handed_over result
        obtain ⟨top, outer, frames, rfl, rfl⟩ := branch_moves branched
        exact .renews frames rfl rfl fun _ => .nil
      | refer id =>
        cases result
        exact update_moves (fun frame => addMembers_parent frame [id]) (fun frame => addMembers_block frame [id])
          (fun frame once => addMembers_once once [id]) nesting
      | write slot values =>
        cases result
        refine update_moves ?_ ?_ ?_ nesting
        · intro frame
          cases slot <;> rfl
        · intro frame
          cases slot <;> rfl
        · intro frame once
          cases slot <;> exact once

theorem enter_block (nesting : Nesting) (kind : ScopeKind) (label : Option String) (line : Int) :
    (nesting.enter kind label line).2.block = nesting.nextBlock := by
  unfold enter
  cases nesting.frames <;> rfl

theorem moves_nextBlock {nesting next : Nesting} (moves : nesting.Moves next) :
    nesting.nextBlock ≤ next.nextBlock := by
  cases moves with
  | opens kind label line => exact Nat.le_succ _
  | stays => exact Nat.le_refl _
  | closes frames => exact Nat.le_refl _
  | renews frames parent block once => exact Nat.le_refl _

theorem afterAll_nextBlock (nesting : Nesting) (requests : List Request) :
    nesting.nextBlock ≤ (nesting.afterAll requests).nextBlock := by
  induction requests generalizing nesting with
  | nil => exact Nat.le_refl _
  | cons request rest ih => exact Nat.le_trans (moves_nextBlock (nesting.after_moves request)) (ih _)

-- Frames that stand on one another, with blocks below a bound. The block of a frame bounds those around it.
inductive Stacked : Nat → List Frame → Prop where
  | outside {bound : Nat} : Stacked bound []
  | inside {bound : Nat} {frame : Frame} {outer : List Frame} (around : Stacked frame.block outer)
      (below : frame.block < bound)
      (parent : frame.parent = if outer.length = 0 then none else some (outer.length - 1))
      (once : frame.members.Nodup) : Stacked bound (frame :: outer)

namespace Stacked
variable {bound : Nat} {frames outer : List Frame} {top frame : Frame}

theorem mono (stacked : Stacked bound frames) {greater : Nat} (le : bound ≤ greater) : Stacked greater frames := by
  cases stacked with
  | outside => exact .outside
  | inside around below parent once => exact .inside around (Nat.lt_of_lt_of_le below le) parent once

theorem renew (stacked : Stacked bound (top :: outer)) (parent : frame.parent = top.parent)
    (block : frame.block = top.block) (once : top.members.Nodup → frame.members.Nodup) :
    Stacked bound (frame :: outer) := by
  cases stacked with
  | inside around below stands own =>
    rw [← block] at around below
    exact .inside around below (parent.trans stands) (once own)

theorem carry (stacked : Stacked bound frames) (ids : List String) : Stacked bound (carry ids frames) := by
  cases frames with
  | nil => exact .outside
  | cons top outer =>
    exact stacked.renew (addMembers_parent top ids) (addMembers_block top ids) fun once => addMembers_once once ids

theorem enter {nesting : Nesting} (stacked : Stacked nesting.nextBlock nesting.frames) (kind : ScopeKind)
    (label : Option String) (line : Int) :
    Stacked (nesting.nextBlock + 1) (nesting.enter kind label line).1.frames := by
  unfold Nesting.enter Nesting.depth
  cases frames : nesting.frames with
  | nil => exact .inside .outside (Nat.lt_succ_self _) rfl .nil
  | cons top outer =>
    rw [frames] at stacked
    exact .inside stacked (Nat.lt_succ_self _) rfl .nil

theorem moves {nesting next : Nesting} (stacked : Stacked nesting.nextBlock nesting.frames)
    (moves : nesting.Moves next) : Stacked next.nextBlock next.frames := by
  cases moves with
  | stays => exact stacked
  | opens kind label line => exact stacked.enter kind label line
  | closes frames =>
    rw [frames] at stacked
    cases stacked with
    | inside around below parent once => exact (around.mono (Nat.le_of_lt below)).carry _
  | renews frames parent block once =>
    rw [frames] at stacked
    exact stacked.renew parent block once

theorem afterAll {nesting : Nesting} (stacked : Stacked nesting.nextBlock nesting.frames) (requests : List Request) :
    Stacked (nesting.afterAll requests).nextBlock (nesting.afterAll requests).frames := by
  induction requests generalizing nesting with
  | nil => exact stacked
  | cons request rest ih => exact ih (stacked.moves (nesting.after_moves request))

-- What a stack says of each of its frames

theorem bounded (stacked : Stacked bound frames) : ∀ frame ∈ frames, frame.block < bound := by
  induction stacked with
  | outside => simp
  | @inside bound top outer around below parent once ih =>
    intro frame member
    cases List.mem_cons.1 member with
    | inl same => exact same ▸ below
    | inr deeper => exact Nat.lt_trans (ih frame deeper) below

theorem once (stacked : Stacked bound frames) : ∀ frame ∈ frames, frame.members.Nodup := by
  induction stacked with
  | outside => simp
  | inside around below parent once ih => exact List.forall_mem_cons.2 ⟨once, ih⟩

theorem blocks (stacked : Stacked bound frames) : (frames.reverse.map Frame.block).Pairwise (· < ·) := by
  rw [List.map_reverse, List.pairwise_reverse]
  induction stacked with
  | outside => exact .nil
  | inside around below parent once ih =>
    rw [List.map_cons, List.pairwise_cons]
    exact ⟨List.forall_mem_map.2 around.bounded, ih⟩

theorem parents (stacked : Stacked bound frames) :
    ∀ i frame, frames.reverse[i]? = some frame → frame.parent = if i = 0 then none else some (i - 1) := by
  induction stacked with
  | outside => simp
  | @inside bound top outer around below parent once ih =>
    intro i frame found
    rw [List.reverse_cons, List.getElem?_append, List.length_reverse] at found
    split at found
    · exact ih i frame found
    · obtain ⟨last, rfl⟩ := List.getElem?_eq_some_iff.1 found
      have place : i = outer.length := by
        simp only [List.length_singleton] at last
        omega
      subst place
      simpa using parent

end Stacked

-- Frames above others. The lowest of them belongs to the block that was opened there.
inductive Above (below : List Frame) (block : Nat) : List Frame → Prop where
  | lowest {frame : Frame} (own : frame.block = block) (once : frame.members.Nodup) : Above below block (frame :: below)
  | higher {frame : Frame} {outer : List Frame} (around : Above below block outer) (once : frame.members.Nodup) :
      Above below block (frame :: outer)

namespace Above
variable {below frames outer : List Frame} {block : Nat} {top frame : Frame}

theorem length_lt (above : Above below block frames) : below.length < frames.length := by
  induction above with
  | lowest own once => exact Nat.lt_succ_self _
  | higher around once ih => exact Nat.lt_succ_of_lt ih

theorem renew (above : Above below block (top :: outer)) (same : frame.block = top.block)
    (once : top.members.Nodup → frame.members.Nodup) : Above below block (frame :: outer) := by
  cases above with
  | lowest own has => exact .lowest (same.trans own) (once has)
  | higher around has => exact .higher around (once has)

theorem carry (above : Above below block frames) (ids : List String) : Above below block (carry ids frames) := by
  cases frames with
  | nil => cases above
  | cons top outer => exact above.renew (addMembers_block top ids) fun once => addMembers_once once ids

theorem moves {nesting next : Nesting} (above : Above below block nesting.frames) (moves : nesting.Moves next) :
    Above below block next.frames ∨
      ∃ closed, nesting.frames = closed :: below ∧ closed.block = block ∧ closed.members.Nodup ∧
        next.frames = Nesting.carry closed.members below := by
  cases moves with
  | stays => exact .inl above
  | opens kind label line =>
    refine .inl (.higher above ?_)
    cases nesting.frames <;> exact .nil
  | @closes top outer frames =>
    rw [frames] at above
    cases above with
    | lowest own once => exact .inr ⟨top, frames, own, once, rfl⟩
    | higher around once => exact .inl (around.carry _)
  | renews frames parent same once =>
    rw [frames] at above
    exact .inl (above.renew same once)

-- As long as the depth stays greater, none of the frames below is touched.
theorem afterAll {nesting : Nesting} (above : Above below block nesting.frames) {requests : List Request}
    (stays : ∀ before, before <+: requests → below.length < (nesting.afterAll before).depth) :
    Above below block (nesting.afterAll requests).frames := by
  induction requests generalizing nesting with
  | nil => exact above
  | cons request rest ih =>
    cases above.moves (nesting.after_moves request) with
    | inl still =>
      refine ih still fun before earlier => ?_
      exact stays (request :: before) (List.prefix_cons_inj request |>.2 earlier)
    | inr returned =>
      obtain ⟨closed, -, -, -, left⟩ := returned
      have deeper : below.length < (nesting.after request).frames.length := stays [request] (by simp)
      rw [left, carry_length] at deeper
      exact absurd deeper (Nat.lt_irrefl _)

end Above

theorem enter_above {nesting : Nesting} {kind : String} {label : Option String} {line : Int}
    (deeper : nesting.depth < (nesting.after (.call (.enter kind label line))).depth) :
    Above nesting.frames nesting.nextBlock (nesting.after (.call (.enter kind label line))).frames := by
  cases known : ScopeKind.ofName? kind with
  | none =>
    rw [after_refused (by rw [answer, known])] at deeper
    exact absurd deeper (Nat.lt_irrefl _)
  | some scope =>
    rw [after_answered (by rw [answer, known])]
    unfold Nesting.enter
    cases nesting.frames <;> exact .lowest rfl .nil

-- A run that stays above the depth it began at, until its closer is back there.
structure Spans (nesting : Nesting) (opening : Request) (inside : List Request) (closing : Request) : Prop where
  stays : ∀ before, before <+: inside → nesting.depth < (nesting.afterAll (opening :: before)).depth
  returns : ((nesting.afterAll (opening :: inside)).after closing).depth = nesting.depth

-- What is closed when the depth is again what it was is the frame that was opened there, or a later branch of it.
theorem leave_returns {nesting : Nesting} {kind closer : String} {label : Option String} {opened line : Int}
    {accepts : ScopeKind → Bool} {inside : List Request} :
    let opening := Request.call (.enter kind label opened)
    let closing := Request.call (.leave closer accepts line)
    let last := nesting.afterAll (opening :: inside)
    nesting.Spans opening inside closing →
    ∃ closed, last.frames = closed :: nesting.frames ∧ closed.block = nesting.nextBlock ∧
      last.answer closing = .ok (last.after closing, some closed) ∧
      (last.after closing).frames = extend closed.members nesting.frames := by
  intro opening closing last spans
  obtain ⟨stays, returns⟩ := spans
  have opened := enter_above (stays [] List.nil_prefix)
  have above : Above nesting.frames nesting.nextBlock last.frames := opened.afterAll stays
  cases above.moves (last.after_moves closing) with
  | inl still => exact absurd returns (Nat.ne_of_gt still.length_lt)
  | inr returned =>
    obtain ⟨closed, frames, own, once, left⟩ := returned
    refine ⟨closed, frames, own, ?_, left.trans (carry_once once _)⟩
    cases result : last.answer closing with
    | error failure =>
      -- a refused closer would have left the depth as it was
      rw [after_refused result] at returns
      exact absurd returns (Nat.ne_of_gt above.length_lt)
    | ok parts =>
      obtain ⟨next, frame⟩ := parts
      obtain ⟨handed, taken, rfl⟩ := handed_over result
      obtain ⟨outer, top, rfl⟩ := leave_moves taken
      rw [frames, List.cons.injEq] at top
      rw [after_answered result, top.1]

theorem afterAll_stack (requests : List Request) :
    let nesting := empty.afterAll requests
    (∀ i frame, nesting.frames.reverse[i]? = some frame → frame.parent = if i = 0 then none else some (i - 1)) ∧
    (nesting.frames.reverse.map Frame.block).Pairwise (· < ·) ∧
    (∀ before, before <+: requests → ∀ frame ∈ (empty.afterAll before).frames,
      ∀ kind label line, (nesting.enter kind label line).2.block ≠ frame.block) ∧
    (∀ condition accepts line next frame, nesting.branch condition accepts line = .ok (next, frame) →
      ∃ top outer, nesting.frames = top :: outer ∧ next.frames = frame :: outer ∧ frame.block = top.block ∧
        frame.parent = top.parent ∧ frame.branch = top.branch + 1) ∧
    (∀ frame ∈ nesting.frames, frame.members.Nodup) ∧
    (∀ request : Request, request.steps.on nesting = nesting.settle (nesting.answer request)) ∧
    (∀ (request : Request) failure left, request.steps.on nesting = (.error failure, left) → left = nesting) ∧
    ∀ kind label opened inside closer accepts line,
      let opening := Request.call (.enter kind label opened)
      let closing := Request.call (.leave closer accepts line)
      let last := nesting.afterAll (opening :: inside)
      nesting.Spans opening inside closing →
      ∃ closed, last.frames = closed :: nesting.frames ∧ closed.block = nesting.nextBlock ∧
        last.answer closing = .ok (last.after closing, some closed) ∧
        (last.after closing).frames = extend closed.members nesting.frames := by
  intro nesting
  have stacked (told : List Request) : Stacked (empty.afterAll told).nextBlock (empty.afterAll told).frames :=
    Stacked.outside.afterAll told
  refine ⟨(stacked requests).parents, (stacked requests).blocks, ?_, ?_, (stacked requests).once, steps_on nesting,
    ?_, ?_⟩
  · intro before earlier frame member kind label line
    obtain ⟨later, rfl⟩ := earlier
    have grows : (empty.afterAll before).nextBlock ≤ nesting.nextBlock := by
      rw [show nesting = (empty.afterAll before).afterAll later from List.foldl_append]
      exact afterAll_nextBlock _ later
    have older : frame.block < nesting.nextBlock := Nat.lt_of_lt_of_le ((stacked before).bounded frame member) grows
    rw [enter_block]
    exact Nat.ne_of_gt older
  · intro condition accepts line next frame branched
    obtain ⟨top, outer, frames, rfl, rfl⟩ := branch_moves branched
    exact ⟨top, outer, frames, rfl, rfl, rfl, rfl⟩
  · intro request failure left refused
    rw [steps_on] at refused
    cases result : nesting.answer request with
    | error said =>
      rw [result] at refused
      exact (congrArg Prod.snd refused).symm
    | ok parts =>
      rw [result] at refused
      cases refused
  · intro kind label opened inside closer accepts line
    exact leave_returns

-- What the first branch referred to is not carried over, nor is anything undone by the closer that was refused.
theorem afterAll_stack_nested :
    let requests : List Request := [.call (.enter "graph" (some "g") 1), .call (.refer "a")]
    let opening := Request.call (.enter "alt" (some "x") 2)
    let inside : List Request :=
      [.call (.refer "b"), .call (.branch none ScopeKind.isBranching 3), .call (.refer "c"),
       .call (.enter "loop" none 4), .call (.refer "d"), .call (.leave "\x7d" ScopeKind.isGraph 5),
       .call (.leave "end" ScopeKind.isBlock 6), .call (.refer "a")]
    let closing := Request.call (.leave "end" ScopeKind.isBlock 7)
    let nesting := empty.afterAll requests
    let last := nesting.afterAll (opening :: inside)
    nesting.Spans opening inside closing ∧ (last.after closing).frames = extend ["c", "d", "a"] nesting.frames ∧
      (closing.steps.on nesting).1 = .error (.wrongCloser "end" 7 .graph 1) ∧ nesting.after closing = nesting := by
  intro requests opening inside closing nesting last
  obtain ⟨-, -, -, -, -, -, refused, spanned⟩ := afterAll_stack requests
  have spans : nesting.Spans opening inside closing := by
    refine ⟨fun before earlier => ?_, by decide⟩
    have listed : before ∈ inside.inits := (List.mem_inits before inside).2 earlier
    have deeper : ∀ before ∈ inside.inits, nesting.depth < (nesting.afterAll (opening :: before)).depth := by decide
    exact deeper before listed
  obtain ⟨closed, frames, -, -, left⟩ := spanned "alt" (some "x") 2 inside "end" ScopeKind.isBlock 7 spans
  have members : closed.members = ["c", "d", "a"] := by
    have head : last.frames.head?.map Frame.members = some ["c", "d", "a"] := by decide
    rw [show last.frames = _ from frames] at head
    exact Option.some.inj head
  have failed : (closing.steps.on nesting).1 = .error (.wrongCloser "end" 7 .graph 1) := rfl
  exact ⟨spans, members ▸ left, failed, refused closing _ _ (Prod.ext failed rfl)⟩

end Nesting
end DiagramStream
