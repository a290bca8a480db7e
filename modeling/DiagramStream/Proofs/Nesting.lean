import DiagramStream.Nesting
import DiagramStream.Proofs.Table

/-!
Scopes that hold only what was written in them. Main statement: after whatever calls, asking the innermost of the scopes
that copied each other finds what is found by looking through these from the innermost out.
-/

namespace DiagramStream

-- The tables of a scope that those inside it take over.
inductive Slot where
  | nodeDefaults
  | edgeDefaults
  | attrs
deriving DecidableEq

def Frame.slot (frame : Frame) : Slot → Attrs
  | .nodeDefaults => frame.nodeDefaults
  | .edgeDefaults => frame.edgeDefaults
  | .attrs => frame.attrs

def Frame.write (frame : Frame) (values : Attrs) : Slot → Frame
  | .nodeDefaults => { frame with nodeDefaults := frame.nodeDefaults.merge values }
  | .edgeDefaults => { frame with edgeDefaults := frame.edgeDefaults.merge values }
  | .attrs => { frame with attrs := frame.attrs.merge values }

-- A scope without copies. The branches of a block write to the same layer, one after the other.
structure Layer where
  kind : ScopeKind
  label : Option String
  written : Slot → Attrs

namespace Layer

def blank (kind : ScopeKind) (label : Option String) : Layer := ⟨kind, label, fun _ => Table.empty⟩

def write (layer : Layer) (values : Attrs) (slot : Slot) : Layer :=
  { layer with written := fun other =>
      if other = slot then (layer.written slot).merge values else layer.written other }

-- What the nearest layer that has the key says of it.
def lookUp (slot : Slot) (key : String) (layers : List Layer) : Option String :=
  layers.findSome? fun layer => (layer.written slot).get? key

-- The name that a layer groups nodes by.
def group? (layer : Layer) : Option String :=
  if layer.kind = .subgraph then layer.label.filter (· ≠ "") else none

def path? (layers : List Layer) : Option String :=
  match layers.filterMap group? with
  | [] => none
  | names => some ("/".intercalate names.reverse)

-- What a node finds under a key, by what counts most first.
def nodeAttr? (layers : List Layer) (key : String) : Option String :=
  (if key = "group_path" then path? layers else none).or
    ((if key = "group" then layers.findSome? group? else none).or
      ((if key = "rank" then lookUp .attrs "rank" layers else none).or (lookUp .nodeDefaults key layers)))

end Layer

namespace Nesting

-- Something that is asked of the scopes. The kind is named as it was spelled.
inductive Call where
  | enter (kind : String) (label : Option String) (line : Int)
  | leave (closer : String) (accepts : ScopeKind → Bool) (line : Int)
  | branch (condition : Option String) (accepts : ScopeKind → Bool) (line : Int)
  | refer (id : String)
  | write (slot : Slot) (values : Attrs)

def perform (nesting : Nesting) : Call → Except Failure Nesting
  | .enter kind label line =>
    match ScopeKind.ofName? kind with
    | none => .error (.unknownScopeKind kind)
    | some scope => .ok (nesting.enter scope label line).1
  | .leave closer accepts line => (nesting.leave closer accepts line).map Prod.fst
  | .branch condition accepts line => (nesting.branch condition accepts line).map Prod.fst
  | .refer id => .ok (nesting.addMember id)
  | .write slot values => .ok (nesting.update (·.write values slot))

-- A call that fails leaves the scopes as they were.
def attempt (nesting : Nesting) (call : Call) : Nesting :=
  match nesting.perform call with
  | .error _ => nesting
  | .ok after => after

def attemptAll (nesting : Nesting) (calls : List Call) : Nesting := calls.foldl attempt nesting

end Nesting

namespace Layer

-- The same calls, with nothing copied.
def attempt (layers : List Layer) : Nesting.Call → List Layer
  | .enter kind label _ =>
    match ScopeKind.ofName? kind with
    | none => layers
    | some scope => blank scope label :: layers
  | .leave _ accepts _ =>
    match layers with
    | [] => []
    | top :: outer => if accepts top.kind then outer else top :: outer
  | .branch condition accepts _ =>
    match layers with
    | [] => []
    | top :: outer => if accepts top.kind then { top with label := condition } :: outer else top :: outer
  | .refer _ => layers
  | .write slot values =>
    match layers with
    | [] => []
    | top :: outer => top.write values slot :: outer

def attemptAll (layers : List Layer) (calls : List Nesting.Call) : List Layer := calls.foldl attempt layers

theorem lookUp_cons (slot : Slot) (key : String) (layer : Layer) (layers : List Layer) :
    lookUp slot key (layer :: layers) = ((layer.written slot).get? key).or (lookUp slot key layers) := by
  unfold lookUp
  rw [List.findSome?_cons]
  cases (layer.written slot).get? key <;> rfl

theorem lookUp_write (slot other : Slot) (key : String) (layer : Layer) (layers : List Layer) (values : Attrs) :
    lookUp other key (layer.write values slot :: layers) =
      (if other = slot then values.get? key else none).or (lookUp other key (layer :: layers)) := by
  rw [lookUp_cons, lookUp_cons, write]
  by_cases same : other = slot
  · subst same
    simp only [if_true, Table.get?_merge, Option.or_assoc]
  · simp [same]

end Layer

theorem Frame.write_slot (frame : Frame) (values : Attrs) (slot other : Slot) :
    (frame.write values slot).slot other =
      if other = slot then (frame.slot slot).merge values else frame.slot other := by
  cases slot <;> cases other <;> rfl

theorem addMembers_eq (frame : Frame) (ids : List String) :
    frame.addMembers ids = { frame with members := (frame.addMembers ids).members } := by
  unfold Frame.addMembers
  induction ids generalizing frame with
  | nil => rfl
  | cons id rest ih =>
    rw [List.foldl_cons, ih]
    unfold Frame.addMember
    split <;> rfl

@[simp] theorem addMembers_edgeDefaults (frame : Frame) (ids : List String) :
    (frame.addMembers ids).edgeDefaults = frame.edgeDefaults := by rw [addMembers_eq]

@[simp] theorem addMembers_nodeDefaults (frame : Frame) (ids : List String) :
    (frame.addMembers ids).nodeDefaults = frame.nodeDefaults := by rw [addMembers_eq]

namespace Nesting

-- What calls make of the frames

@[simp] theorem carry_length (ids : List String) (frames : List Frame) :
    (carry ids frames).length = frames.length := by cases frames <;> rfl

theorem attempt_leave (nesting : Nesting) (closer : String) (accepts : ScopeKind → Bool) (line : Int) :
    (nesting.attempt (.leave closer accepts line)).frames =
      match nesting.frames with
      | [] => []
      | top :: outer => if accepts top.kind then carry top.members outer else top :: outer := by
  unfold attempt perform leave split
  cases frames : nesting.frames with
  | nil => exact frames
  | cons top outer =>
    by_cases accepted : accepts top.kind = true
    · simp [accepted, Except.map]
    · simp [accepted, Except.map, frames]

theorem attempt_branch (nesting : Nesting) (condition : Option String) (accepts : ScopeKind → Bool) (line : Int) :
    (nesting.attempt (.branch condition accepts line)).frames =
      match nesting.frames with
      | [] => []
      | top :: outer =>
        if accepts top.kind then
          { top with label := condition, branch := top.branch + 1, line := line, members := [] } :: outer
        else top :: outer := by
  unfold attempt perform branch split
  cases frames : nesting.frames with
  | nil => exact frames
  | cons top outer =>
    by_cases accepted : accepts top.kind = true
    · simp [accepted, Except.map]
    · simp [accepted, Except.map, frames]

theorem attempt_refer (nesting : Nesting) (id : String) :
    (nesting.attempt (.refer id)).frames = carry [id] nesting.frames := by
  unfold attempt perform addMember update
  cases frames : nesting.frames with
  | nil => exact frames
  | cons top outer => rfl

theorem attempt_write (nesting : Nesting) (slot : Slot) (values : Attrs) :
    (nesting.attempt (.write slot values)).frames =
      match nesting.frames with
      | [] => []
      | top :: outer => top.write values slot :: outer := by
  unfold attempt perform update
  cases frames : nesting.frames with
  | nil => exact frames
  | cons top outer => rfl

end Nesting

-- Frames that hold, at every depth, what is found from there out. It is kept because only the innermost frame is ever
-- written to: those around it stand as they were when it copied them.
inductive Represents : List Frame → List Layer → Prop where
  | outside : Represents [] []
  | inside {frames : List Frame} {layers : List Layer} (around : Represents frames layers) {frame : Frame} {layer : Layer}
      (kind : frame.kind = layer.kind) (label : frame.label = layer.label)
      (holds : ∀ slot key, (frame.slot slot).get? key = Layer.lookUp slot key (layer :: layers)) :
      Represents (frame :: frames) (layer :: layers)

namespace Represents
variable {frames outer : List Frame} {layers : List Layer} {top : Frame} {layer : Layer}

theorem write (represents : Represents (top :: frames) (layer :: layers)) (slot : Slot) (values : Attrs) :
    Represents (top.write values slot :: frames) (layer.write values slot :: layers) := by
  cases represents with
  | inside around kind label holds =>
    refine around.inside ?_ ?_ ?_
    · cases slot <;> exact kind
    · cases slot <;> exact label
    · intro other key
      rw [Layer.lookUp_write, ← holds, Frame.write_slot]
      by_cases same : other = slot
      · subst same
        rw [if_pos rfl, if_pos rfl, Table.get?_merge]
      · rw [if_neg same, if_neg same, Option.none_or]

-- Members are nobody's to take over.
theorem addMembers (represents : Represents frames layers) (ids : List String) :
    Represents (Nesting.carry ids frames) layers := by
  cases represents with
  | outside => exact .outside
  | inside around kind label holds =>
    rw [Nesting.carry, addMembers_eq]
    exact around.inside kind label fun slot key => by rw [← holds slot key]; cases slot <;> rfl

theorem enter {nesting : Nesting} (represents : Represents nesting.frames layers) (kind : ScopeKind)
    (label : Option String) (line : Int) :
    Represents (nesting.enter kind label line).1.frames (Layer.blank kind label :: layers) := by
  unfold Nesting.enter
  cases frames : nesting.frames with
  | nil =>
    rw [frames] at represents
    cases represents
    exact Represents.outside.inside rfl rfl fun slot key => by cases slot <;> rfl
  | cons top outer =>
    rw [frames] at represents
    refine represents.inside rfl rfl ?_
    cases represents with
    | inside around kind label holds =>
      intro slot key
      rw [Layer.lookUp_cons, ← holds]
      cases slot <;> rfl

theorem attempt {nesting : Nesting} (represents : Represents nesting.frames layers) (call : Nesting.Call) :
    Represents (nesting.attempt call).frames (Layer.attempt layers call) := by
  cases call with
  | enter kind label line =>
    cases known : ScopeKind.ofName? kind with
    | none => simpa [Nesting.attempt, Nesting.perform, Layer.attempt, known] using represents
    | some scope =>
      simpa [Nesting.attempt, Nesting.perform, Layer.attempt, known] using represents.enter scope label line
  | leave closer accepts line =>
    rw [Nesting.attempt_leave]
    generalize nesting.frames = frames at represents
    cases represents with
    | outside => exact .outside
    | inside around kind label holds =>
      simp only [Layer.attempt, ← kind]
      split
      · exact around.addMembers _
      · exact around.inside kind label holds
  | branch condition accepts line =>
    rw [Nesting.attempt_branch]
    generalize nesting.frames = frames at represents
    cases represents with
    | outside => exact .outside
    | inside around kind label holds =>
      simp only [Layer.attempt, ← kind]
      split
      · refine around.inside rfl rfl ?_
        rintro (_ | _ | _) key
        · exact holds .nodeDefaults key
        · exact holds .edgeDefaults key
        · exact holds .attrs key
      · exact around.inside kind label holds
  | refer id =>
    rw [Nesting.attempt_refer]
    exact represents.addMembers [id]
  | write slot values =>
    rw [Nesting.attempt_write]
    generalize nesting.frames = frames at represents
    cases represents with
    | outside => exact .outside
    | inside around kind label holds => exact (around.inside kind label holds).write slot values

theorem attemptAll {nesting : Nesting} (represents : Represents nesting.frames layers) (calls : List Nesting.Call) :
    Represents (nesting.attemptAll calls).frames (Layer.attemptAll layers calls) := by
  induction calls generalizing nesting layers with
  | nil => exact represents
  | cons call rest ih => exact ih (represents.attempt call)

-- What is read off the frames

theorem shapes (represents : Represents frames layers) :
    frames.map (fun frame => (frame.kind, frame.label)) = layers.map fun layer => (layer.kind, layer.label) := by
  induction represents with
  | outside => rfl
  | inside around kind label holds ih => simp [kind, label, ih]

-- Where no scope is open there is nobody to ask, and no layer to look through.
theorem innermost (represents : Represents frames layers) (slot : Slot) (key : String) :
    (frames.head?.bind fun top => (top.slot slot).get? key) = Layer.lookUp slot key layers := by
  cases represents with
  | outside => rfl
  | inside around kind label holds => exact holds slot key

theorem edgeAttrs {nesting : Nesting} (represents : Represents nesting.frames layers) (key : String) :
    nesting.edgeAttrs.get? key = Layer.lookUp .edgeDefaults key layers := by
  unfold Nesting.edgeAttrs
  split
  · rename_i frames
    rw [frames] at represents
    cases represents
    rfl
  · rename_i top outer frames
    rw [frames] at represents
    exact represents.innermost .edgeDefaults key

-- The innermost frame knows the rank of those around it, so that the search ends there or finds nothing.
theorem rank {nesting : Nesting} (represents : Represents nesting.frames layers) :
    nesting.rank? = Layer.lookUp .attrs "rank" layers := by
  unfold Nesting.rank?
  generalize nesting.frames = frames at represents
  induction represents with
  | outside => rfl
  | @inside frames layers around frame layer kind label holds ih =>
    have own : frame.attrs.get? "rank" = _ := holds .attrs "rank"
    rw [List.findSome?_cons, ih, own, Layer.lookUp_cons]
    cases (layer.written .attrs).get? "rank" with
    | some rank => rfl
    | none =>
      rw [Option.none_or]
      cases Layer.lookUp .attrs "rank" layers <;> rfl

theorem groups {nesting : Nesting} (represents : Represents nesting.frames layers) :
    nesting.groups = (layers.filterMap Layer.group?).reverse := by
  unfold Nesting.groups
  rw [List.filterMap_reverse]
  generalize nesting.frames = frames at represents
  induction represents with
  | outside => rfl
  | @inside frames layers around frame layer kind label holds ih =>
    have named : (if frame.kind = .subgraph then frame.label.filter (· ≠ "") else none) = layer.group? := by
      rw [kind, label]
      rfl
    have rest := List.reverse_inj.1 ih
    simp only [List.filterMap_cons, named, rest]

theorem nodeAttrs {nesting : Nesting} (represents : Represents nesting.frames layers) (key : String) :
    nesting.nodeAttrs.get? key = Layer.nodeAttr? layers key := by
  unfold Nesting.nodeAttrs Layer.nodeAttr? Layer.path?
  split
  · rename_i frames
    rw [frames] at represents
    cases represents
    simp [Layer.lookUp]
  · rename_i top outer frames
    have holds : ∀ key, top.nodeDefaults.get? key = Layer.lookUp .nodeDefaults key layers := by
      rw [frames] at represents
      exact represents.innermost .nodeDefaults
    rw [represents.groups, represents.rank, List.getLast?_reverse, ← List.head?_filterMap]
    cases layers.filterMap Layer.group? <;> cases Layer.lookUp .attrs "rank" layers <;>
      simp [Table.get?_set_or, holds]

end Represents

namespace Nesting

theorem attemptAll_inherits (calls : List Call) :
    let nesting := empty.attemptAll calls
    let layers := Layer.attemptAll [] calls
    nesting.frames.map (fun frame => (frame.kind, frame.label)) =
      layers.map (fun layer => (layer.kind, layer.label)) ∧
    (∀ slot key, (nesting.innermost?.bind fun top => (top.slot slot).get? key) = Layer.lookUp slot key layers) ∧
    (∀ key, nesting.nodeAttrs.get? key = Layer.nodeAttr? layers key) ∧
    ∀ key, nesting.edgeAttrs.get? key = Layer.lookUp .edgeDefaults key layers := by
  intro nesting layers
  have represents : Represents nesting.frames layers := Represents.outside.attemptAll calls
  exact ⟨represents.shapes, represents.innermost, represents.nodeAttrs, represents.edgeAttrs⟩

-- A scope that was refused its closer stays open; one that was closed takes its defaults with it.
example :
    let red : Attrs := Table.ofList [("color", "red")]
    let blue : Attrs := Table.ofList [("color", "blue")]
    let calls : List Call :=
      [.enter "graph" none 1, .write .nodeDefaults red, .enter "subgraph" (some "s") 2, .write .nodeDefaults blue,
       .leave "end" ScopeKind.isBlock 3, .leave "\x7d" ScopeKind.isGraph 4, .enter "subgraph" (some "t") 5]
    (empty.attemptAll calls).nodeAttrs = Table.ofList [("color", "red"), ("group", "t"), ("group_path", "t")] := by
  decide

end Nesting
end DiagramStream
