import DiagramStream.Proofs.Nesting

/-!
What is asked of the scopes, carried out one write after the other, so that a failure would leave behind what was
written before it. Main statement: nothing ever is, and the whole comes to the same as when it is done at once.
-/

namespace DiagramStream.Nesting

-- A failure does not take back what was written.
abbrev Steps := ExceptT Failure (StateM Nesting)

namespace Steps
variable {α : Type}

-- What the steps answer and what they leave.
def on (steps : Steps α) (nesting : Nesting) : Except Failure α × Nesting := steps.run.run nesting

@[simp] theorem on_pure (answer : α) (nesting : Nesting) :
    (pure answer : Steps α).on nesting = (.ok answer, nesting) := rfl

@[simp] theorem on_throw (failure : Failure) (nesting : Nesting) :
    (throw failure : Steps α).on nesting = (.error failure, nesting) := rfl

@[simp] theorem on_get (nesting : Nesting) : (get : Steps Nesting).on nesting = (.ok nesting, nesting) := rfl

@[simp] theorem on_modify (change : Nesting → Nesting) (nesting : Nesting) :
    (modify change : Steps PUnit).on nesting = (.ok ⟨⟩, change nesting) := rfl

@[simp] theorem on_bind {β : Type} (steps : Steps α) (next : α → Steps β) (nesting : Nesting) :
    (steps >>= next).on nesting =
      match steps.on nesting with
      | (.error failure, after) => (.error failure, after)
      | (.ok answer, after) => (next answer).on after := by
  unfold on ExceptT.run StateT.run
  simp only [bind, ExceptT.bind, ExceptT.mk, StateT.bind, ExceptT.bindCont]
  rcases steps nesting with ⟨result, after⟩
  cases result <;> rfl

@[simp] theorem on_map {β : Type} (change : α → β) (steps : Steps α) (nesting : Nesting) :
    (change <$> steps).on nesting = ((steps.on nesting).1.map change, (steps.on nesting).2) := by
  rw [← bind_pure_comp, on_bind]
  rcases steps.on nesting with ⟨result, after⟩
  cases result <;> rfl

def push (frame : Frame) : Steps Unit :=
  modify fun nesting => { nesting with frames := frame :: nesting.frames }

-- Takes off the innermost frame, if the closer may close it.
def pop (closer : String) (accepts : ScopeKind → Bool) (line : Int) : Steps Frame := do
  match (← get).frames with
  | [] => throw (.nothingToClose closer line)
  | top :: outer =>
    if accepts top.kind then
      modify fun nesting => { nesting with frames := outer }
      return top
    else throw (.wrongCloser closer line top.kind top.line)

-- The number is spent before the frame is in place.
def enter (kind : String) (label : Option String) (line : Int) : Steps Frame := do
  let around ← get
  match ScopeKind.ofName? kind with
  | none => throw (.unknownScopeKind kind)
  | some scope =>
    let bare : Frame :=
      ⟨scope, label, around.innermost?.map fun _ => around.depth - 1, around.nextBlock, 0, line, Table.empty,
        Table.empty, Table.empty, []⟩
    modify fun nesting => { nesting with nextBlock := nesting.nextBlock + 1 }
    let frame := match around.innermost? with
      | none => bare
      | some outer =>
        { bare with nodeDefaults := outer.nodeDefaults, edgeDefaults := outer.edgeDefaults, attrs := outer.attrs }
    push frame
    return frame

def refer (id : String) : Steps Unit := modify fun nesting => nesting.addMember id

-- The members carry over one by one.
def leave (closer : String) (accepts : ScopeKind → Bool) (line : Int) : Steps Frame := do
  let closed ← pop closer accepts line
  forM closed.members refer
  return closed

def branch (condition : Option String) (accepts : ScopeKind → Bool) (line : Int) : Steps Frame := do
  let closed ← pop "else" accepts line
  let frame := { closed with label := condition, branch := closed.branch + 1, line := line, members := [] }
  push frame
  return frame

def write (slot : Slot) (values : Attrs) : Steps Unit :=
  modify fun nesting => nesting.update (·.write values slot)

def ensureClosed : Steps Unit := do
  match (← get).frames with
  | [] => return ()
  | top :: _ => throw (.neverClosed top.kind top.line)

end Steps

-- What is answered and left where all is done at once, or nothing.
def settle {α : Type} (nesting : Nesting) : Except Failure (Nesting × α) → Except Failure α × Nesting
  | .error failure => (.error failure, nesting)
  | .ok (after, answer) => (.ok answer, after)

namespace Steps
variable (nesting : Nesting)

theorem pop_on (closer : String) (accepts : ScopeKind → Bool) (line : Int) :
    (pop closer accepts line).on nesting =
      nesting.settle ((nesting.split closer accepts line).map fun parts =>
        ({ nesting with frames := parts.2 }, parts.1)) := by
  unfold split
  cases frames : nesting.frames with
  | nil => simp [pop, frames, settle, Except.map]
  | cons top outer =>
    by_cases accepted : accepts top.kind = true
    · simp [pop, frames, accepted, settle, Except.map]
    · simp [pop, frames, accepted, settle, Except.map]

theorem enter_on (kind : String) (label : Option String) (line : Int) :
    (enter kind label line).on nesting =
      nesting.settle (match ScopeKind.ofName? kind with
        | none => .error (.unknownScopeKind kind)
        | some scope => .ok (nesting.enter scope label line)) := by
  cases known : ScopeKind.ofName? kind with
  | none => simp [enter, known, settle]
  | some scope =>
    cases frames : nesting.frames with
    | nil => simp [enter, known, settle, push, innermost?, Nesting.enter, frames, Except.map]
    | cons top outer => simp [enter, known, settle, push, innermost?, Nesting.enter, frames, Except.map]

theorem forM_refer_on (ids : List String) :
    (forM ids refer).on nesting = (.ok ⟨⟩, { nesting with frames := carry ids nesting.frames }) := by
  induction ids generalizing nesting with
  | nil =>
    cases frames : nesting.frames <;> simp [carry, Frame.addMembers, ← frames]
  | cons id rest ih =>
    simp only [List.forM_cons, on_bind, refer, on_modify, addMember, update]
    cases frames : nesting.frames with
    | nil => simp [ih, carry, frames]
    | cons top outer => simp [ih, carry, Frame.addMembers]

theorem leave_on (closer : String) (accepts : ScopeKind → Bool) (line : Int) :
    (leave closer accepts line).on nesting = nesting.settle (nesting.leave closer accepts line) := by
  simp only [leave, on_bind, pop_on, Nesting.leave]
  cases nesting.split closer accepts line with
  | error failure => rfl
  | ok parts => simp [settle, Except.map, forM_refer_on _ parts.1.members]

theorem branch_on (condition : Option String) (accepts : ScopeKind → Bool) (line : Int) :
    (branch condition accepts line).on nesting = nesting.settle (nesting.branch condition accepts line) := by
  simp only [branch, on_bind, pop_on, Nesting.branch]
  cases nesting.split "else" accepts line with
  | error failure => rfl
  | ok parts => simp [settle, Except.map, push]

theorem ensureClosed_on :
    ensureClosed.on nesting = (nesting.ensureClosed, nesting) := by
  cases frames : nesting.frames <;> simp [ensureClosed, Nesting.ensureClosed, frames]

end Steps

-- What can be asked, the check at the end of a text included.
inductive Request where
  | call (call : Call)
  | ensureClosed

-- The frame that is handed over, where there is one.
def Request.steps : Request → Steps (Option Frame)
  | .call (.enter kind label line) => some <$> Steps.enter kind label line
  | .call (.leave closer accepts line) => some <$> Steps.leave closer accepts line
  | .call (.branch condition accepts line) => some <$> Steps.branch condition accepts line
  | .call (.refer id) => do
    Steps.refer id
    return none
  | .call (.write slot values) => do
    Steps.write slot values
    return none
  | .ensureClosed => do
    Steps.ensureClosed
    return none

-- What is answered, with what is then left. A refusal leaves nothing of its own.
def answer (nesting : Nesting) : Request → Except Failure (Nesting × Option Frame)
  | .call (.enter kind label line) =>
    match ScopeKind.ofName? kind with
    | none => .error (.unknownScopeKind kind)
    | some scope => .ok ((nesting.enter scope label line).map id some)
  | .call (.leave closer accepts line) => (nesting.leave closer accepts line).map (Prod.map id some)
  | .call (.branch condition accepts line) => (nesting.branch condition accepts line).map (Prod.map id some)
  | .call (.refer id) => .ok (nesting.addMember id, none)
  | .call (.write slot values) => .ok (nesting.update (·.write values slot), none)
  | .ensureClosed => nesting.ensureClosed.map fun _ => (nesting, none)

theorem settle_map {α β : Type} (nesting : Nesting) (result : Except Failure (Nesting × α)) (change : α → β) :
    nesting.settle (result.map (Prod.map id change)) =
      ((nesting.settle result).1.map change, (nesting.settle result).2) := by
  cases result <;> rfl

theorem steps_on (nesting : Nesting) (request : Request) :
    request.steps.on nesting = nesting.settle (nesting.answer request) := by
  cases request with
  | ensureClosed =>
    simp only [Request.steps, Steps.on_bind, Steps.ensureClosed_on, answer]
    cases nesting.ensureClosed <;> rfl
  | call call =>
    cases call with
    | enter kind label line =>
      rw [Request.steps, Steps.on_map, Steps.enter_on, answer, ← settle_map]
      cases ScopeKind.ofName? kind <;> rfl
    | leave closer accepts line => rw [Request.steps, Steps.on_map, Steps.leave_on, answer, settle_map]
    | branch condition accepts line => rw [Request.steps, Steps.on_map, Steps.branch_on, answer, settle_map]
    | refer id => rfl
    | write slot values => rfl

end DiagramStream.Nesting
