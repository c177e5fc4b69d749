import StatefulPipeline.Decision

/-! The registry of automata. Each target has an automaton: transitions in the order in which they
were added, and a decision for some of its states. A state and a trigger lead to one state at
most. An edit that is refused leaves the registry as it was. -/

namespace StatefulPipeline

/-- A named class of stateful network function; `lookupAction` fetches the state of its flows. -/
structure Target where
  name : String
  id : TargetId
  lookupAction : String
deriving DecidableEq, Repr

/-- One edge of a target's automaton. -/
structure Transition where
  target : TargetId
  trigger : Trigger
  current : StateId
  next : StateId
deriving DecidableEq, Repr

structure ActionBinding where
  target : TargetId
  state : StateId
  decision : Decision
deriving DecidableEq, Repr

inductive RegistryError where
  | duplicateTarget (name : String) (id : TargetId)
  | conflictingTransition (requested : Transition) (existing : StateId)
  | unknownTarget (id : TargetId)
deriving DecidableEq, Repr

def RegistryError.message : RegistryError → String
  | duplicateTarget name id => s!"duplicate target: {name} (id {id})"
  | conflictingTransition t existing =>
    let trigger := String.ofList (Numeral.hex t.trigger.toNat)
    s!"conflicting transition for target {t.target}: ({t.current}, trigger 0x{trigger}) " ++
      s!"already leads to {existing}, not {t.next}"
  | unknownTarget id => s!"unknown target id: {id}"

/-- A target with its automaton. -/
structure Machine where
  target : Target
  transitions : List Transition
  decisions : SortedMap StateId Decision
deriving DecidableEq

namespace Machine

def new (target : Target) : Machine := ⟨target, [], .empty⟩

def edge? (m : Machine) (trigger : Trigger) (current : StateId) : Option Transition :=
  m.transitions.find? fun t => t.trigger = trigger ∧ t.current = current

def addTransition (m : Machine) (t : Transition) : Machine :=
  { m with transitions := m.transitions ++ [t] }

def bind (m : Machine) (state : StateId) (decision : Decision) : Machine :=
  { m with decisions := m.decisions.insert state decision }

end Machine

/-- The registered automata, in the order of registration. -/
structure Registry where
  machines : List Machine
deriving DecidableEq

inductive Edit where
  | register (target : Target)
  | addTransition (transition : Transition)
  | bind (target : TargetId) (state : StateId) (decision : Decision)
deriving DecidableEq, Repr

/-- What an edit came to. Adding an edge that is there already is `known`. -/
inductive EditReply where
  | done
  | added
  | known
  | refused (error : RegistryError)
deriving DecidableEq, Repr

namespace Registry

def empty : Registry := ⟨[]⟩

def machine? (r : Registry) (id : TargetId) : Option Machine :=
  r.machines.find? fun m => m.target.id = id

def target? (r : Registry) (id : TargetId) : Option Target := (r.machine? id).map Machine.target

def targetNamed? (r : Registry) (name : String) : Option Target :=
  (r.machines.find? fun m => m.target.name = name).map Machine.target

def targets (r : Registry) : List Target := r.machines.map Machine.target

/-- The transitions of a target, in the order in which they were added. -/
def transitionsFor (r : Registry) (id : TargetId) : List Transition :=
  match r.machine? id with
  | some m => m.transitions
  | none => []

/-- The decisions of a target, in the order of the states. -/
def actionsFor (r : Registry) (id : TargetId) : List ActionBinding :=
  match r.machine? id with
  | some m => m.decisions.toList.map fun e => ⟨id, e.1, e.2⟩
  | none => []

def step (r : Registry) (id : TargetId) (trigger : Trigger) (current : StateId) :
    Option StateId :=
  match r.machine? id with
  | some m => (m.edge? trigger current).map Transition.next
  | none => none

def update (r : Registry) (id : TargetId) (f : Machine → Machine) : Registry :=
  ⟨r.machines.map fun m => if m.target.id = id then f m else m⟩

/-- Registers a target whose name and id are both new. -/
def register (r : Registry) (target : Target) : Except RegistryError Registry :=
  if r.machines.any fun m => m.target.name = target.name ∨ m.target.id = target.id then
    .error (.duplicateTarget target.name target.id)
  else .ok ⟨r.machines ++ [.new target]⟩

/-- Adds an edge to a target's automaton, and says whether it was not there before. -/
def addTransition (r : Registry) (t : Transition) : Except RegistryError (Registry × Bool) :=
  match r.machine? t.target with
  | none => .error (.unknownTarget t.target)
  | some m =>
    match m.edge? t.trigger t.current with
    | none => .ok (r.update t.target fun m => m.addTransition t, true)
    | some existing =>
      if existing.next = t.next then .ok (r, false)
      else .error (.conflictingTransition t existing.next)

/-- Sets the decision of a state; an earlier one is replaced. -/
def bind (r : Registry) (id : TargetId) (state : StateId) (decision : Decision) :
    Except RegistryError Registry :=
  match r.machine? id with
  | none => .error (.unknownTarget id)
  | some _ => .ok (r.update id fun m => m.bind state decision)

/-- Makes one change; a refused one changes nothing. -/
def edit (r : Registry) : Edit → Registry × EditReply
  | .register target =>
    match r.register target with
    | .ok r' => (r', .done)
    | .error e => (r, .refused e)
  | .addTransition t =>
    match r.addTransition t with
    | .ok (r', new) => (r', if new then .added else .known)
    | .error e => (r, .refused e)
  | .bind id state decision =>
    match r.bind id state decision with
    | .ok r' => (r', .done)
    | .error e => (r, .refused e)

/-- Makes changes in order up to the first that is refused; those before it stay. -/
def editAll (r : Registry) : List Edit → Registry × EditReply
  | [] => (r, .done)
  | e :: es =>
    match r.edit e with
    | (r', .refused error) => (r', .refused error)
    | (r', _) => r'.editAll es

end Registry

end StatefulPipeline
