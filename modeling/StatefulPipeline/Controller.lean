import StatefulPipeline.Allocation
import StatefulPipeline.Compile
import StatefulPipeline.Fabric

/-! The controller: it starts services on a device and binds flows into them. A selector is bound
once at most over all targets, since two state rules with the same terms would shadow each other.
The rules of a bind are compiled before anything is recorded, so that a refused bind leaves no
allocation behind. -/

namespace StatefulPipeline

inductive ControlError where
  | unknownService (service : String)
  | noDevice
  | registerInUse (service : String) (register : RegisterId)
  | selectorInUse (service : String) (register : RegisterId)
  | registersExhausted (service : String)
  | invalidPort (text : String)
  | compile (error : CompileError)
deriving DecidableEq, Repr

def ControlError.message : ControlError → String
  | unknownService service => "unknown service: " ++ service
  | noDevice => "no pipeline device available"
  | registerInUse service register => s!"register {register} already bound for service {service}"
  | selectorInUse service register =>
    s!"selector already bound to service {service} (register {register})"
  | registersExhausted service => "register ids exhausted for service " ++ service
  | invalidPort text => "invalid output port: " ++ text
  | compile e => "compile error: " ++ e.message

/-- Why a single rule did not reach the device. -/
inductive RuleFailure where
  | compile (error : CompileError)
  | install (table : Table) (error : InstallError)
deriving DecidableEq, Repr

def RuleFailure.message : RuleFailure → String
  | compile e => e.message
  | install table e => table.name ++ ": " ++ e.message

/-- What became of each rule of an operation. -/
structure Report where
  installed : List Rule
  failures : List RuleFailure
deriving DecidableEq, Repr

namespace Report

def empty : Report := ⟨[], []⟩

def isComplete (r : Report) : Bool := r.failures.isEmpty

end Report

structure BindRequest where
  service : String
  register : Option RegisterId
  selector : Selector
  port : Option Port
deriving DecidableEq, Repr

structure BindOutcome where
  register : RegisterId
  report : Report
deriving DecidableEq, Repr

/-- The controller with the devices it works on. Schema and registry never change. -/
structure Controller where
  schema : Schema
  registry : Registry
  fabric : Fabric
  defaultDevice : Option DeviceId
  slots : SortedMap TargetId Slot
  owners : SortedMap (List (FieldRef × Int)) (TargetId × RegisterId)
deriving DecidableEq

namespace Fabric

/-- Installs compiled rules one by one. A rule that did not compile or is rejected does not stop
those after it. -/
def installEach (f : Fabric) (device : DeviceId) :
    List (Except CompileError Rule) → Fabric × Report
  | [] => (f, .empty)
  | .error e :: rest =>
    let (f', report) := f.installEach device rest
    (f', { report with failures := .compile e :: report.failures })
  | .ok rule :: rest =>
    match f.install device [rule] with
    | .ok f₁ =>
      let (f', report) := f₁.installEach device rest
      (f', { report with installed := rule :: report.installed })
    | .error e =>
      let (f', report) := f.installEach device rest
      (f', { report with failures := .install rule.table e :: report.failures })

end Fabric

namespace Schema

/-- The largest register that the register parameter of a lookup action can carry. -/
def maxRegister (schema : Schema) (lookupAction : String) : Except SchemaError RegisterId :=
  match schema.paramWidth lookupAction Name.registerId with
  | .error e => .error e
  | .ok width => .ok (UInt32.ofNat (Encoded.span (Nat.min width.toNat 32) - 1))

/-- The rules of one bound flow: its state rule, and a forward rule if it has a port. -/
def compileFlow (schema : Schema) (target : Target) (register : RegisterId) (selector : Selector)
    (port : Option Port) : Except CompileError (List Rule) :=
  match schema.compileLookup selector target.lookupAction target.id register with
  | .error e => .error e
  | .ok lookup =>
    match port with
    | none => .ok [lookup]
    | some p =>
      match schema.compileForward selector p with
      | .error e => .error e
      | .ok forward => .ok [lookup, forward]

end Schema

namespace Controller

def new (schema : Schema) (registry : Registry) (devices : List DeviceId) : Controller where
  schema := schema
  registry := registry
  fabric := .new devices
  defaultDevice := none
  slots := .empty
  owners := .empty

def withDefaultDevice (c : Controller) (device : DeviceId) : Controller :=
  { c with defaultDevice := some device }

/-- A device that has come up becomes the default if its id ends in `#1`. -/
def deviceInitialized (c : Controller) (device : DeviceId) : Controller :=
  if ['#', '1'].isSuffixOf device.toList then c.withDefaultDevice device else c

def failTable (c : Controller) (table : Table) : Controller :=
  { c with fabric := c.fabric.failTable table }

def target (c : Controller) (service : String) : Except ControlError Target :=
  match c.registry.targetNamed? service with
  | some t => .ok t
  | none => .error (.unknownService service)

/-- The device to install on: the default, or else the first that is reachable. -/
def device? (c : Controller) : Option DeviceId :=
  match c.defaultDevice with
  | some device => some device
  | none => c.fabric.devices.head?

def slot (c : Controller) (target : TargetId) : Slot := (c.slots.get? target).getD .empty

def setSlot (c : Controller) (target : TargetId) (slot : Slot) : Controller :=
  { c with slots := c.slots.insert target slot }

def allocations (c : Controller) (target : TargetId) : List Allocation :=
  (c.slot target).live.values

/-- How an owner is called: by its name, or by its number if it has none. -/
def ownerName (c : Controller) (owner : TargetId) : String :=
  match c.registry.target? owner with
  | some t => t.name
  | none => toString owner

/-- Installs every action and state transfer rule of a service. -/
def start (c : Controller) (service : String) : Controller × Except ControlError Report :=
  match c.target service with
  | .error e => (c, .error e)
  | .ok target =>
    match c.device? with
    | none => (c, .error .noDevice)
    | some device =>
      let c₁ := c.withDefaultDevice device
      match c.schema.compileService c.registry target.id with
      | .error e => (c₁, .error (.compile e))
      | .ok results =>
        let (fabric, report) := c₁.fabric.installEach device results
        ({ c₁ with fabric := fabric }, .ok report)

/-- Takes the requested register if it is free, or draws one. -/
def claim (slot : Slot) (service : String) (max : RegisterId) :
    Option RegisterId → Slot × Except ControlError RegisterId
  | some register =>
    if slot.live.contains register then (slot, .error (.registerInUse service register))
    else (slot, .ok register)
  | none =>
    match slot.draw max with
    | (slot', some register) => (slot', .ok register)
    | (slot', none) => (slot', .error (.registersExhausted service))

/-- Takes note of a bound flow. -/
def record (c : Controller) (a : Allocation) : Controller :=
  { c.setSlot a.target ((c.slot a.target).record a) with
    owners := c.owners.insert a.selector.key (a.target, a.register) }

/-- The part of a bind that concerns one target: claims a register, compiles the rules of the flow
and takes note of it. -/
def reserve (c : Controller) (target : Target) (max : RegisterId) (q : BindRequest) :
    Controller × Except ControlError (RegisterId × List Rule) :=
  match claim (c.slot target.id) q.service max q.register with
  | (slot, .error e) => (c.setSlot target.id slot, .error e)
  | (slot, .ok register) =>
    let c₁ := c.setSlot target.id slot
    match c.schema.compileFlow target register q.selector q.port with
    | .error e => (c₁, .error (.compile e))
    | .ok rules =>
      (c₁.record ⟨target.id, register, q.selector, q.port⟩, .ok (register, rules))

/-- Routes the traffic of a selector into a service's automaton. Without a requested register the
next free one is drawn, up to the largest that the lookup action can carry. -/
def bind (c : Controller) (q : BindRequest) : Controller × Except ControlError BindOutcome :=
  match c.target q.service with
  | .error e => (c, .error e)
  | .ok target =>
    match c.device? with
    | none => (c, .error .noDevice)
    | some device =>
      let c₁ := c.withDefaultDevice device
      match c.schema.maxRegister target.lookupAction with
      | .error e => (c₁, .error (.compile (.schema e)))
      | .ok max =>
        match c.owners.get? q.selector.key with
        | some (owner, register) =>
          (c₁, .error (.selectorInUse (c.ownerName owner) register))
        | none =>
          match c₁.reserve target max q with
          | (c₂, .error e) => (c₂, .error e)
          | (c₂, .ok (register, rules)) =>
            let (fabric, report) :=
              c₂.fabric.installEach device ((Rule.sortForInstall rules).map .ok)
            ({ c₂ with fabric := fabric }, .ok ⟨register, report⟩)

end Controller

/-- An operation on a controller. Stopping a service leaves its rules in place. -/
inductive ControlRequest where
  | deviceInitialized (device : DeviceId)
  | failTable (table : Table)
  | start (service : String)
  | stop (service : String)
  | bind (request : BindRequest)
deriving DecidableEq, Repr

inductive ControlReply where
  | done
  | started (result : Except ControlError Report)
  | bound (result : Except ControlError BindOutcome)

namespace Controller

def handle (c : Controller) : ControlRequest → Controller × ControlReply
  | .deviceInitialized device => (c.deviceInitialized device, .done)
  | .failTable table => (c.failTable table, .done)
  | .start service => ((c.start service).1, .started (c.start service).2)
  | .stop _ => (c, .done)
  | .bind q => ((c.bind q).1, .bound (c.bind q).2)

def run (c : Controller) : List ControlRequest → Controller × List ControlReply
  | [] => (c, [])
  | q :: qs =>
    let (c₁, reply) := c.handle q
    let (c₂, replies) := c₁.run qs
    (c₂, reply :: replies)

end Controller

end StatefulPipeline
