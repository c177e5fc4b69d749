import StatefulPipeline.Blank
import StatefulPipeline.Controller

/-! Service operations for an operator: each ends with a status that carries an exit code, the
report of its rules, and the error if there was one. -/

namespace StatefulPipeline

inductive ExitCode where
  | ok
  | failure
deriving DecidableEq, Repr

def ExitCode.toNat : ExitCode → Nat
  | ok => 0
  | failure => 1

/-- How a service operation ended; `register` is the one that a bind took. -/
structure Status where
  code : ExitCode
  report : Report
  register : Option RegisterId
  error : Option ControlError
deriving DecidableEq, Repr

namespace Status

def ok (report : Report) (register : Option RegisterId) : Status := ⟨.ok, report, register, none⟩

def failed (error : ControlError) : Status := ⟨.failure, .empty, none, some error⟩

def isOk (s : Status) : Bool := s.code = .ok

end Status

/-- Reads a port: decimal digits with an optional plus sign, white space around them. -/
def Port.read? (text : String) : Option Port :=
  (Numeral.atMost? (UInt64.size - 1) (Blank.trim text.toList)).map UInt64.ofNat

structure BindText where
  service : String
  register : Option RegisterId
  selector : Selector
  port : Option String
deriving DecidableEq, Repr

/-- Reads the port of a bind before anything else is looked at. -/
def BindText.read (q : BindText) : Except ControlError BindRequest :=
  match q.port with
  | none => .ok ⟨q.service, q.register, q.selector, none⟩
  | some text =>
    match Port.read? text with
    | some port => .ok ⟨q.service, q.register, q.selector, some port⟩
    | none => .error (.invalidPort text)

namespace Controller

def startStatus (c : Controller) (service : String) : Controller × Status :=
  match c.start service with
  | (c', .ok report) => (c', .ok report none)
  | (c', .error e) => (c', .failed e)

/-- Nothing is defined that would take rules away, so stopping always succeeds. -/
def stopStatus (c : Controller) (_service : String) : Controller × Status :=
  (c, .ok .empty none)

def bindStatus (c : Controller) (q : BindText) : Controller × Status :=
  match q.read with
  | .error e => (c, .failed e)
  | .ok request =>
    match c.bind request with
    | (c', .ok outcome) => (c', .ok outcome.report (some outcome.register))
    | (c', .error e) => (c', .failed e)

end Controller

end StatefulPipeline
