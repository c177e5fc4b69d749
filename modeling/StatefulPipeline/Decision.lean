import StatefulPipeline.Schema

/-! Forwarding decisions and the pipeline actions that carry them out. Every decision has an
action: one that the pipeline cannot express, such as a port wider than the forward action's
parameter, becomes a drop. -/

namespace StatefulPipeline

/-- What happens to traffic once an automaton has reached a state. -/
inductive Decision where
  | drop
  | sendToController
  | outputPort (port : Port)
deriving DecidableEq, Repr

/-- One instruction of a treatment. -/
inductive Instruction where
  | output (port : Port)
  | outputController
  | setField (field : FieldRef) (value : Int)
  | meter (id : UInt32)
deriving DecidableEq, Repr

structure ActionParam where
  name : String
  value : Encoded
deriving DecidableEq, Repr

structure Action where
  name : String
  params : List ActionParam
deriving DecidableEq, Repr

namespace Action

def named (name : String) : Action := ⟨name, []⟩

def param? (action : Action) (name : String) : Option Encoded :=
  (action.params.find? fun p => p.name = name).map ActionParam.value

end Action

namespace Schema

/-- Sends traffic out of a port if the forward action can name it, and drops it otherwise. -/
def forwardTo (schema : Schema) (port : Port) : Action :=
  match schema.paramWidth Name.forward Name.port with
  | .error _ => .named Name.drop
  | .ok width =>
    match Encoded.fit port.toNat width.toNat with
    | .error _ => .named Name.drop
    | .ok value => ⟨Name.forward, [⟨Name.port, value⟩]⟩

def actionOf (schema : Schema) : Decision → Action
  | .drop => .named Name.drop
  | .sendToController => .named Name.sendToCpu
  | .outputPort port => schema.forwardTo port

/-- The action of a treatment: its first instruction counts, and only an output forwards. -/
def actionOfTreatment (schema : Schema) : List Instruction → Action
  | .output port :: _ => schema.forwardTo port
  | .outputController :: _ => schema.actionOf .sendToController
  | _ => .named Name.drop

end Schema

end StatefulPipeline
