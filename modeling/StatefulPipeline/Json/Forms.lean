import StatefulPipeline.Json
import StatefulPipeline.Registry
import StatefulPipeline.Rule

/-! Rules, targets and automata as JSON. The members of an object stand in the order of their
names. -/

namespace StatefulPipeline

def Encoded.json (e : Encoded) : Json := .text e.hex

def FieldRef.json (f : FieldRef) : Json :=
  .object [("field", .text f.name), ("scope", .text f.scope)]

def Action.json (a : Action) : Json :=
  .object
    [("name", .text a.name),
      ("params", .array (a.params.map fun p =>
        .object [("name", .text p.name), ("value", p.value.json)]))]

def Rule.json (r : Rule) : Json :=
  .object
    [("action", r.action.json),
      ("matches", .array (r.terms.map fun m =>
        .object [("field", m.field.json), ("value", m.value.json)])),
      ("priority", .number r.priority),
      ("table", .text r.table.name)]

def Target.json (t : Target) : Json :=
  .object
    [("id", .number t.id.toNat), ("lookup_action", .text t.lookupAction), ("name", .text t.name)]

def Transition.json (t : Transition) : Json :=
  .object
    [("cur_state", .number t.current.toNat),
      ("next_state", .number t.next.toNat),
      ("target", .number t.target.toNat),
      ("trigger", .number t.trigger.toNat)]

def Decision.json : Decision → Json
  | drop => .text "Drop"
  | sendToController => .text "SendToController"
  | outputPort port => .object [("OutputPort", .number port.toNat)]

def ActionBinding.json (b : ActionBinding) : Json :=
  .object
    [("decision", b.decision.json),
      ("state", .number b.state.toNat),
      ("target", .number b.target.toNat)]

end StatefulPipeline
