import StatefulPipeline.Schema

/-! Pipeline configurations: a named pipeline program with its fields and actions in the order in
which they are declared, and the devices it is meant for. -/

namespace StatefulPipeline

/-- The device to install on by default, and those that the controller may see. -/
structure DeviceConfig where
  default : Option String
  available : List String
deriving DecidableEq, Repr

structure Config where
  name : String
  description : Option String
  fields : List (FieldRef × FieldSpec)
  actions : List ActionSpec
  devices : Option DeviceConfig
deriving DecidableEq, Repr

namespace Config

def declarations (c : Config) : List Declaration :=
  c.fields.map (fun f => .field f.1 f.2) ++ c.actions.map .action

/-- The schema that a configuration describes, if it is a valid one. -/
def toSchema (c : Config) : Except SchemaError Schema := Schema.build c.declarations

def ofSchema (name : String) (schema : Schema) : Config where
  name := name
  description := none
  fields := schema.fieldList
  actions := schema.actionList
  devices := none

def builtin : Config := ofSchema "stateful" Schema.stateful

end Config

end StatefulPipeline
