import StatefulPipeline.Encoded
import StatefulPipeline.SortedMap
import StatefulPipeline.Vocabulary

/-! The static description of a pipeline: five fixed tables, and the fields and actions that a
program declares. A schema is grown declaration by declaration; a declaration that is refused
leaves it as it was. -/

namespace StatefulPipeline

/-- The five match-action tables, in the order in which a packet meets them. -/
inductive Table where
  | controller
  | forward
  | state
  | stateTransfer
  | action
deriving DecidableEq, Repr

structure FieldRef where
  scope : String
  name : String
deriving DecidableEq, Repr

structure FieldSpec where
  width : Width
  signed : Bool
deriving DecidableEq, Repr

structure ParamSpec where
  name : String
  width : Width
deriving DecidableEq, Repr

structure ActionSpec where
  name : String
  params : List ParamSpec
deriving DecidableEq, Repr

inductive SchemaError where
  | unknownTable (name : String)
  | unknownTableId (id : UInt8)
  | unknownField (field : FieldRef)
  | unknownAction (name : String)
  | unknownParam (action param : String)
  | duplicate (name : String)
  | invalidWidth (name : String) (width : Width)
deriving DecidableEq, Repr

namespace Table

def all : List Table := [controller, forward, state, stateTransfer, action]

def id : Table → UInt8
  | controller => 0
  | forward => 1
  | state => 2
  | stateTransfer => 3
  | action => 4

def name : Table → String
  | controller => "controller_table"
  | forward => "forward_table"
  | state => "state_table"
  | stateTransfer => "state_transfer_table"
  | action => "action_table"

def ofId (id : UInt8) : Except SchemaError Table :=
  match all.find? fun t => t.id = id with
  | some t => .ok t
  | none => .error (.unknownTableId id)

def ofName (name : String) : Except SchemaError Table :=
  match all.find? fun t => t.name = name with
  | some t => .ok t
  | none => .error (.unknownTable name)

end Table

namespace FieldRef

def metadata (name : String) : FieldRef := ⟨Name.stateMetadata, name⟩

/-- Scope and name with a point between them. -/
def path (field : FieldRef) : String := field.scope ++ "." ++ field.name

instance : Key FieldRef := Key.along (fun f => (f.scope, f.name)) fun a b h => by
  cases a
  cases b
  simp_all

end FieldRef

def SchemaError.message : SchemaError → String
  | unknownTable name => "unknown table: " ++ name
  | unknownTableId id => s!"unknown table id: {id}"
  | unknownField field => "unknown field: " ++ field.path
  | unknownAction name => "unknown action: " ++ name
  | unknownParam action param => "unknown parameter " ++ param ++ " of action " ++ action
  | duplicate name => "duplicate definition: " ++ name
  | invalidWidth name width => s!"invalid width {width} for {name}"

def ActionSpec.param? (spec : ActionSpec) (name : String) : Option ParamSpec :=
  spec.params.find? fun p => p.name = name

structure Schema where
  fields : SortedMap FieldRef FieldSpec
  actions : SortedMap String ActionSpec
deriving DecidableEq

/-- One step of describing a pipeline program. -/
inductive Declaration where
  | field (field : FieldRef) (spec : FieldSpec)
  | action (spec : ActionSpec)
deriving DecidableEq, Repr

namespace Schema

def empty : Schema := ⟨.empty, .empty⟩

def field (schema : Schema) (field : FieldRef) : Except SchemaError FieldSpec :=
  match schema.fields.get? field with
  | some spec => .ok spec
  | none => .error (.unknownField field)

def action (schema : Schema) (name : String) : Except SchemaError ActionSpec :=
  match schema.actions.get? name with
  | some spec => .ok spec
  | none => .error (.unknownAction name)

def paramWidth (schema : Schema) (action param : String) : Except SchemaError Width :=
  match schema.action action with
  | .error e => .error e
  | .ok spec =>
    match spec.param? param with
    | some p => .ok p.width
    | none => .error (.unknownParam action param)

def checkWidth (name : String) (width : Width) : Except SchemaError Unit :=
  if Encoded.ValidWidth width.toNat then .ok () else .error (.invalidWidth name width)

/-- Checks the parameters of an action in declared order; `seen` holds the names before them. -/
def checkParams (action : String) (seen : List String) : List ParamSpec → Except SchemaError Unit
  | [] => .ok ()
  | p :: ps =>
    match checkWidth (action ++ "." ++ p.name) p.width with
    | .error e => .error e
    | .ok _ =>
      if p.name ∈ seen then .error (.duplicate (action ++ "." ++ p.name))
      else checkParams action (p.name :: seen) ps

/-- Adds one declaration. A field needs a width that can be encoded and a reference of its own; an
action needs a name of its own, and parameters with encodable widths and distinct names. -/
def declare (schema : Schema) : Declaration → Except SchemaError Schema
  | .field field spec =>
    match checkWidth field.path spec.width with
    | .error e => .error e
    | .ok _ =>
      if schema.fields.contains field then .error (.duplicate field.path)
      else .ok { schema with fields := schema.fields.insert field spec }
  | .action spec =>
    if schema.actions.contains spec.name then .error (.duplicate spec.name)
    else
      match checkParams spec.name [] spec.params with
      | .error e => .error e
      | .ok _ => .ok { schema with actions := schema.actions.insert spec.name spec }

/-- Adds declarations in order and stops at the first that is refused. -/
def declareAll (schema : Schema) : List Declaration → Except SchemaError Schema
  | [] => .ok schema
  | d :: ds =>
    match schema.declare d with
    | .error e => .error e
    | .ok next => next.declareAll ds

def build (declarations : List Declaration) : Except SchemaError Schema :=
  empty.declareAll declarations

def tryDeclare (schema : Schema) (d : Declaration) : Schema :=
  match schema.declare d with
  | .error _ => schema
  | .ok next => next

/-- What a list of declarations leaves when refused ones are passed over. -/
def accept (declarations : List Declaration) : Schema := declarations.foldl tryDeclare empty

def fieldList (schema : Schema) : List (FieldRef × FieldSpec) := schema.fields.toList

def actionList (schema : Schema) : List ActionSpec := schema.actions.values

/-- What the stateful pipeline program declares: packet fields, automaton metadata, and the
actions of its tables. -/
def statefulDeclarations : List Declaration :=
  let field (scope name : String) (width : Width) : Declaration :=
    .field ⟨scope, name⟩ ⟨width, false⟩
  let metadata (name : String) (width : Width) : Declaration :=
    .field (FieldRef.metadata name) ⟨width, false⟩
  [field "standard_metadata" "ingress_port" 9,
    field "standard_metadata" "egress_spec" 9,
    field "ethernet" "dstAddr" 48,
    field "ethernet" "srcAddr" 48,
    field "ethernet" "etherType" 16,
    field "ipv4" "srcAddr" 32,
    field "ipv4" "dstAddr" 32,
    field "ipv4" "protocol" 8,
    field "ipv4" "identification" 16,
    field "ipv4" "diffserv" 8,
    field "tcp" "srcPort" 16,
    field "tcp" "dstPort" 16,
    metadata Name.targetId 16,
    metadata Name.registerId 16,
    metadata Name.curState 8,
    metadata Name.nextState 8,
    metadata Name.trigger 16,
    .action ⟨Name.drop, []⟩,
    .action ⟨Name.alert, []⟩,
    .action ⟨Name.sendToCpu, []⟩,
    .action ⟨Name.forward, [⟨Name.port, 9⟩]⟩,
    .action ⟨Name.stateTransfer, [⟨Name.nextState, 8⟩]⟩] ++
  Name.lookupActions.map fun name =>
    .action ⟨name, [⟨Name.targetId, 16⟩, ⟨Name.registerId, 16⟩]⟩

/-- The stateful pipeline program that the controller ships with. -/
def stateful : Schema := accept statefulDeclarations

end Schema

end StatefulPipeline
