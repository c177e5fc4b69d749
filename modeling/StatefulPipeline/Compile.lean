import StatefulPipeline.Registry
import StatefulPipeline.Rule
import StatefulPipeline.Selector

/-! Compilation of automata and selectors into table rules. Match values and parameters are encoded
by the widths of the schema; a value that does not fit is an error, and only the output decision
falls back to a drop. -/

namespace StatefulPipeline

inductive CompileError where
  | schema (error : SchemaError)
  | encode (name : String) (error : EncodeError)
  | unknownTarget (id : TargetId)
  | emptySelector (table : Table)
  | repeatedField (field : FieldRef)
deriving DecidableEq, Repr

def CompileError.message : CompileError → String
  | schema e => "schema error: " ++ e.message
  | encode name e => "cannot encode " ++ name ++ ": " ++ e.message
  | unknownTarget id => s!"unknown target id: {id}"
  | emptySelector table => "selector for " ++ table.name ++ " must match at least one field"
  | repeatedField field => "selector matches " ++ field.path ++ " more than once"

/-- The priority of every compiled rule. -/
def defaultPriority : Nat := 100

namespace Schema

def exact (schema : Schema) (field : FieldRef) (value : Int) : Except CompileError FieldMatch :=
  match schema.field field with
  | .error e => .error (.schema e)
  | .ok spec =>
    match Encoded.fitAs spec.signed value spec.width.toNat with
    | .error e => .error (.encode field.path e)
    | .ok encoded => .ok ⟨field, encoded⟩

/-- Matches of several fields, up to the first that fails. -/
def exactAll (schema : Schema) : List (FieldRef × Int) → Except CompileError (List FieldMatch)
  | [] => .ok []
  | t :: ts =>
    match schema.exact t.1 t.2 with
    | .error e => .error e
    | .ok m =>
      match schema.exactAll ts with
      | .error e => .error e
      | .ok ms => .ok (m :: ms)

/-- A parameter of an action with its value; a parameter is unsigned. -/
def param (schema : Schema) (action param : String) (value : Int) :
    Except CompileError ActionParam :=
  match schema.paramWidth action param with
  | .error e => .error (.schema e)
  | .ok width =>
    match Encoded.fit value width.toNat with
    | .error e => .error (.encode (action ++ "." ++ param) e)
    | .ok encoded => .ok ⟨param, encoded⟩

def paramAll (schema : Schema) (action : String) :
    List (String × Int) → Except CompileError (List ActionParam)
  | [] => .ok []
  | p :: ps =>
    match schema.param action p.1 p.2 with
    | .error e => .error e
    | .ok q =>
      match schema.paramAll action ps with
      | .error e => .error e
      | .ok qs => .ok (q :: qs)

/-- The terms of a selector. It must have a criterion, and no field twice. -/
def selectorTerms (schema : Schema) (selector : Selector) (table : Table) :
    Except CompileError (List FieldMatch) :=
  if selector.isEmpty then .error (.emptySelector table)
  else
    match selector.repeated? with
    | some field => .error (.repeatedField field)
    | none => schema.exactAll selector.terms

/-- The state transfer rule of an edge: target, state and trigger select it, and it writes the
next state. -/
def compileTransition (schema : Schema) (t : Transition) : Except CompileError Rule :=
  match schema.exactAll
    [(FieldRef.metadata Name.targetId, t.target.toNat),
      (FieldRef.metadata Name.curState, t.current.toNat),
      (FieldRef.metadata Name.trigger, t.trigger.toNat)] with
  | .error e => .error e
  | .ok terms =>
    match schema.param Name.stateTransfer Name.nextState t.next.toNat with
    | .error e => .error e
    | .ok next => .ok ⟨.stateTransfer, terms, ⟨Name.stateTransfer, [next]⟩, defaultPriority⟩

def compileAction (schema : Schema) (b : ActionBinding) : Except CompileError Rule :=
  match schema.exactAll
    [(FieldRef.metadata Name.targetId, b.target.toNat),
      (FieldRef.metadata Name.nextState, b.state.toNat)] with
  | .error e => .error e
  | .ok terms => .ok ⟨.action, terms, schema.actionOf b.decision, defaultPriority⟩

/-- The state rule of a bound flow: the selector's traffic fetches its state with the target's
lookup action. -/
def compileLookup (schema : Schema) (selector : Selector) (action : String) (target : TargetId)
    (register : RegisterId) : Except CompileError Rule :=
  match schema.selectorTerms selector .state with
  | .error e => .error e
  | .ok terms =>
    match schema.action action with
    | .error e => .error (.schema e)
    | .ok spec =>
      match schema.paramAll action
        [(Name.targetId, target.toNat), (Name.registerId, register.toNat)] with
      | .error e => .error e
      | .ok params => .ok ⟨.state, terms, ⟨spec.name, params⟩, defaultPriority⟩

def compileForward (schema : Schema) (selector : Selector) (port : Port) :
    Except CompileError Rule :=
  match schema.selectorTerms selector .forward with
  | .error e => .error e
  | .ok terms => .ok ⟨.forward, terms, schema.actionOf (.outputPort port), defaultPriority⟩

/-- Every action and state transfer rule of a target, in the order of installation. Each compiles
by itself, so that one bad entry does not hide the others. -/
def compileService (schema : Schema) (registry : Registry) (target : TargetId) :
    Except CompileError (List (Except CompileError Rule)) :=
  match registry.target? target with
  | none => .error (.unknownTarget target)
  | some _ =>
    .ok ((registry.actionsFor target).map schema.compileAction ++
      (registry.transitionsFor target).map schema.compileTransition)

def compiled (results : List (Except CompileError Rule)) : List Rule :=
  results.filterMap fun
    | .ok rule => some rule
    | .error _ => none

end Schema

end StatefulPipeline
