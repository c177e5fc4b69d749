import StatefulPipeline.Controller

/-! What is known of a service before it is started: its automaton and the rules that it compiles
to. -/

namespace StatefulPipeline

structure Overview where
  target : Target
  transitions : List Transition
  bindings : List ActionBinding
  rules : List Rule
  errors : List CompileError
deriving DecidableEq, Repr

def Schema.refused (results : List (Except CompileError Rule)) : List CompileError :=
  results.filterMap fun
    | .ok _ => none
    | .error e => some e

/-- The overview of a target. The rules are those that a start installs, in their order. -/
def Controller.overview (c : Controller) (target : Target) : Except CompileError Overview :=
  match c.schema.compileService c.registry target.id with
  | .error e => .error e
  | .ok results =>
    .ok
      { target := target
        transitions := c.registry.transitionsFor target.id
        bindings := c.registry.actionsFor target.id
        rules := Schema.compiled results
        errors := Schema.refused results }

end StatefulPipeline
