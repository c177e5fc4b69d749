import StatefulPipeline.Config
import StatefulPipeline.Json.Forms
import StatefulPipeline.Overview
import StatefulPipeline.Service

/-! What the command line program writes: service operations, automata and schemas as text lines or
JSON. -/

namespace StatefulPipeline
namespace CommandLine

structure Output where
  code : ExitCode
  stdout : String
  stderr : String
deriving DecidableEq, Repr

namespace Output

def printed (code : ExitCode) (text : String) : Output := ⟨code, text, ""⟩

def failed (message : String) : Output := ⟨.failure, "", "Error: " ++ message ++ "\n"⟩

def ofLines (code : ExitCode) (lines : List String) : Output :=
  printed code (String.join (lines.map fun l => l ++ "\n"))

def ofJson (code : ExitCode) (j : Json) : Output := printed code (j.toText ++ "\n")

end Output

/-- One line for a rule: its table, its matches, and its action with the parameters. -/
def ruleText (r : Rule) : String :=
  let terms := r.terms.map fun m => m.field.path ++ "=" ++ m.value.hex
  let params := r.action.params.map fun p => p.name ++ "=" ++ p.value.hex
  String.ofList (Numeral.padRight 22 r.table.name.toList) ++ " " ++
    String.intercalate " " terms ++ " -> " ++
    r.action.name ++ "(" ++ String.intercalate ", " params ++ ")"

def ruleLine (r : Rule) : String := "  " ++ ruleText r

def failureLine (message : String) : String := "  ✗ " ++ message

def statusJson (operation service : String) (status : Status) : Json :=
  .object
    [("code", .number status.code.toNat),
      ("error", .ofOption (fun e => .text e.message) status.error),
      ("failures", .array (status.report.failures.map fun f => .text f.message)),
      ("installed", .array (status.report.installed.map Rule.json)),
      ("operation", .text operation),
      ("register", .ofOption (fun r => .number r.toNat) status.register),
      ("service", .text service)]

def statusOutput (json : Bool) (operation service : String) (status : Status) : Output :=
  if json then .ofJson status.code (statusJson operation service status)
  else
    match status.error with
    | some e =>
      ⟨status.code, "", operation ++ " " ++ service ++ " failed: " ++ e.message ++ "\n"⟩
    | none =>
      let first :=
        match status.register with
        | some r => s!"✓ {service}: bound register {r}"
        | none => s!"✓ {service}: started"
      .ofLines status.code
        (first :: (status.report.installed.map ruleLine ++
          status.report.failures.map fun f => failureLine f.message))

def decisionText : Decision → String
  | .drop => "drop"
  | .sendToController => "send to controller"
  | .outputPort port => s!"output port {port}"

def stateText (state : StateId) : String :=
  String.ofList (Numeral.padLeft 3 (Numeral.decimal state.toNat))

def transitionLine (t : Transition) : String :=
  "  " ++ stateText t.current ++ " --[0x" ++
    String.ofList (Numeral.hexPadded 4 t.trigger.toNat) ++ s!"]--> {t.next}"

def bindingLine (b : ActionBinding) : String :=
  "  " ++ stateText b.state ++ " => " ++ decisionText b.decision

def overviewJson (o : Overview) : Json :=
  .object
    [("actions", .array (o.bindings.map ActionBinding.json)),
      ("errors", .array (o.errors.map fun e => .text e.message)),
      ("rules", .array (o.rules.map Rule.json)),
      ("target", o.target.json),
      ("transitions", .array (o.transitions.map Transition.json))]

def targetLine (t : Target) : String :=
  s!"{t.name} (target {t.id}, lookup {t.lookupAction})"

/-- An automaton and its rules. As text, rules that do not compile count as a failure; as JSON they
are part of the answer. -/
def overviewOutput (json : Bool) (o : Overview) : Output :=
  if json then .ofJson .ok (overviewJson o)
  else
    .ofLines (if o.errors = [] then .ok else .failure)
      ([targetLine o.target, "Transitions:"] ++ o.transitions.map transitionLine ++
        ["Actions:"] ++ o.bindings.map bindingLine ++
        ["Rules:"] ++ o.rules.map ruleLine ++ o.errors.map fun e => failureLine e.message)

def schemaJson (config : Config) (schema : Schema) : Json :=
  .object
    [("actions", .array (schema.actionList.map fun a =>
        .object
          [("name", .text a.name),
            ("params", .array (a.params.map fun p =>
              .object [("name", .text p.name), ("width", .number p.width.toNat)]))])),
      ("fields", .array (schema.fieldList.map fun f =>
        .object
          [("field", .text f.1.path),
            ("signed", .boolean f.2.signed),
            ("width", .number f.2.width.toNat)])),
      ("pipeline", .text config.name)]

end CommandLine
end StatefulPipeline
