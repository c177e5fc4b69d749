import StatefulPipeline.Config
import StatefulPipeline.Toml.Document
import StatefulPipeline.Toml.Written

/-! Configurations as TOML texts. Unknown keys are ignored. A record may also be given as an array
of its entries in order. -/

namespace StatefulPipeline

/-- Why a configuration file gives no configuration: it cannot be read as text, or the text does not
describe one. -/
inductive ConfigError where
  | unreadable
  | malformed
deriving DecidableEq, Repr

namespace Toml

/-- The entries of a record, by name or by position. -/
inductive Record where
  | named (entries : Entries)
  | positional (items : List Node)

namespace Record

/-- A table is a record, and so is an array. A date is a record that has none of the entries. -/
def of? : Node → Option Record
  | .table _ es => some (.named es)
  | .array items => some (.positional items)
  | .tables elements => some (.positional (elements.map (.table .header)))
  | .moment => some (.named [])
  | _ => none

def entry? (r : Record) (index : Nat) (name : String) : Option Node :=
  match r with
  | named es => Entries.get? name es
  | positional items => items[index]?

def required {α : Type} (r : Record) (index : Nat) (name : String) (read : Node → Option α) :
    Option α :=
  match r.entry? index name with
  | some node => read node
  | none => none

def withDefault {α : Type} (r : Record) (index : Nat) (name : String) (default : α)
    (read : Node → Option α) : Option α :=
  match r.entry? index name with
  | some node => read node
  | none => some default

def optional {α : Type} (r : Record) (index : Nat) (name : String) (read : Node → Option α) :
    Option (Option α) :=
  match r, r.entry? index name with
  | _, some node => (read node).map some
  | named _, none => some none
  | positional _, none => none

end Record

namespace Node

def text? : Node → Option String
  | .text s => some s
  | _ => none

def flag? : Node → Option Bool
  | .boolean b => some b
  | _ => none

def width? : Node → Option Width
  | .integer i => if 0 ≤ i ∧ i < UInt32.size then some (UInt32.ofNat i.toNat) else none
  | _ => none

def readAll {α : Type} (read : Node → Option α) : List Node → Option (List α)
  | [] => some []
  | n :: ns =>
    match read n with
    | none => none
    | some a => (readAll read ns).map fun as => a :: as

def list? {α : Type} (read : Node → Option α) : Node → Option (List α)
  | .array items => readAll read items
  | .tables elements => readAll read (elements.map (.table .header))
  | _ => none

def field? (n : Node) : Option (FieldRef × FieldSpec) :=
  match Record.of? n with
  | none => none
  | some r =>
    match r.required 0 "scope" text?, r.required 1 "name" text?, r.required 2 "width" width?,
      r.withDefault 3 "signed" false flag? with
    | some scope, some name, some width, some signed => some (⟨scope, name⟩, ⟨width, signed⟩)
    | _, _, _, _ => none

def param? (n : Node) : Option ParamSpec :=
  match Record.of? n with
  | none => none
  | some r =>
    match r.required 0 "name" text?, r.required 1 "width" width? with
    | some name, some width => some ⟨name, width⟩
    | _, _ => none

def action? (n : Node) : Option ActionSpec :=
  match Record.of? n with
  | none => none
  | some r =>
    match r.required 0 "name" text?, r.withDefault 1 "params" [] (list? param?) with
    | some name, some params => some ⟨name, params⟩
    | _, _ => none

def pipeline? (n : Node) : Option (String × Option String) :=
  match Record.of? n with
  | none => none
  | some r =>
    match r.required 0 "name" text?, r.optional 1 "description" text? with
    | some name, some description => some (name, description)
    | _, _ => none

def devices? (n : Node) : Option DeviceConfig :=
  match Record.of? n with
  | none => none
  | some r =>
    match r.optional 0 "default" text?, r.withDefault 1 "available" [] (list? text?) with
    | some default, some available => some ⟨default, available⟩
    | _, _ => none

end Node

end Toml

namespace Config

open Toml

def ofEntries (es : Entries) : Option Config :=
  let r := Record.named es
  match r.required 0 "pipeline" Node.pipeline?,
    r.withDefault 1 "fields" [] (Node.list? Node.field?),
    r.withDefault 2 "actions" [] (Node.list? Node.action?),
    r.optional 3 "devices" Node.devices? with
  | some (name, description), some fields, some actions, some devices =>
    some ⟨name, description, fields, actions, devices⟩
  | _, _, _, _ => none

def ofToml (text : String) : Except ConfigError Config :=
  match (document text).bind ofEntries with
  | some c => .ok c
  | none => .error .malformed

def ofBytes (bytes : ByteArray) : Except ConfigError Config :=
  match String.fromUTF8? bytes with
  | some text => ofToml text
  | none => .error .unreadable

def fieldLines (f : FieldRef × FieldSpec) : List Written :=
  [.header .element ["fields"],
    .setting "scope" (.text f.1.scope),
    .setting "name" (.text f.1.name),
    .setting "width" (.number f.2.width.toNat),
    .setting "signed" (.flag f.2.signed)]

def paramLines (p : ParamSpec) : List Written :=
  [.header .element ["actions", "params"],
    .setting "name" (.text p.name),
    .setting "width" (.number p.width.toNat)]

def actionLines (a : ActionSpec) : List Written :=
  .header .element ["actions"] :: .setting "name" (.text a.name) ::
    if a.params.isEmpty then [.setting "params" (.list [])] else a.params.flatMap paramLines

def deviceLines (d : DeviceConfig) : List Written :=
  .header .table ["devices"] ::
    ((d.default.map fun s => Written.setting "default" (.text s)).toList ++
      [.setting "available" (.list d.available)])

/-- Empty lists come first, since they are no tables; an absent entry is not written. -/
def written (c : Config) : List Written :=
  (if c.fields.isEmpty then [.setting "fields" (.list [])] else []) ++
    (if c.actions.isEmpty then [.setting "actions" (.list [])] else []) ++
    .header .table ["pipeline"] :: .setting "name" (.text c.name) ::
    ((c.description.map fun s => Written.setting "description" (.text s)).toList ++
      c.fields.flatMap fieldLines ++
      c.actions.flatMap actionLines ++
      c.devices.toList.flatMap deviceLines)

def toToml (c : Config) : String := String.ofList (Written.writeAll c.written)

end Config

end StatefulPipeline
