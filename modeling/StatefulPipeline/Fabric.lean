import StatefulPipeline.RuleSet

/-! The devices that a controller can reach, with the rules that each of them holds. Tables can be
marked as failing; a rule for such a table is rejected. -/

namespace StatefulPipeline

abbrev DeviceId := String

inductive InstallError where
  | deviceUnavailable (device : DeviceId)
  | rejected (device : DeviceId) (table : Table)
deriving DecidableEq, Repr

def InstallError.message : InstallError → String
  | deviceUnavailable device => "device not available: " ++ device
  | rejected device table =>
    device ++ " rejected " ++ table.name ++ " rule: table marked as failing"

/-- Reachable devices, the rules installed on them in order, and the failing tables. -/
structure Fabric where
  devices : List DeviceId
  placed : List (DeviceId × Rule)
  failing : List Table
deriving DecidableEq, Repr

namespace Fabric

def new (devices : List DeviceId) : Fabric := ⟨devices, [], []⟩

def failTable (f : Fabric) (table : Table) : Fabric := { f with failing := table :: f.failing }

/-- The rules on one device, in the order of installation. -/
def installed (f : Fabric) (device : DeviceId) : List Rule :=
  f.placed.filterMap fun p => if p.1 = device then some p.2 else none

def installedCount (f : Fabric) : Nat := f.placed.length

def ruleSet (f : Fabric) (device : DeviceId) : RuleSet := ⟨f.installed device⟩

/-- Puts rules on a device, all of them or none. -/
def install (f : Fabric) (device : DeviceId) (rules : List Rule) : Except InstallError Fabric :=
  if device ∈ f.devices then
    match rules.find? fun r => r.table ∈ f.failing with
    | some rule => .error (.rejected device rule.table)
    | none => .ok { f with placed := f.placed ++ rules.map fun r => (device, r) }
  else .error (.deviceUnavailable device)

end Fabric

end StatefulPipeline
