import StatefulPipeline.Decision

/-! Table rules with encoded values, and the order in which they are installed: downstream tables
first, so that nothing is steered into a table that is still empty. -/

namespace StatefulPipeline

structure FieldMatch where
  field : FieldRef
  value : Encoded
deriving DecidableEq, Repr

structure Rule where
  table : Table
  terms : List FieldMatch
  action : Action
  priority : Nat
deriving DecidableEq, Repr

/-- The field values that a table sees of one packet. -/
abbrev PacketKey := List (FieldRef × Nat)

namespace Rule

/-- Every term finds its field in the key with the term's value. A key that lacks one of the
fields does not match. -/
def matchesKey (rule : Rule) (key : PacketKey) : Bool :=
  rule.terms.all fun m => key.any fun e => e.1 = m.field ∧ e.2 = m.value.toNat

/-- Rules by descending table, those of one table in the order in which they came. -/
def sortForInstall (rules : List Rule) : List Rule :=
  Table.all.reverse.flatMap fun t => rules.filter fun r => r.table = t

end Rule

end StatefulPipeline
