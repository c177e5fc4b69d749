import StatefulPipeline.Rule

/-! What installed rules do: exact-match lookup by priority, and the automaton that the state
transfer and action tables carry out. -/

namespace StatefulPipeline

/-- Rules in the order in which they were installed. -/
structure RuleSet where
  rules : List Rule
deriving DecidableEq, Repr

namespace RuleSet

def empty : RuleSet := ⟨[]⟩

def install (s : RuleSet) (rule : Rule) : RuleSet := ⟨s.rules ++ [rule]⟩

def size (s : RuleSet) : Nat := s.rules.length

def isEmpty (s : RuleSet) : Bool := s.rules.isEmpty

def candidates (s : RuleSet) (table : Table) (key : PacketKey) : List Rule :=
  s.rules.filter fun r => r.table = table ∧ r.matchesKey key = true

/-- Keeps the better of a rule found so far and a later one; the later one needs a higher
priority. -/
def better (best : Option Rule) (rule : Rule) : Option Rule :=
  match best with
  | some b => if rule.priority ≤ b.priority then some b else some rule
  | none => some rule

/-- The rule of a table that a key hits: of the highest priority, and of those the first. -/
def lookup (s : RuleSet) (table : Table) (key : PacketKey) : Option Rule :=
  (s.candidates table key).foldl better none

def transferKey (target : TargetId) (current : StateId) (trigger : Trigger) : PacketKey :=
  [(FieldRef.metadata Name.targetId, target.toNat),
    (FieldRef.metadata Name.curState, current.toNat),
    (FieldRef.metadata Name.trigger, trigger.toNat)]

def actionKey (target : TargetId) (state : StateId) : PacketKey :=
  [(FieldRef.metadata Name.targetId, target.toNat),
    (FieldRef.metadata Name.nextState, state.toNat)]

def stateOf? (value : Encoded) : Option StateId :=
  if value.toNat < 256 then some (UInt8.ofNat value.toNat) else none

def writtenState? (action : Action) : Option StateId :=
  if action.name = Name.stateTransfer then (action.param? Name.nextState).bind stateOf? else none

/-- The next state that the state transfer table writes, if a rule hits. -/
def transfer (s : RuleSet) (target : TargetId) (current : StateId) (trigger : Trigger) :
    Option StateId :=
  (s.lookup .stateTransfer (transferKey target current trigger)).bind fun r =>
    writtenState? r.action

/-- The action that the action table runs for a target in a state. -/
def actionFor (s : RuleSet) (target : TargetId) (state : StateId) : Option Action :=
  (s.lookup .action (actionKey target state)).map Rule.action

/-- The state after one trigger; a miss leaves it. -/
def advance (s : RuleSet) (target : TargetId) (state : StateId) (trigger : Trigger) : StateId :=
  (s.transfer target state trigger).getD state

def run (s : RuleSet) (target : TargetId) (state : StateId) : List Trigger → List StateId
  | [] => []
  | g :: gs => s.advance target state g :: s.run target (s.advance target state g) gs

end RuleSet

end StatefulPipeline
