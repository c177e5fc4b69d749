import StatefulPipeline.Selector

/-! Registers of a target: which of them are live, and the counter from which new ones are drawn.
The counter only moves forward, so that a register is drawn once at most. -/

namespace StatefulPipeline

/-- One flow that is bound to a register of a target. -/
structure Allocation where
  target : TargetId
  register : RegisterId
  selector : Selector
  outputPort : Option Port
deriving DecidableEq, Repr

/-- The live registers of a target, and the next candidate; the candidate can pass the last
register. -/
structure Slot where
  next : Nat
  live : SortedMap RegisterId Allocation
deriving DecidableEq

namespace Slot

def empty : Slot := ⟨0, .empty⟩

def isLive (slot : Slot) (register : Nat) : Bool :=
  slot.live.toList.any fun e => e.1.toNat = register

/-- The first of `n`, `n + 1`, … that is not taken, looking at `tries` of them. -/
def firstFree (taken : Nat → Bool) : (tries : Nat) → (n : Nat) → Nat
  | 0, n => n
  | tries + 1, n => if taken n then firstFree taken tries (n + 1) else n

/-- The first register at or above the counter that is not live. There are as many tries as live
registers, so the last candidate is free. -/
def candidate (slot : Slot) : Nat :=
  firstFree slot.isLive slot.live.toList.length slot.next

/-- Draws a free register that is at most `max` and moves the counter past every register that it
looked at. -/
def draw (slot : Slot) (max : RegisterId) : Slot × Option RegisterId :=
  if slot.candidate ≤ max.toNat then
    ({ slot with next := slot.candidate + 1 }, some (UInt32.ofNat slot.candidate))
  else ({ slot with next := Nat.max slot.next (max.toNat + 1) }, none)

def record (slot : Slot) (a : Allocation) : Slot :=
  { slot with live := slot.live.insert a.register a }

end Slot

end StatefulPipeline
