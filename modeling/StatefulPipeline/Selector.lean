import StatefulPipeline.Schema

/-! Selectors: exact-match criteria over traffic, as a caller states them. A selector's identity is
the collection of its field and value terms, whatever their order and spelling. -/

namespace StatefulPipeline

inductive Criterion where
  | inPort (port : Port)
  | ethDst (address : UInt64)
  | ethSrc (address : UInt64)
  | ethType (type : UInt16)
  | field (field : FieldRef) (value : Int)
deriving DecidableEq, Repr

namespace Criterion

def ref : Criterion → FieldRef
  | inPort _ => ⟨"standard_metadata", "ingress_port"⟩
  | ethDst _ => ⟨"ethernet", "dstAddr"⟩
  | ethSrc _ => ⟨"ethernet", "srcAddr"⟩
  | ethType _ => ⟨"ethernet", "etherType"⟩
  | field ref _ => ref

def value : Criterion → Int
  | inPort port => port.toNat
  | ethDst address => address.toNat
  | ethSrc address => address.toNat
  | ethType type => type.toNat
  | field _ value => value

def term (c : Criterion) : FieldRef × Int := (c.ref, c.value)

end Criterion

/-- Criteria in the order in which they were given. -/
structure Selector where
  criteria : List Criterion
deriving DecidableEq, Repr

namespace Selector

def isEmpty (s : Selector) : Bool := s.criteria.isEmpty

def refs (s : Selector) : List FieldRef := s.criteria.map Criterion.ref

def terms (s : Selector) : List (FieldRef × Int) := s.criteria.map Criterion.term

/-- The terms in ascending order, the same for every order and spelling of the criteria. -/
def key (s : Selector) : List (FieldRef × Int) := Key.sort s.terms

/-- The first member that is in `seen` or equals a member before it. -/
def firstRepeated (seen : List FieldRef) : List FieldRef → Option FieldRef
  | [] => none
  | f :: fs => if f ∈ seen then some f else firstRepeated (f :: seen) fs

/-- The field of the first criterion whose field occurred earlier. -/
def repeated? (s : Selector) : Option FieldRef := firstRepeated [] s.refs

end Selector

end StatefulPipeline
