import StatefulPipeline.Numeral

/-! IPv4 addresses in dotted form: four numbers up to 255 without leading zeros. -/

namespace StatefulPipeline
namespace Address

/-- One to three digits, a zero in front only alone. -/
def octet? (cs : List Char) : Option Nat :=
  match Numeral.digits? cs with
  | some n => if n < 256 ∧ (cs.head? ≠ some '0' ∨ cs.length = 1) then some n else none
  | none => none

def read? (text : String) : Option Nat :=
  match (text.toList.splitOn '.').map octet? with
  | [some a, some b, some c, some d] => some (((a * 256 + b) * 256 + c) * 256 + d)
  | _ => none

end Address
end StatefulPipeline
