/-! Numbers as text: decimal and hexadecimal digits, and the readers of decimal numerals. A reader
takes the whole text; it allows leading zeros and no blanks. -/

namespace StatefulPipeline
namespace Numeral

/-- The value of a text of decimal digits; a text that is empty or holds anything else has none. -/
def digits? (cs : List Char) : Option Nat :=
  if cs ≠ [] ∧ cs.all Char.isDigit = true then some (Nat.ofDigitChars 10 cs 0) else none

/-- Decimal digits with an optional plus sign. -/
def natural? : List Char → Option Nat
  | '+' :: cs => digits? cs
  | cs => digits? cs

def integer? : List Char → Option Int
  | '-' :: cs => (digits? cs).map fun n => -(n : Int)
  | cs => (natural? cs).map fun n => (n : Int)

def atMost? (max : Nat) (cs : List Char) : Option Nat :=
  match natural? cs with
  | some n => if n ≤ max then some n else none
  | none => none

def decimal (n : Nat) : List Char := Nat.toDigits 10 n

theorem decimal_ne_nil (n : Nat) : decimal n ≠ [] := by
  unfold decimal
  rw [Nat.toDigits_eq_if (by decide)]
  split <;> simp

theorem isDigit_of_mem_decimal {n : Nat} {c : Char} (h : c ∈ decimal n) : c.isDigit = true :=
  Nat.isDigit_of_mem_toDigits (by decide) (by decide) h

theorem decimal_eq_cons (n : Nat) : ∃ c cs, decimal n = c :: cs ∧ c.isDigit = true := by
  obtain ⟨c, cs, hc⟩ := List.exists_cons_of_ne_nil (decimal_ne_nil n)
  exact ⟨c, cs, hc, isDigit_of_mem_decimal (n := n) (by simp [hc])⟩

/-- Lower-case hexadecimal digits, as few as the number needs. -/
def hex (n : Nat) : List Char := Nat.toDigits 16 n

/-- Hexadecimal digits filled up with zeros on the left to at least `width` places. -/
def hexPadded (width n : Nat) : List Char :=
  List.replicate (width - (hex n).length) '0' ++ hex n

def padLeft (width : Nat) (cs : List Char) : List Char :=
  List.replicate (width - cs.length) ' ' ++ cs

def padRight (width : Nat) (cs : List Char) : List Char :=
  cs ++ List.replicate (width - cs.length) ' '

end Numeral
end StatefulPipeline
