import StatefulPipeline.Toml.Quoted

/-! Numbers, dates and times. Integers have 64 bits. Floats, dates and times are recognised and
checked, but their values are not kept: no setting holds one. -/

namespace StatefulPipeline
namespace Toml

/-- Digits with single underscores between them. -/
def digitRun (isDigit : Char → Bool) : List Char → List Char × List Char
  | [] => ([], [])
  | c :: cs =>
    if isDigit c then
      let (ds, rest) := digitRun isDigit cs
      (c :: ds, rest)
    else if c = '_' ∧ (cs.head?.any isDigit) = true then digitRun isDigit cs
    else ([], c :: cs)

def digits (isDigit : Char → Bool) : Reader (List Char)
  | [] => none
  | c :: cs => if isDigit c then some (digitRun isDigit (c :: cs)) else none

def unsignedDecimal : Reader (List Char)
  | [] => none
  | c :: cs => if c = '0' then some ([c], cs) else digits Char.isDigit (c :: cs)

/-- A sign, if there is one; `true` for a minus sign. -/
def sign : List Char → Bool × List Char
  | [] => (false, [])
  | c :: cs => if c = '-' then (true, cs) else if c = '+' then (false, cs) else (false, c :: cs)

def base? (c : Char) : Option Nat :=
  if c = 'x' then some 16 else if c = 'o' then some 8 else if c = 'b' then some 2 else none

def isDigitOf (base : Nat) (c : Char) : Bool := (hexDigit? c).any fun d => d < base

def ofDigits (base : Nat) (ds : List Char) : Nat :=
  ds.foldl (fun n c => base * n + (hexDigit? c).getD 0) 0

/-- An integer, if it has at most 64 bits. -/
def bounded (i : Int) (rest : List Char) : Option (Int × List Char) :=
  if -(Nat.pow 2 63 : Int) ≤ i ∧ i < Nat.pow 2 63 then some (i, rest) else none

/-- Digits of another base, after a zero and the letter of the base. -/
def basedInteger : Reader Int
  | z :: c :: cs =>
    if z = '0' then
      match base? c with
      | none => none
      | some base =>
        match digits (isDigitOf base) cs with
        | none => none
        | some (ds, rest) => bounded (ofDigits base ds) rest
    else none
  | _ => none

def decimalInteger : Reader Int := fun cs =>
  match sign cs with
  | (negative, cs') =>
    match unsignedDecimal cs' with
    | none => none
    | some (ds, rest) =>
      let n : Int := ofDigits 10 ds
      bounded (if negative then -n else n) rest

def integer : Reader Int := fun cs =>
  match basedInteger cs with
  | some found => some found
  | none => decimalInteger cs

def fraction : Reader (List Char)
  | [] => none
  | c :: cs => if c = '.' then digits Char.isDigit cs else none

def exponent : Reader Int
  | [] => none
  | c :: cs =>
    if c = 'e' ∨ c = 'E' then
      match sign cs with
      | (negative, cs') =>
        match digits Char.isDigit cs' with
        | none => none
        | some (ds, rest) =>
          let n : Int := ofDigits 10 ds
          some (if negative then -n else n, rest)
    else none

/-- The least magnitude that a double rounds to infinity. -/
def doubleLimit : Nat := Nat.pow 2 1024 - Nat.pow 2 970

/-- Whether `n` times a power of ten is beyond the largest double. The number of digits settles
all but the close cases. -/
def isInfinite (n : Nat) (power : Int) : Bool :=
  let size := (Numeral.decimal n).length + power
  if n = 0 ∨ size < 300 then false
  else if 320 < size then true
  else if 0 ≤ power then doubleLimit ≤ n * Nat.pow 10 power.toNat
  else doubleLimit * Nat.pow 10 (-power).toNat ≤ n

/-- A decimal with a fraction, an exponent or both. It may not be beyond the largest double, save
below zero. -/
def decimalFloat : Reader Unit := fun cs =>
  match sign cs with
  | (negative, cs₁) =>
    match unsignedDecimal cs₁ with
    | none => none
    | some (whole, cs₂) =>
      let finish (part : List Char) (power : Int) (rest : List Char) : Option (Unit × List Char) :=
        if !negative && isInfinite (ofDigits 10 (whole ++ part)) (power - part.length) then none
        else some ((), rest)
      match exponent cs₂ with
      | some (power, rest) => finish [] power rest
      | none =>
        match fraction cs₂ with
        | none => none
        | some (part, cs₃) =>
          match exponent cs₃ with
          | some (power, rest) => finish part power rest
          | none => finish part 0 cs₃

def word? : (word : List Char) → List Char → Option (List Char)
  | [], cs => some cs
  | _ :: _, [] => none
  | w :: ws, c :: cs => if w = c then word? ws cs else none

/-- Infinity or not a number, with or without a sign. -/
def specialFloat : Reader Unit := fun cs =>
  match sign cs with
  | (_, cs') =>
    match word? "inf".toList cs' with
    | some rest => some ((), rest)
    | none => (word? "nan".toList cs').map fun rest => ((), rest)

def float : Reader Unit := fun cs =>
  match decimalFloat cs with
  | some found => some found
  | none => specialFloat cs

def fixedDigits : (count : Nat) → (value : Nat) → Reader Nat
  | 0, value, cs => some (value, cs)
  | _ + 1, _, [] => none
  | count + 1, value, c :: cs =>
    if c.isDigit then fixedDigits count (10 * value + (c.toNat - 48)) cs else none

/-- A number of two digits between `low` and `high`. -/
def twoDigits (low high : Nat) : Reader Nat := fun cs =>
  match fixedDigits 2 0 cs with
  | some (n, rest) => if low ≤ n ∧ n ≤ high then some (n, rest) else none
  | none => none

def mark (c : Char) : List Char → Option (List Char)
  | [] => none
  | d :: cs => if d = c then some cs else none

def daysIn (year month : Nat) : Nat :=
  if month = 2 then
    if year % 4 = 0 ∧ (year % 100 ≠ 0 ∨ year % 400 = 0) then 29 else 28
  else if month = 4 ∨ month = 6 ∨ month = 9 ∨ month = 11 then 30
  else 31

def date (cs : List Char) : Option (List Char) := do
  let (year, cs) ← fixedDigits 4 0 cs
  let cs ← mark '-' cs
  let (month, cs) ← twoDigits 1 12 cs
  let cs ← mark '-' cs
  let (_, cs) ← twoDigits 1 (daysIn year month) cs
  return cs

/-- A time of day; a leap second is one. -/
def time (cs : List Char) : Option (List Char) := do
  let (_, cs) ← twoDigits 0 23 cs
  let cs ← mark ':' cs
  let (_, cs) ← twoDigits 0 59 cs
  let cs ← mark ':' cs
  let (_, cs) ← twoDigits 0 60 cs
  match mark '.' cs with
  | none => return cs
  | some rest =>
    match rest.takeWhile Char.isDigit with
    | [] => return cs
    | _ => return rest.dropWhile Char.isDigit

def offset (cs : List Char) : Option (List Char) :=
  match cs with
  | [] => none
  | c :: cs =>
    if c = 'Z' ∨ c = 'z' then some cs
    else if c = '+' ∨ c = '-' then do
      let (_, cs) ← twoDigits 0 23 cs
      let cs ← mark ':' cs
      let (_, cs) ← twoDigits 0 59 cs
      return cs
    else none

/-- A time after a date, and the offset after it if there is one. -/
def timeOfDate : List Char → Option (List Char)
  | [] => none
  | c :: cs =>
    if c = 'T' ∨ c = 't' ∨ c = ' ' then (time cs).map fun rest => (offset rest).getD rest
    else none

def moment : Reader Unit := fun cs =>
  match date cs with
  | some rest => some ((), (timeOfDate rest).getD rest)
  | none => (time cs).map fun rest => ((), rest)

end Toml
end StatefulPipeline
