import StatefulPipeline.Numeral

/-! Values written into match keys and action parameters. A value is fitted into a number of bits
and kept as big-endian bytes, as many as the bits need. A value that needs more bits is refused;
nothing is cut off or wrapped. -/

namespace StatefulPipeline

/-- The widest field that can be encoded, in bits. -/
def maxWidth : Nat := 128

inductive EncodeError where
  | overflow (value : Int) (width : Nat) (signed : Bool)
  | invalidWidth (width : Nat)
deriving DecidableEq, Repr

def EncodeError.message : EncodeError → String
  | .overflow value width signed =>
    s!"value {value} does not fit in {width} bits (signed: {signed})"
  | .invalidWidth width => s!"invalid field width: {width}"

/-- Bytes of a field value, the most significant first. -/
structure Encoded where
  bytes : List UInt8
deriving DecidableEq, Repr

namespace Encoded

/-- How many values `width` bits tell apart. -/
def span (width : Nat) : Nat := Nat.pow 2 width

def byteCount (width : Nat) : Nat := (width + 7) / 8

/-- The last `count` bytes of a number, the most significant first. -/
def bigEndian : (count : Nat) → (value : Nat) → List UInt8
  | 0, _ => []
  | count + 1, value => UInt8.ofNat (value / Nat.pow 256 count) :: bigEndian count value

@[simp] theorem bigEndian_length (count value : Nat) : (bigEndian count value).length = count := by
  induction count with
  | zero => rfl
  | succ count ih => simp [bigEndian, ih]

def ofNat (value width : Nat) : Encoded := ⟨bigEndian (byteCount width) value⟩

@[simp] theorem ofNat_length (value width : Nat) :
    (ofNat value width).bytes.length = byteCount width := bigEndian_length _ _

def toNat (e : Encoded) : Nat := e.bytes.foldl (fun acc b => acc * 256 + b.toNat) 0

/-- The bytes read as a two's complement number of `width` bits. A magnitude whose sign bit is
clear, and every magnitude read at width zero or at the full width, is taken as it stands in the
two's complement of the full width. -/
def toInt (e : Encoded) (width : Nat) : Int :=
  if 0 < width ∧ width < maxWidth ∧ e.toNat.testBit (width - 1) = true then
    ((e.toNat % span width : Nat) : Int) - span width
  else Int.bmod e.toNat (span maxWidth)

def ValidWidth (width : Nat) : Prop := 0 < width ∧ width ≤ maxWidth

instance (width : Nat) : Decidable (ValidWidth width) :=
  inferInstanceAs (Decidable (0 < width ∧ width ≤ maxWidth))

/-- Fits an unsigned value into `width` bits; a negative value never fits. -/
def fit (value : Int) (width : Nat) : Except EncodeError Encoded :=
  if ValidWidth width then
    if 0 ≤ value ∧ value < span width then .ok (ofNat value.toNat width)
    else .error (.overflow value width false)
  else .error (.invalidWidth width)

def fitSigned (value : Int) (width : Nat) : Except EncodeError Encoded :=
  if ValidWidth width then
    if -(span (width - 1) : Int) ≤ value ∧ value < span (width - 1) then
      .ok (ofNat (value % span width).toNat width)
    else .error (.overflow value width true)
  else .error (.invalidWidth width)

def fitAs (signed : Bool) (value : Int) (width : Nat) : Except EncodeError Encoded :=
  if signed then fitSigned value width else fit value width

/-- `0x` and two lower-case digits a byte. -/
def hex (e : Encoded) : String :=
  String.ofList ('0' :: 'x' :: e.bytes.flatMap fun b => Numeral.hexPadded 2 b.toNat)

end Encoded

end StatefulPipeline
