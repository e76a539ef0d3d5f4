import SqlConsole.Text.Basic
/-!
# Double precision numbers

A double is kept as its sign and the 63 bits behind it, read as a natural number.  In this order
the finite doubles come first, by size, then infinity, then everything that is not a number.
Nothing here uses machine arithmetic: `ofRatio` rounds an exact quotient, and `significand` and
`exponent` say exactly which number a finite double is.
-/

namespace SqlConsole

/-- A number of the IEEE 754 format with 64 bits. -/
structure Double where
  /-- The sign bit. -/
  negative : Bool
  /-- The word behind the sign bit: eleven bits of exponent and 52 bits of fraction. -/
  magnitude : Nat
  deriving DecidableEq, Repr, Inhabited

namespace Double

/-- The lowest bit of the exponent. -/
def exponentBit : Nat := 0x0010000000000000

/-- The magnitude of infinity: all bits of the exponent set, and none of the fraction. -/
def infinity : Nat := 0x7ff0000000000000

/-- The value that is not a number: the magnitude of infinity and the first bit of the fraction. -/
def nan : Double := ⟨false, 0x7ff8000000000000⟩

def isNaN (d : Double) : Bool := infinity < d.magnitude

def isInfinite (d : Double) : Bool := d.magnitude == infinity

/-- The eleven bits of the exponent. -/
def biased (d : Double) : Nat := d.magnitude / exponentBit

/-- The whole number that a finite double is a multiple of a power of two of. -/
def significand (d : Double) : Nat :=
  if d.biased = 0 then d.magnitude % exponentBit else exponentBit + d.magnitude % exponentBit

/-- The exponent of that power of two. -/
def exponent (d : Double) : Int := (max d.biased 1 : Nat) - 1075

/-- Whether two doubles are equal as numbers: zero has no sign, and what is not a number equals
nothing. -/
def same (a b : Double) : Bool :=
  !a.isNaN && !b.isNaN && a.magnitude == b.magnitude &&
    (a.negative == b.negative || a.magnitude == 0)

/-! ## Rounding -/

/-- The whole number nearest to a quotient, and the even one of two that are equally near. -/
def roundToEven (num den : Nat) : Nat :=
  let q := num / den
  let r := 2 * (num % den)
  if r < den ∨ (r = den ∧ q % 2 = 0) then q else q + 1

/-- A quotient times a power of a base, as numerator and denominator. -/
def scale (base : Nat) (power : Int) (num den : Nat) : Nat × Nat :=
  if 0 ≤ power then (num * Nat.pow base power.toNat, den)
  else (num, den * Nat.pow base (-power).toNat)

/-- The exponent of the greatest power of two that is not above a positive quotient. -/
def log2Floor (num den : Nat) : Int :=
  let d : Int := (num.log2 : Int) - den.log2
  let (n, m) := scale 2 (-d) num den
  if m ≤ n then d else d - 1

/-- The double nearest to a quotient; of two that are equally near, the one whose last bit is not
set.  A quotient that rounds beyond the greatest finite double is infinite. -/
def ofRatio (negative : Bool) (num den : Nat) : Double :=
  if num = 0 then ⟨negative, 0⟩
  else
    let power := max (log2Floor num den - 52) (-1074)
    let (n, m) := scale 2 (-power) num den
    let word := (power + 1074).toNat * exponentBit + roundToEven n m
    ⟨negative, min word infinity⟩

end Double

end SqlConsole
