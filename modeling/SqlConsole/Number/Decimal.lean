import SqlConsole.Number.Double
/-!
# Doubles in decimal notation

`Decimal.read?` reads a decimal number and rounds it to a double.  `Decimal.shortest` finds the
fewest digits that are read back as a given double, and among numbers of so few digits the one
nearest to it; of two equally near ones the greater.  `Decimal.render` writes those digits without
an exponent, however many zeros that takes, and without a point behind a whole number.
-/

namespace SqlConsole.Decimal

/-! ## Reading -/

/-- Digits with at most one point among them: the digits before and after the point. -/
def splitPoint (t : Text) : Text × Text :=
  (t.takeWhile (· != '.'), (t.dropWhile (· != '.')).tail)

/-- The exponent that is written behind an `e`: digits, with a sign or without. -/
def exponent? (t : Text) : Option Int :=
  match t with
  | '-' :: digits => if Text.isDigits digits then some (-Text.decimalValue digits) else none
  | '+' :: digits => if Text.isDigits digits then some (Text.decimalValue digits) else none
  | digits => if Text.isDigits digits then some (Text.decimalValue digits) else none

/-- The double nearest to a whole number times a power of ten.  A number far outside of the range
of doubles is not computed but is zero or infinite at once. -/
def ofScientific (negative : Bool) (coefficient : Nat) (power : Int) : Double :=
  let size := (Text.ofNat coefficient).length + power
  if coefficient = 0 ∨ size < -400 then ⟨negative, 0⟩
  else if 400 < size then ⟨negative, Double.infinity⟩
  else
    let (num, den) := Double.scale 10 power coefficient 1
    Double.ofRatio negative num den

/-- A number without a sign: digits with at most one point, at least one digit, and perhaps an
exponent behind `e` or `E`. -/
def readUnsigned? (negative : Bool) (t : Text) : Option Double :=
  let isMark := fun c : Char => c == 'e' || c == 'E'
  let mantissa := t.takeWhile fun c => !isMark c
  let (whole, fraction) := splitPoint mantissa
  let digits := whole ++ fraction
  let power? := match t.dropWhile fun c => !isMark c with
    | [] => some 0
    | _ :: e => exponent? e
  match Text.isDigits digits, power? with
  | true, some power =>
    some (ofScientific negative (Text.decimalValue digits) (power - fraction.length))
  | _, _ => none

/-- The double that a text spells: a decimal number, `inf`, `infinity` or `nan` in any letter
case, with a sign or without. -/
def read? (t : Text) : Option Double :=
  let (negative, body) := match t with
    | '-' :: r => (true, r)
    | '+' :: r => (false, r)
    | r => (false, r)
  if Text.sameWord body "inf" || Text.sameWord body "infinity" then
    some ⟨negative, Double.infinity⟩
  else if Text.sameWord body "nan" then some { Double.nan with negative }
  else readUnsigned? negative body

/-! ## Writing -/

/-- A quotient of natural numbers. -/
structure Ratio where
  num : Nat
  den : Nat
  deriving DecidableEq, Repr

/-- Whether a quotient is not above another one. -/
def Ratio.le (a b : Ratio) : Bool := a.num * b.den ≤ b.num * a.den

def Ratio.lt (a b : Ratio) : Bool := a.num * b.den < b.num * a.den

/-- The numbers that are read as one and the same double. -/
structure Interval where
  low : Ratio
  high : Ratio
  /-- The ends are read as that double too. -/
  closed : Bool
  deriving DecidableEq, Repr

def Interval.contains (i : Interval) (x : Ratio) : Bool :=
  if i.closed then i.low.le x && x.le i.high else i.low.lt x && x.lt i.high

/-- A number of quarters of the last place of a double. -/
def quarters (d : Double) (n : Nat) : Ratio :=
  let (num, den) := Double.scale 2 (d.exponent - 2) n 1
  ⟨num, den⟩

/-- The exact value of a finite double, without its sign. -/
def value (d : Double) : Ratio := quarters d (4 * d.significand)

/-- The numbers that are read as a finite double: half a place in both directions, but only a
quarter of a place down from a power of two, where the places below are half as wide. -/
def interval (d : Double) : Interval :=
  let s := d.significand
  let down := if s = Double.exponentBit then 1 else 2
  ⟨quarters d (4 * s - down), quarters d (4 * s + 2), s % 2 = 0⟩

/-- The number of digits before the point of a positive quotient; zero or negative for one below
a tenth. -/
def digitsBeforePoint (x : Ratio) : Int :=
  let k : Int := ((Text.ofNat x.num).length : Int) - (Text.ofNat x.den).length
  let (num, den) := Double.scale 10 (-k) x.num x.den
  if den ≤ num then k + 1 else k

/-- A whole number times a power of ten. -/
structure Scientific where
  coefficient : Nat
  power : Int
  deriving DecidableEq, Repr

/-- The quotient that a whole number times a power of ten is. -/
def Scientific.toRatio (s : Scientific) : Ratio :=
  let (num, den) := Double.scale 10 s.power s.coefficient 1
  ⟨num, den⟩

/-- The neighbour of a quotient among the multiples of a power of ten that is read as the same
double; the nearer one if both are, and the greater one if they are equally near. -/
def neighbour? (i : Interval) (x : Ratio) (power : Int) : Option Scientific :=
  let (num, den) := Double.scale 10 (-power) x.num x.den
  let below : Scientific := ⟨num / den, power⟩
  let above : Scientific := ⟨num / den + 1, power⟩
  match i.contains below.toRatio, i.contains above.toRatio with
  | true, true => if 2 * (num % den) < den then some below else some above
  | true, false => some below
  | false, true => some above
  | false, false => none

/-- The fewest digits that are read back as a positive finite double.  Seventeen digits always
are. -/
def shortest (d : Double) : Scientific :=
  let x := value d
  let k := digitsBeforePoint x
  let found := (List.range 17).findSome? fun n : Nat => neighbour? (interval d) x (k - (n + 1))
  found.getD ⟨0, 0⟩

/-- A coefficient and a power of ten in digits, with as many zeros as it takes and no zeros at the
end of a fraction. -/
def Scientific.render (s : Scientific) : Text :=
  let digits := Text.ofNat s.coefficient
  if 0 ≤ s.power then digits ++ List.replicate s.power.toNat '0'
  else
    let places := (-s.power).toNat
    let padded := List.replicate (places + 1 - digits.length) '0' ++ digits
    let whole := padded.take (padded.length - places)
    let fraction := Text.dropEndWhile (· == '0') (padded.drop (padded.length - places))
    if fraction.isEmpty then whole else whole ++ '.' :: fraction

/-- A double in decimal notation. -/
def render (d : Double) : Text :=
  if d.isNaN then "NaN"
  else
    let sign : Text := if d.negative then ['-'] else []
    if d.isInfinite then sign ++ "inf"
    else if d.magnitude = 0 then sign ++ "0"
    else sign ++ (shortest d).render

end SqlConsole.Decimal
