import CommonHeaders.Number.Binary

/-! # The shortest decimal of a binary number

A decimal reads back as a binary number when it lies in the interval of the numbers that are rounded
to it; the ends belong to the interval when the significand is even. The shortest decimal is the
one on the coarsest grid of a power of ten that has a point in the interval, and of two such points
the nearer, or the even one if both are equally near.

It is written with a point, unless its first digit is far from the point; then an exponent
follows the digits. -/

namespace CommonHeaders.Number

open Text

/-- A decimal that is not negative: `digits * 10 ^ exponent`. -/
structure Decimal where
  digits : Nat
  exponent : Int
deriving DecidableEq, Inhabited

/-! ### The interval of a binary number -/

/-- A number and the ends of its interval, as multiples of `unit / den`: the neighbours are half
a step away, below a power of two only a quarter of one. -/
structure Interval where
  low : Nat
  value : Nat
  high : Nat
  den : Nat
  closed : Bool

/-- The interval of a binary number. -/
def Binary.interval (x : Binary) : Interval :=
  let scale := Binary.shifted 1 1 (x.exponent - 2)
  let below :=
    if x.significand = Binary.fullSignificand ∧ Binary.leastExponent < x.exponent then 1 else 2
  { low := (4 * x.significand - below) * scale.1
    value := 4 * x.significand * scale.1
    high := (4 * x.significand + 2) * scale.1
    den := scale.2
    closed := x.significand % 2 == 0 }

namespace Interval

/-- The interval with the power of ten `10 ^ e` as its unit. -/
def inUnits (i : Interval) (e : Int) : Interval :=
  let up := Nat.pow 10 (-e).toNat
  { i with
    low := i.low * up, value := i.value * up, high := i.high * up
    den := i.den * Nat.pow 10 e.toNat }

/-- Does the natural number lie in the interval? -/
def contains (i : Interval) (n : Nat) : Bool :=
  if i.closed then i.low ≤ n * i.den && n * i.den ≤ i.high
  else i.low < n * i.den && n * i.den < i.high

/-- The natural number just below the value, or at it. -/
def below (i : Interval) : Nat := i.value / i.den

/-- The natural number in the interval that is nearest to the value, the even one of two. -/
def nearest? (i : Interval) : Option Nat :=
  match i.contains i.below, i.contains (i.below + 1) with
  | false, false => none
  | true, false => some i.below
  | false, true => some (i.below + 1)
  | true, true => some (roundHalfEven i.value i.den)

end Interval

/-! ### The shortest decimal -/

/-- The exponent of the coarsest grid. -/
def coarsestGrid : Int := 309

/-- The number of grids; the finest one holds every binary number. -/
def gridCount : Nat := 1384

/-- **The shortest decimal that reads back as a number.** -/
def Binary.shortest (x : Binary) : Decimal :=
  if x.isZero then ⟨0, 0⟩
  else
    ((List.range gridCount).findSome? fun (k : Nat) =>
      let e := coarsestGrid - k
      (x.interval.inUnits e).nearest?.map fun n => ⟨n, e⟩).getD ⟨0, 0⟩

/-! ### Writing -/

/-- The bounds between which the place of the point is shown by the digits: at most so many digits
before it, and fewer than so many zeros behind it. -/
structure PointRange where
  digitsBefore : Nat
  zerosBehind : Nat

/-- Up to sixteen digits before the point, up to four zeros behind it. -/
def pointRange : PointRange := ⟨16, 5⟩

/-- An exponent, always with its sign. -/
def renderExponent (e : Int) : Text :=
  'e' :: (if e < 0 then '-' else '+') :: Nat.toDigits 10 e.natAbs

/-- A digit, and the others behind a point. -/
def renderScientific : Text → Text
  | d :: rest@(_ :: _) => d :: '.' :: rest
  | t => t

/-- **The written form of a decimal.** Without an exponent there is a digit on either side of the
point. -/
def Decimal.render (d : Decimal) : Text :=
  let digits := Nat.toDigits 10 d.digits
  let place : Int := digits.length + d.exponent
  if 0 ≤ d.exponent ∧ place ≤ pointRange.digitsBefore then
    digits ++ List.replicate d.exponent.toNat '0' ++ ['.', '0']
  else if 0 < place ∧ place ≤ pointRange.digitsBefore then
    digits.take place.toNat ++ '.' :: digits.drop place.toNat
  else if -(pointRange.zerosBehind : Int) < place ∧ place ≤ 0 then
    '0' :: '.' :: (List.replicate (-place).toNat '0' ++ digits)
  else renderScientific digits ++ renderExponent (place - 1)

/-- The shortest written form that reads back as a number. -/
def Binary.render (x : Binary) : Text := x.shortest.render

end CommonHeaders.Number
