import CommonHeaders.Text.Blank

/-! # Binary numbers of double precision

A binary number has a significand of at most 53 bits and a power of two with an exponent from -1074
to 971; only numbers that are not negative are kept, the sign stands beside them. A ratio of two
natural numbers is rounded to the nearest such number, a tie to the even significand, and every
operation rounds its exact result once. -/

namespace CommonHeaders.Number

/-! ### Rounding to a natural number -/

/-- The natural number nearest to `num / den`, the even one of two. -/
def roundHalfEven (num den : Nat) : Nat :=
  if 2 * (num % den) < den then num / den
  else if den < 2 * (num % den) then num / den + 1
  else num / den + num / den % 2

/-! ### Binary numbers -/

/-- **A binary number** that is not negative: `significand * 2 ^ exponent`. -/
structure Binary where
  significand : Nat
  exponent : Int
deriving DecidableEq, Inhabited

namespace Binary

/-- The least exponent. -/
def leastExponent : Int := -1074

/-- The greatest exponent of a finite number. -/
def greatestExponent : Int := 971

/-- The least significand that takes all bits. -/
def fullSignificand : Nat := Nat.pow 2 52

def zero : Binary := ⟨0, leastExponent⟩

def isZero (x : Binary) : Bool := x.significand == 0

/-- A ratio times a power of two, as a ratio. -/
def shifted (num den : Nat) (e : Int) : Nat × Nat :=
  (num * Nat.pow 2 e.toNat, den * Nat.pow 2 (-e).toNat)

/-- The exponent with which the significand of a ratio takes all bits, or the least one if that is
greater. -/
def exponentOf (num den : Nat) : Int :=
  let low : Int := (num.log2 : Int) - den.log2 - 53
  let scaled := shifted num den (-low)
  max leastExponent (if 2 * fullSignificand * scaled.2 ≤ scaled.1 then low + 1 else low)

/-- **The number nearest to a ratio**, or nothing if it is too great. -/
def ofRatio? (num den : Nat) : Option Binary :=
  if num = 0 then some zero
  else
    let e := exponentOf num den
    let scaled := shifted num den (-e)
    let s := roundHalfEven scaled.1 scaled.2
    let x : Binary := if s = 2 * fullSignificand then ⟨fullSignificand, e + 1⟩ else ⟨s, e⟩
    if x.exponent ≤ greatestExponent then some x else none

/-- The rounded product. -/
def mul? (x y : Binary) : Option Binary :=
  let product := shifted (x.significand * y.significand) 1 (x.exponent + y.exponent)
  ofRatio? product.1 product.2

/-- The rounded quotient; `y` is not zero. -/
def div? (x y : Binary) : Option Binary :=
  let quotient := shifted x.significand y.significand (x.exponent - y.exponent)
  ofRatio? quotient.1 quotient.2

/-- The number nearest to a power of ten. -/
def powerOfTen? (n : Nat) : Option Binary := ofRatio? (Nat.pow 10 n) 1

/-- The number nearest to a natural number. -/
def ofNat? (n : Nat) : Option Binary := ofRatio? n 1

/-! ### Numerals -/

/-- The greatest power of ten that is a finite number. -/
def greatestPower : Nat := 308

/-- The quotient by a power of ten, in two steps where one power is too great; a quotient that
takes more than two steps is zero for every significand of 64 bits. -/
def divPower? (x : Binary) (n : Nat) : Option Binary :=
  if n ≤ greatestPower then (powerOfTen? n).bind x.div?
  else if n ≤ 2 * greatestPower then
    ((powerOfTen? greatestPower).bind x.div?).bind fun y =>
      (powerOfTen? (n - greatestPower)).bind y.div?
  else some zero

/-- **The number that a decimal numeral stands for**: the significand and the power of ten are
rounded first, and their product or quotient is rounded again. Nothing if it is too great. -/
def ofDecimal? (significand : Nat) (exponent : Int) : Option Binary :=
  if significand = 0 then some zero
  else if exponent < 0 then (ofNat? significand).bind fun x => x.divPower? (-exponent).toNat
  else if exponent ≤ greatestPower then
    (ofNat? significand).bind fun x => (powerOfTen? exponent.toNat).bind x.mul?
  else none

end Binary

end CommonHeaders.Number
