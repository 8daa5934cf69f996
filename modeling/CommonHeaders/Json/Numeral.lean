import CommonHeaders.Json.Quoted
import CommonHeaders.Number.Decimal

/-! # Reading numerals

A numeral is an optional minus sign, an integer without needless zeros, an optional fraction and an
optional power of ten. An integer that has 64 bits is kept as it is. Everything else is a binary
number, and of its digits those count that fit into 64 bits.

* `leadingDigits_append`: the digits taken and the rest make up the text.
* `readNumeral_rest_le`: reading a numeral does not lengthen the text. -/

namespace CommonHeaders.Json

open Text Number

/-- **A number**: an integer or a binary number, with its sign beside it. -/
inductive Numeral where
  | integer (negative : Bool) (magnitude : Nat)
  | binary (negative : Bool) (magnitude : Binary)
deriving DecidableEq, Inhabited

namespace Numeral

/-- The minus sign of a negative number. -/
def sign (negative : Bool) : Text := if negative then ['-'] else []

/-- The written form of a number. -/
def render : Numeral → Text
  | .integer negative n => sign negative ++ Nat.toDigits 10 n
  | .binary negative x => sign negative ++ x.render

end Numeral

/-! ### Digits -/

/-- The value of a decimal digit. -/
def digitValue (c : Char) : Nat := c.toNat - '0'.toNat

/-- The digits at the start of a text, as long as the value they make with those before them does
not exceed a bound: that value, the digits and the rest. -/
def leadingDigits (bound value : Nat) : Text → Nat × Text × Text
  | [] => (value, [], [])
  | c :: r =>
    if c.isDigit ∧ value * 10 + digitValue c ≤ bound then
      let (v, digits, rest) := leadingDigits bound (value * 10 + digitValue c) r
      (v, c :: digits, rest)
    else (value, [], c :: r)

theorem leadingDigits_append (bound value : Nat) (t : Text) :
    (leadingDigits bound value t).2.1 ++ (leadingDigits bound value t).2.2 = t := by
  induction t generalizing value with
  | nil => rfl
  | cons c r ih =>
    simp only [leadingDigits]
    split
    · simpa using ih _
    · rfl

theorem leadingDigits_rest_le (bound value : Nat) (t : Text) :
    (leadingDigits bound value t).2.2.length ≤ t.length := by
  have h := congrArg List.length (leadingDigits_append bound value t)
  rw [List.length_append] at h
  omega

/-- Does the text start with a digit? -/
def startsDigit (t : Text) : Bool := t.head?.any Char.isDigit

/-- The digits that are passed over, and the rest. -/
def skipDigits (t : Text) : Text × Text := (t.takeWhile Char.isDigit, t.dropWhile Char.isDigit)

theorem skipDigits_rest_le (t : Text) : (skipDigits t).2.length ≤ t.length :=
  (List.dropWhile_sublist _).length_le

/-- The greatest integer that is kept as it is. -/
def greatestInteger : Nat := Nat.pow 2 64 - 1

/-- The greatest power of ten that is read. -/
def greatestExponent : Nat := Nat.pow 2 31 - 1

/-! ### The parts of a numeral -/

/-- What has been read of a numeral: its sign, the digits that count and the power of ten they are
multiplied by. -/
structure Reading where
  negative : Bool
  significand : Nat
  exponent : Int

namespace Reading

/-- The binary number that has been read. -/
def toBinary (n : Reading) (p : Position) (rest : Text) : Piece Numeral :=
  match Binary.ofDecimal? n.significand n.exponent with
  | some x => ⟨.ok (.binary n.negative x), p, rest⟩
  | none => .failed .numberTooGreat p

/-- The integer that has been read. A zero with a minus sign is no integer, nor is a negative number
of more than 64 bits. -/
def toInteger (n : Reading) (p : Position) (rest : Text) : Piece Numeral :=
  if n.negative ∧ (n.significand = 0 ∨ Nat.pow 2 63 < n.significand) then n.toBinary p rest
  else ⟨.ok (.integer n.negative n.significand), p, rest⟩

/-- Reads the digits of the power of ten. One that is too great leaves a zero, or a fraction that is
too small for a number, but is no number otherwise. -/
def readPower (n : Reading) (downward : Bool) (p : Position) (t : Text) : Piece Numeral :=
  if t.isEmpty then .failed .valueMissing p
  else if !startsDigit t then .failed .badNumber (p.intoNext t)
  else
    let (e, digits, rest) := leadingDigits greatestExponent 0 t
    let p := p.advance digits
    if !startsDigit rest then
      { n with exponent := if downward then n.exponent - e else n.exponent + e }.toBinary p rest
    else if n.significand ≠ 0 ∧ !downward then .failed .numberTooGreat (p.intoNext rest)
    else
      let (digits, rest) := skipDigits rest
      ⟨.ok (.binary n.negative .zero), p.advance digits, rest⟩

/-- Reads the power of ten behind the letter `e`, with an optional sign. -/
def readExponent (n : Reading) (p : Position) : Text → Piece Numeral
  | '+' :: t => n.readPower false (p.afterChar '+') t
  | '-' :: t => n.readPower true (p.afterChar '-') t
  | t => n.readPower false p t

/-- Reads an optional power of ten. -/
def readScale (n : Reading) (p : Position) (t : Text) : Piece Numeral :=
  match t with
  | c :: r => if c = 'e' ∨ c = 'E' then n.readExponent (p.afterChar c) r else n.toBinary p t
  | [] => n.toBinary p t

/-- Reads the fraction behind the point. Digits from the first one that does not fit are passed
over. -/
def readFraction (n : Reading) (p : Position) (t : Text) : Piece Numeral :=
  let (s, digits, rest) := leadingDigits greatestInteger n.significand t
  let p := p.advance digits
  if digits.isEmpty ∧ !startsDigit rest then
    .failed (if rest.isEmpty then .valueMissing else .badNumber) (p.intoNext rest)
  else
    let (skipped, rest) := skipDigits rest
    { n with significand := s, exponent := n.exponent - digits.length }.readScale
      (p.advance skipped) rest

/-- Reads what follows the integer digits. -/
def readBehind (n : Reading) (p : Position) (t : Text) : Piece Numeral :=
  match t with
  | c :: r =>
    if c = '.' then n.readFraction (p.afterChar c) r
    else if c = 'e' ∨ c = 'E' ∨ n.exponent ≠ 0 then n.readScale p t
    else n.toInteger p t
  | [] => if n.exponent ≠ 0 then n.toBinary p t else n.toInteger p t

end Reading

/-- Reads a numeral behind its first digit. Every digit that does not fit makes the power of ten
greater by one. -/
def readDigits (negative : Bool) (first : Char) (p : Position) (t : Text) : Piece Numeral :=
  if first = '0' ∧ startsDigit t then .failed .badNumber (p.intoNext t)
  else
    let (s, digits, rest) := leadingDigits greatestInteger (digitValue first) t
    let (skipped, rest) := skipDigits rest
    Reading.readBehind ⟨negative, s, skipped.length⟩ ((p.advance digits).advance skipped) rest

/-- Reads a numeral behind its minus sign. -/
def readNegative (p : Position) (t : Text) : Piece Numeral :=
  match t with
  | [] => .failed .valueMissing p
  | c :: r =>
    if c.isDigit then readDigits true c (p.afterChar c) r
    else .failed .badNumber (p.intoNext t)

/-- **Reads a numeral** behind its first character, a minus sign or a digit. -/
def readNumeral (first : Char) (p : Position) (t : Text) : Piece Numeral :=
  if first = '-' then readNegative p t else readDigits false first p t

/-! ### Reading shortens the text -/

namespace Reading

theorem toBinary_rest_le (n : Reading) (p : Position) (t : Text) :
    (n.toBinary p t).rest.length ≤ t.length := by
  simp only [toBinary]
  split <;> simp [Piece.failed]

theorem toInteger_rest_le (n : Reading) (p : Position) (t : Text) :
    (n.toInteger p t).rest.length ≤ t.length := by
  simp only [toInteger]
  split
  · exact toBinary_rest_le ..
  · simp

theorem readPower_rest_le (n : Reading) (downward : Bool) (p : Position) (t : Text) :
    (n.readPower downward p t).rest.length ≤ t.length := by
  have h := leadingDigits_rest_le greatestExponent 0 t
  simp only [readPower]
  split
  · simp [Piece.failed]
  · split
    · simp [Piece.failed]
    · split
      · exact Nat.le_trans (toBinary_rest_le ..) h
      · split
        · simp [Piece.failed]
        · exact Nat.le_trans (skipDigits_rest_le _) h

theorem readExponent_rest_le (n : Reading) (p : Position) (t : Text) :
    (n.readExponent p t).rest.length ≤ t.length := by
  simp only [readExponent]
  split
  · exact Nat.le_trans (readPower_rest_le ..) (by simp)
  · exact Nat.le_trans (readPower_rest_le ..) (by simp)
  · exact readPower_rest_le ..

theorem readScale_rest_le (n : Reading) (p : Position) (t : Text) :
    (n.readScale p t).rest.length ≤ t.length := by
  simp only [readScale]
  split
  · split
    · exact Nat.le_trans (readExponent_rest_le ..) (by simp)
    · exact toBinary_rest_le ..
  · exact toBinary_rest_le ..

theorem readFraction_rest_le (n : Reading) (p : Position) (t : Text) :
    (n.readFraction p t).rest.length ≤ t.length := by
  have h := leadingDigits_rest_le greatestInteger n.significand t
  simp only [readFraction]
  split
  · simp [Piece.failed]
  · exact Nat.le_trans (readScale_rest_le ..) (Nat.le_trans (skipDigits_rest_le _) h)

theorem readBehind_rest_le (n : Reading) (p : Position) (t : Text) :
    (n.readBehind p t).rest.length ≤ t.length := by
  simp only [readBehind]
  split
  · split
    · exact Nat.le_trans (readFraction_rest_le ..) (by simp)
    · split
      · exact readScale_rest_le ..
      · exact toInteger_rest_le ..
  · split
    · exact toBinary_rest_le ..
    · exact toInteger_rest_le ..

end Reading

theorem readDigits_rest_le (negative : Bool) (first : Char) (p : Position) (t : Text) :
    (readDigits negative first p t).rest.length ≤ t.length := by
  have h := leadingDigits_rest_le greatestInteger (digitValue first) t
  simp only [readDigits]
  split
  · simp [Piece.failed]
  · exact Nat.le_trans (Reading.readBehind_rest_le ..) (Nat.le_trans (skipDigits_rest_le _) h)

/-- Reading a numeral does not lengthen the text. -/
theorem readNumeral_rest_le (first : Char) (p : Position) (t : Text) :
    (readNumeral first p t).rest.length ≤ t.length := by
  simp only [readNumeral, readNegative]
  split
  · split
    · simp [Piece.failed]
    · split
      · exact Nat.le_trans (readDigits_rest_le ..) (by simp)
      · simp [Piece.failed]
  · exact readDigits_rest_le ..

end CommonHeaders.Json
