import CommonHeaders.Text.Blank

/-! # Faults in json texts

A fault is what is wrong with a json text, and a failure is a fault with its place: the line,
counted from one, and the number of bytes of that line that have been read. -/

namespace CommonHeaders.Json

/-! ### Positions -/

/-- **A place in a text.** -/
structure Position where
  line : Nat
  column : Nat
deriving DecidableEq, Inhabited

namespace Position

/-- The place before the first character. -/
def start : Position := ⟨1, 0⟩

/-- The place after one character. -/
def afterChar (p : Position) (c : Char) : Position :=
  if c = '\n' then ⟨p.line + 1, 0⟩ else ⟨p.line, p.column + c.utf8Size⟩

/-- The place after a text. -/
def advance (p : Position) (t : Text) : Position := t.foldl afterChar p

/-- The place after the first byte of what follows; the end stays where it is. -/
def intoNext (p : Position) : Text → Position
  | [] => p
  | c :: _ => if c = '\n' then p.afterChar c else ⟨p.line, p.column + 1⟩

/-- The place after some bytes of what follows. -/
def afterBytes (p : Position) : Nat → Text → Position
  | _, [] => p
  | n, c :: r =>
    if n = 0 then p
    else if c.utf8Size ≤ n then afterBytes (p.afterChar c) (n - c.utf8Size) r
    else ⟨p.line, p.column + n⟩

end Position

/-! ### Faults -/

/-- **What is wrong with a json text.** -/
inductive Fault where
  | listUnclosed
  | recordUnclosed
  | textUnclosed
  | valueMissing
  | colonExpected
  | listGoesOn
  | recordGoesOn
  | wordExpected
  | valueExpected
  | badEscape
  | badNumber
  | numberTooGreat
  | controlCharacter
  | nameNotText
  | loneSurrogate
  | commaBeforeEnd
  | textBehindEnd
  | surrogateUnpaired
deriving DecidableEq, Inhabited

/-- The wording of a fault. -/
def Fault.message : Fault → String
  | .listUnclosed => "EOF while parsing a list"
  | .recordUnclosed => "EOF while parsing an object"
  | .textUnclosed => "EOF while parsing a string"
  | .valueMissing => "EOF while parsing a value"
  | .colonExpected => "expected `:`"
  | .listGoesOn => "expected `,` or `]`"
  | .recordGoesOn => "expected `,` or `\x7d`"
  | .wordExpected => "expected ident"
  | .valueExpected => "expected value"
  | .badEscape => "invalid escape"
  | .badNumber => "invalid number"
  | .numberTooGreat => "number out of range"
  | .controlCharacter => "control character (\\u0000-\\u001F) found while parsing a string"
  | .nameNotText => "key must be a string"
  | .loneSurrogate => "lone leading surrogate in hex escape"
  | .commaBeforeEnd => "trailing comma"
  | .textBehindEnd => "trailing characters"
  | .surrogateUnpaired => "unexpected end of hex escape"

/-- A fault and its place. -/
structure Failure where
  fault : Fault
  position : Position
deriving DecidableEq, Inhabited

end CommonHeaders.Json
