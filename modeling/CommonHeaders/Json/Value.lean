import CommonHeaders.Text.Blank

/-! # Json values

A value is nothing, a truth value, a text, a list of values or a record, whose fields stand in the
order in which they are written. `render` writes a value over several lines: every item and every
field has a line of its own, two blanks deeper than the value it belongs to. An empty list and an
empty record take no line. -/

namespace CommonHeaders.Json

/-- **A value.** -/
inductive Value where
  | null
  | bool (b : Bool)
  | text (t : Text)
  | list (items : List Value)
  | record (fields : List (Text × Value))

namespace Value

instance : Inhabited Value := ⟨.null⟩

/-! ### Quoted texts -/

/-- A hexadecimal digit, in small letters. -/
def hexDigit (n : Nat) : Char := Nat.digitChar n

/-- The letter that stands behind a backslash for a character. -/
def escapeLetter? : Char → Option Char
  | '"' => some '"'
  | '\\' => some '\\'
  | '\n' => some 'n'
  | '\r' => some 'r'
  | '\t' => some 't'
  | '\x08' => some 'b'
  | '\x0c' => some 'f'
  | _ => none

/-- The written form of one character: the quote, the backslash and the control characters are
escaped, with a letter where there is one. -/
def written (c : Char) : Text :=
  match escapeLetter? c with
  | some letter => ['\\', letter]
  | none =>
    if c.toNat < 32 then
      ['\\', 'u', '0', '0', hexDigit (c.toNat / 16), hexDigit (c.toNat % 16)]
    else [c]

/-- A text between quotes. -/
def quoted (t : Text) : Text := '"' :: (t.flatMap written ++ ['"'])

/-! ### Writing -/

/-- A line break and the indentation of the next line. -/
def lineBreak (depth : Nat) : Text := '\n' :: List.replicate (2 * depth) ' '

mutual

/-- A value as it is written at some depth. -/
def renderAt (depth : Nat) : Value → Text
  | .null => "null".toList
  | .bool true => "true".toList
  | .bool false => "false".toList
  | .text t => quoted t
  | .list items =>
    '[' :: (renderItems (depth + 1) true items ++ closing depth items.isEmpty ++ [']'])
  | .record fields =>
    '\x7b' :: (renderFields (depth + 1) true fields ++ closing depth fields.isEmpty ++ ['\x7d'])

/-- The items of a list, each on its line. -/
def renderItems (depth : Nat) (first : Bool) : List Value → Text
  | [] => []
  | v :: rest =>
    separator depth first ++ (renderAt depth v ++ renderItems depth false rest)

/-- The fields of a record, each on its line. -/
def renderFields (depth : Nat) (first : Bool) : List (Text × Value) → Text
  | [] => []
  | (name, v) :: rest =>
    separator depth first ++
      (quoted name ++ (':' :: ' ' :: (renderAt depth v ++ renderFields depth false rest)))

/-- What stands before an item or a field: a comma unless it is the first one, and its line. -/
def separator (depth : Nat) (first : Bool) : Text :=
  if first then lineBreak depth else ',' :: lineBreak depth

/-- What stands before the closing bracket: its line, unless nothing has been written. -/
def closing (depth : Nat) (empty : Bool) : Text := if empty then [] else lineBreak depth

end

/-- **A value written over several lines.** -/
def render (v : Value) : Text := renderAt 0 v

end Value

end CommonHeaders.Json
