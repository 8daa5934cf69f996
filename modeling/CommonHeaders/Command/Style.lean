import CommonHeaders.Text.Blank

/-! # Styled texts

On a terminal a text is styled by a control sequence before it and another one behind it, which ends
all styles. Where the text itself ends all styles, its own style begins again. Without colours a text
stays as it is. -/

namespace CommonHeaders.Command

open Text

/-- **A style**: the numbers of a control sequence. -/
structure Style where
  codes : List Nat

namespace Style

/-- Bold and underlined. -/
def heading : Style := ⟨[1, 4]⟩

/-- Bold and cyan. -/
def name : Style := ⟨[1, 36]⟩

def bold : Style := ⟨[1]⟩

def dimmed : Style := ⟨[2]⟩

def red : Style := ⟨[31]⟩

def green : Style := ⟨[32]⟩

def yellow : Style := ⟨[33]⟩

/-- The control sequence of some numbers. -/
def sequence (codes : List Nat) : Text :=
  '\x1b' :: '[' :: (join [';'] (codes.map (Nat.toDigits 10)) ++ ['m'])

/-- The sequence that begins the style. -/
def begin (s : Style) : Text := sequence s.codes

/-- The sequence that ends all styles. -/
def reset : Text := sequence [0]

/-- Puts `t` behind every ending of all styles. -/
def beginAgain (t : Text) : Text → Text
  | '\x1b' :: '[' :: '0' :: 'm' :: r => reset ++ t ++ beginAgain t r
  | c :: r => c :: beginAgain t r
  | [] => []

/-- **A text in a style**, if colours are shown. -/
def paint (s : Style) (colours : Bool) (t : Text) : Text :=
  if colours then s.begin ++ beginAgain s.begin t ++ reset else t

end Style

end CommonHeaders.Command
