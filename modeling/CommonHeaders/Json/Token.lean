import CommonHeaders.Json.Numeral

/-! # Tokens of json texts

A json text is cut into tokens: marks, which are single characters, quoted texts and plain values,
that is numbers and the words `null`, `true` and `false`. Blanks between tokens are passed over. A
quoted text or a plain value that cannot be read is a token too, the last one.

Every token knows where it starts and where it stops, and the stream of tokens knows where the text
ends. -/

namespace CommonHeaders.Json

open Text

/-! ### Tokens -/

/-- A value without parts, quoted texts aside. -/
inductive Plain where
  | null
  | bool (b : Bool)
  | number (n : Numeral)
deriving DecidableEq, Inhabited

/-- What a token holds. -/
inductive Lexeme where
  | mark (c : Char)
  | quoted (content : Except Failure Text)
  | plain (content : Except Failure Plain)

/-- **A token** between two places. -/
structure Token where
  lexeme : Lexeme
  start : Position
  stop : Position

/-- **The tokens of a text**, up to the place where the text ends. -/
inductive Tokens where
  | ending (p : Position)
  | token (t : Token) (rest : Tokens)

namespace Token

/-- The place after the first byte of a token, where faults of what stands there are found. -/
def intoStart (t : Token) : Position := ⟨t.start.line, t.start.column + 1⟩

end Token

namespace Tokens

/-- The place before the next token, or the end. -/
def position : Tokens → Position
  | ending p => p
  | token t _ => t.start

/-- The place after the first byte of the next token, or the end. -/
def intoNext : Tokens → Position
  | ending p => p
  | token t _ => t.intoStart

/-- Is the next token a certain mark? -/
def startsWith (c : Char) : Tokens → Bool
  | token ⟨.mark d, _, _⟩ _ => d == c
  | _ => false

/-- The number of tokens. -/
def count : Tokens → Nat
  | ending _ => 0
  | token _ rest => rest.count + 1

/-- The failure at the next token, with one fault at the end of the text and another elsewhere. -/
def failure (atEnd elsewhere : Fault) : Tokens → Failure
  | ending p => ⟨atEnd, p⟩
  | token t _ => ⟨elsewhere, t.intoStart⟩

end Tokens

/-! ### Cutting -/

/-- The characters between tokens. -/
def isSeparator (c : Char) : Bool := c == ' ' || c == '\n' || c == '\t' || c == '\r'

/-- Reads the rest of a fixed word. -/
def readWord {α : Type} (value : α) (p : Position) : Text → Text → Piece α
  | [], t => ⟨.ok value, p, t⟩
  | _ :: _, [] => .failed .valueMissing p
  | w :: word, c :: r =>
    if c = w then readWord value (p.afterChar c) word r
    else .failed .wordExpected (p.intoNext (c :: r))

theorem readWord_rest_le {α : Type} (value : α) (p : Position) (word t : Text) :
    (readWord value p word t).rest.length ≤ t.length := by
  induction word generalizing p t with
  | nil => simp [readWord]
  | cons w word ih =>
    cases t with
    | nil => simp [readWord, Piece.failed]
    | cons c r =>
      simp only [readWord]
      split
      · have := ih (p.afterChar c) r
        simp only [List.length_cons]
        omega
      · simp [Piece.failed]

/-- Reads what a token holds, behind its first character. -/
def readLexeme (first : Char) (p : Position) (t : Text) : Lexeme × Position × Text :=
  let plain (piece : Piece Plain) := (Lexeme.plain piece.content, piece.stop, piece.rest)
  if first = '"' then
    let piece := readQuoted p t
    (.quoted piece.content, piece.stop, piece.rest)
  else if first = '-' ∨ first.isDigit then plain ((readNumeral first p t).map .number)
  else if first = 'n' then plain (readWord .null p "ull".toList t)
  else if first = 't' then plain (readWord (.bool true) p "rue".toList t)
  else if first = 'f' then plain (readWord (.bool false) p "alse".toList t)
  else (.mark first, p, t)

theorem readLexeme_rest_le (first : Char) (p : Position) (t : Text) :
    (readLexeme first p t).2.2.length ≤ t.length := by
  simp only [readLexeme]
  split
  · exact readQuoted_rest_le p t
  · split
    · exact readNumeral_rest_le first p t
    · repeat' split
      all_goals first | exact readWord_rest_le .. | exact Nat.le_refl _

/-- **The tokens of a text** that starts at some place. -/
def tokensFrom (p : Position) (t : Text) : Tokens :=
  match t with
  | [] => .ending p
  | c :: r =>
    if isSeparator c then tokensFrom (p.afterChar c) r
    else
      let read := readLexeme c (p.afterChar c) r
      .token ⟨read.1, p, read.2.1⟩ (tokensFrom read.2.1 read.2.2)
termination_by t.length
decreasing_by
  · simp
  · have := readLexeme_rest_le c (p.afterChar c) r
    simp only [List.length_cons]
    omega

/-- **The tokens of a text.** -/
def tokens (t : Text) : Tokens := tokensFrom .start t

end CommonHeaders.Json
