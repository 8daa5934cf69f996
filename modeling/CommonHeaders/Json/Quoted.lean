import CommonHeaders.Json.Fault

/-! # Reading quoted texts

Behind the opening quote a text goes on to the first bare quote. A backslash stands before a quote,
a backslash, a slash or a letter for a control character, or before `u` and the four hexadecimal
digits of a code unit; a code point beyond 65535 is a pair of such code units. Control characters
may not stand there bare.

* `escape_rest_lt`, `readQuoted_rest_le`: reading shortens the text. -/

namespace CommonHeaders.Json

open Text

/-! ### Code units -/

/-- The value of a hexadecimal digit. -/
def hexValue? (c : Char) : Option Nat :=
  if c.isDigit then some (c.toNat - '0'.toNat)
  else if 'a' ≤ c ∧ c ≤ 'f' then some (c.toNat - 'a'.toNat + 10)
  else if 'A' ≤ c ∧ c ≤ 'F' then some (c.toNat - 'A'.toNat + 10)
  else none

/-- The value of four hexadecimal digits. -/
def quadValue? (a b c d : Char) : Option Nat := do
  let a ← hexValue? a
  let b ← hexValue? b
  let c ← hexValue? c
  let d ← hexValue? d
  return ((a * 16 + b) * 16 + c) * 16 + d

/-- Reads four hexadecimal digits: their value, the place behind them and the rest. -/
def quad (p : Position) : Text → Except Failure (Nat × Position × Text)
  | a :: b :: c :: d :: r =>
    match quadValue? a b c d with
    | some n => .ok (n, p.advance [a, b, c, d], r)
    | none => .error ⟨.badEscape, p.afterBytes 4 (a :: b :: c :: d :: r)⟩
  | t =>
    if (String.ofList t).utf8ByteSize < 4 then .error ⟨.textUnclosed, p.advance t⟩
    else .error ⟨.badEscape, p.afterBytes 4 t⟩

/-- Is the code unit the first of a pair? -/
def leadsPair (n : Nat) : Bool := 0xD800 ≤ n && n < 0xDC00

/-- Is the code unit the second of a pair? -/
def endsPair (n : Nat) : Bool := 0xDC00 ≤ n && n < 0xE000

/-- The code point of a pair. -/
def pairValue (first second : Nat) : Nat := 0x10000 + (first - 0xD800) * 0x400 + (second - 0xDC00)

/-- Reads the second code unit of a pair, which is escaped as well. -/
def pairEnd (p : Position) : Text → Except Failure (Nat × Position × Text)
  | [] => .error ⟨.textUnclosed, p⟩
  | ['\\'] => .error ⟨.textUnclosed, p.afterChar '\\'⟩
  | '\\' :: 'u' :: r => quad ((p.afterChar '\\').afterChar 'u') r
  | '\\' :: c :: r => .error ⟨.surrogateUnpaired, (p.afterChar '\\').intoNext (c :: r)⟩
  | t => .error ⟨.surrogateUnpaired, p.intoNext t⟩

/-- Reads a character from its code units. -/
def codeUnits (p : Position) (t : Text) : Except Failure (Char × Position × Text) := do
  let (first, p, t) ← quad p t
  if endsPair first then throw ⟨.loneSurrogate, p⟩
  else if leadsPair first then
    let (second, p, t) ← pairEnd p t
    if endsPair second then return (Char.ofNat (pairValue first second), p, t)
    else throw ⟨.loneSurrogate, p⟩
  else return (Char.ofNat first, p, t)

/-! ### Escapes -/

/-- The character that a letter behind a backslash stands for. -/
def unescaped? : Char → Option Char
  | '"' => some '"'
  | '\\' => some '\\'
  | '/' => some '/'
  | 'b' => some '\x08'
  | 'f' => some '\x0c'
  | 'n' => some '\n'
  | 'r' => some '\r'
  | 't' => some '\t'
  | _ => none

/-- **Reads what stands behind a backslash.** -/
def escape (p : Position) : Text → Except Failure (Char × Position × Text)
  | [] => .error ⟨.textUnclosed, p⟩
  | c :: r =>
    if c = 'u' then codeUnits (p.afterChar c) r
    else
      match unescaped? c with
      | some d => .ok (d, p.afterChar c, r)
      | none => .error ⟨.badEscape, p.intoNext (c :: r)⟩

theorem quad_rest_le {p q : Position} {t r : Text} {n : Nat} (h : quad p t = .ok (n, q, r)) :
    r.length ≤ t.length := by
  simp only [quad] at h
  split at h
  · split at h <;> simp at h
    obtain ⟨_, _, rfl⟩ := h
    simp only [List.length_cons]
    omega
  · split at h <;> simp at h

theorem pairEnd_rest_le {p q : Position} {t r : Text} {n : Nat}
    (h : pairEnd p t = .ok (n, q, r)) : r.length ≤ t.length := by
  simp only [pairEnd] at h
  split at h <;> try simp at h
  have := quad_rest_le h
  simp only [List.length_cons]
  omega

theorem codeUnits_rest_le {p q : Position} {t r : Text} {c : Char}
    (h : codeUnits p t = .ok (c, q, r)) : r.length ≤ t.length := by
  simp only [codeUnits, bind, Except.bind] at h
  split at h
  · simp at h
  · rename_i first hf
    have h1 := quad_rest_le hf
    split at h
    · simp [throw, throwThe, MonadExceptOf.throw] at h
    · split at h
      · split at h
        · simp at h
        · rename_i second hs
          have h2 := pairEnd_rest_le hs
          split at h
          · simp only [pure, Except.pure, Except.ok.injEq, Prod.mk.injEq] at h
            obtain ⟨_, _, rfl⟩ := h
            omega
          · simp [throw, throwThe, MonadExceptOf.throw] at h
      · simp only [pure, Except.pure, Except.ok.injEq, Prod.mk.injEq] at h
        obtain ⟨_, _, rfl⟩ := h
        exact h1

theorem escape_rest_lt {p q : Position} {t r : Text} {c : Char}
    (h : escape p t = .ok (c, q, r)) : r.length < t.length := by
  simp only [escape] at h
  split at h
  · simp at h
  · split at h
    · have := codeUnits_rest_le h
      simp only [List.length_cons]
      omega
    · split at h <;> simp at h
      obtain ⟨_, _, rfl⟩ := h
      simp

/-! ### Texts -/

/-- What has been read from a text, or why not, and where the reading goes on. After a failure
nothing is left. -/
structure Piece (α : Type) where
  content : Except Failure α
  stop : Position
  rest : Text

namespace Piece

/-- The piece that fails. -/
def failed {α : Type} (fault : Fault) (p : Position) : Piece α := ⟨.error ⟨fault, p⟩, p, []⟩

/-- The piece with its content changed. -/
def map {α β : Type} (f : α → β) (piece : Piece α) : Piece β :=
  ⟨piece.content.map f, piece.stop, piece.rest⟩

end Piece

/-- **Reads a text behind its opening quote**, the closing quote included. -/
def readQuoted (p : Position) (t : Text) : Piece Text :=
  match t with
  | [] => .failed .textUnclosed p
  | c :: r =>
    if c = '"' then ⟨.ok [], p.afterChar c, r⟩
    else if c = '\\' then
      match _h : escape (p.afterChar c) r with
      | .ok (d, q, rest) => (readQuoted q rest).map (d :: ·)
      | .error failure => ⟨.error failure, failure.position, []⟩
    else if c.toNat < 32 then .failed .controlCharacter (p.afterChar c)
    else (readQuoted (p.afterChar c) r).map (c :: ·)
termination_by t.length
decreasing_by
  · have := escape_rest_lt _h
    simp only [List.length_cons]
    omega
  · simp

theorem readQuoted_rest_le (p : Position) (t : Text) : (readQuoted p t).rest.length ≤ t.length := by
  fun_induction readQuoted p t with
  | case1 => simp [Piece.failed]
  | case2 => simp
  | case3 p r _ d q rest h ih =>
    have := escape_rest_lt h
    simp only [Piece.map, List.length_cons]
    omega
  | case4 => simp
  | case5 => simp [Piece.failed]
  | case6 p c r _ _ _ ih =>
    simp only [Piece.map, List.length_cons]
    omega

end CommonHeaders.Json
