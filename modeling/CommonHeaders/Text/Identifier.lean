import CommonHeaders.Text.Blank

/-! # Identifiers

An identifier is an ASCII letter or underscore followed by ASCII letters, digits and underscores.
`identifier?` reads the longest one at the start of a text.

* `identifier?_append`: the identifier read and the rest make up the text.
* `identifier?_rest_lt`: reading an identifier shortens the text. -/

namespace CommonHeaders.Text

/-- May the character begin an identifier? -/
def isIdentStart (c : Char) : Bool := c.isAlpha || c == '_'

/-- May the character stand inside an identifier? -/
def isIdentChar (c : Char) : Bool := c.isAlphanum || c == '_'

theorem isIdentChar_of_isIdentStart {c : Char} (h : isIdentStart c = true) :
    isIdentChar c = true := by
  simp only [isIdentStart, isIdentChar, Char.isAlphanum, Bool.or_eq_true] at h ⊢
  rcases h with h | h
  · exact Or.inl (Or.inl h)
  · exact Or.inr h

/-- The longest identifier at the start of a text, and what follows it. -/
def identifier? : Text → Option (Text × Text)
  | [] => none
  | c :: r =>
    if isIdentStart c then some (c :: r.takeWhile isIdentChar, r.dropWhile isIdentChar) else none

/-- The first identifier of a text, blanks before it aside. -/
def leadingIdentifier? (t : Text) : Option Text := (identifier? (trimStart t)).map Prod.fst

theorem identifier?_append {t name rest : Text} (h : identifier? t = some (name, rest)) :
    name ++ rest = t := by
  cases t with
  | nil => simp [identifier?] at h
  | cons c r =>
    simp only [identifier?] at h
    split at h
    · simp only [Option.some.injEq, Prod.mk.injEq] at h
      obtain ⟨rfl, rfl⟩ := h
      simp [List.takeWhile_append_dropWhile]
    · simp at h

theorem identifier?_rest_lt {t name rest : Text} (h : identifier? t = some (name, rest)) :
    rest.length < t.length := by
  cases t with
  | nil => simp [identifier?] at h
  | cons c r =>
    simp only [identifier?] at h
    split at h
    · simp only [Option.some.injEq, Prod.mk.injEq] at h
      obtain ⟨rfl, rfl⟩ := h
      have := length_dropWhile_le isIdentChar r
      simp only [List.length_cons]
      omega
    · simp at h

theorem identifier?_eq_none_iff {t : Text} :
    identifier? t = none ↔ ∀ c r, t = c :: r → isIdentStart c = false := by
  cases t with
  | nil => simp [identifier?]
  | cons c r => by_cases h : isIdentStart c <;> simp [identifier?, h]

end CommonHeaders.Text
