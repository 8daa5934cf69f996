import CommonHeaders.Text.Blank
import CommonHeaders.Text.Word

/-! # Recognisers

The opening lines of a header are found by shape: a keyword, then words and punctuation with blanks
between them. A recogniser reads such a shape from the start of a text and hands back what it read
and the rest. `search` runs a recogniser at every place of a text and takes the first success.

* `search_append`: what lies before the place found, and what the recogniser saw, make up the
  text. -/

namespace CommonHeaders.Text

/-! ### Pieces of a shape -/

/-- A word at the start of the text: a maximal, nonempty run of word characters. -/
def word? (t : Text) : Option (Text × Text) :=
  if (t.takeWhile isWordChar).isEmpty then none
  else some (t.takeWhile isWordChar, t.dropWhile isWordChar)

/-- The text after at least one blank and all further blanks. -/
def blanks? (t : Text) : Option Text :=
  match t with
  | c :: r => if isBlank c then some (trimStart r) else none
  | [] => none

/-- The text after the character `c`, which must come first. -/
def char? (c : Char) (t : Text) : Option Text :=
  match t with
  | d :: r => if d = c then some r else none
  | [] => none

/-- The text after the character `c`, blanks on either side of it included. -/
def spacedChar? (c : Char) (t : Text) : Option Text := (char? c (trimStart t)).map trimStart

/-- The text between angle brackets at the start of the text: everything up to the first closing
bracket. -/
def angled? (t : Text) : Option (Text × Text) := (char? '<' t).bind (cutAt? '>')

/-- The rest of a line: the whole text, provided that it holds no line break. -/
def restOfLine? (t : Text) : Option Text := if '\n' ∈ t then none else some t

/-! ### Searching -/

/-- The first place of the text where `recognise` succeeds, given the character before it: the text
before that place and what was recognised. -/
def searchFrom {α : Type} (recognise : Option Char → Text → Option α) (before : Option Char) :
    Text → Option (Text × α)
  | [] => (recognise before []).map fun a => ([], a)
  | c :: r =>
    match recognise before (c :: r) with
    | some a => some ([], a)
    | none => (searchFrom recognise (some c) r).map fun (skipped, a) => (c :: skipped, a)

/-- **The first place of the text where `recognise` succeeds.** -/
def search {α : Type} (recognise : Text → Option α) (t : Text) : Option (Text × α) :=
  searchFrom (fun _ => recognise) none t

theorem searchFrom_append {α : Type} {recognise : Option Char → Text → Option α}
    {before : Option Char} {t skipped : Text} {a : α}
    (h : searchFrom recognise before t = some (skipped, a)) :
    ∃ previous rest, recognise previous rest = some a ∧ skipped ++ rest = t := by
  induction t generalizing before skipped with
  | nil =>
    simp only [searchFrom, Option.map_eq_some_iff, Prod.mk.injEq] at h
    obtain ⟨b, h, rfl, rfl⟩ := h
    exact ⟨before, [], h, rfl⟩
  | cons c r ih =>
    simp only [searchFrom] at h
    split at h
    · rename_i b hb
      simp only [Option.some.injEq, Prod.mk.injEq] at h
      obtain ⟨rfl, rfl⟩ := h
      exact ⟨before, c :: r, hb, rfl⟩
    · simp only [Option.map_eq_some_iff, Prod.mk.injEq, Prod.exists] at h
      obtain ⟨s, b, h, rfl, rfl⟩ := h
      obtain ⟨previous, rest, h1, h2⟩ := ih h
      exact ⟨previous, rest, h1, by simp [h2]⟩

theorem search_append {α : Type} {recognise : Text → Option α} {t skipped : Text} {a : α}
    (h : search recognise t = some (skipped, a)) :
    ∃ rest, recognise rest = some a ∧ skipped ++ rest = t := by
  obtain ⟨_, rest, h1, h2⟩ := searchFrom_append h
  exact ⟨rest, h1, h2⟩

end CommonHeaders.Text
