/-! # Texts and blank characters

A text is the list of its characters; every rule of the header format looks at them one after
another. This file holds the blank characters (the Unicode property White_Space) and what is done
with them: trimming either end, cutting into blank-free words, and writing every stretch of blanks
as one space.

* `trimStart_trimStart`, `dropEndWhile_eq_nil_iff`: what trimming leaves.
* `trim_eq_self`, `mem_trim_iff`: trimming takes away the blanks at the ends and nothing else.
* `isBlank_space`: the space that `collapse` writes is itself blank. -/

namespace CommonHeaders

/-- A text is the list of its characters. -/
abbrev Text := List Char

namespace Text

/-- **The blank characters**: those with the Unicode property White_Space. -/
def isBlank (c : Char) : Bool :=
  let n := c.toNat
  (9 ≤ n && n ≤ 13) || n == 0x20 || n == 0x85 || n == 0xA0 || n == 0x1680 ||
    (0x2000 ≤ n && n ≤ 0x200A) || n == 0x2028 || n == 0x2029 || n == 0x202F || n == 0x205F ||
    n == 0x3000

@[simp] theorem isBlank_space : isBlank ' ' = true := by decide

/-! ### Trimming -/

/-- The text without its leading blanks. -/
def trimStart (t : Text) : Text := t.dropWhile isBlank

/-- The text without its longest ending all of whose characters satisfy `p`. -/
def dropEndWhile (p : Char → Bool) (t : Text) : Text := (t.reverse.dropWhile p).reverse

/-- The text without its trailing blanks. -/
def trimEnd (t : Text) : Text := dropEndWhile isBlank t

/-- The text without its leading and trailing blanks. -/
def trim (t : Text) : Text := trimEnd (trimStart t)

theorem length_dropWhile_le (p : Char → Bool) (t : Text) : (t.dropWhile p).length ≤ t.length :=
  (List.dropWhile_suffix p).length_le

theorem length_trimStart_le (t : Text) : (trimStart t).length ≤ t.length :=
  length_dropWhile_le _ _

theorem dropWhile_eq_nil {p : Char → Bool} {t : Text} :
    t.dropWhile p = [] ↔ ∀ c ∈ t, p c = true := by
  induction t with
  | nil => simp
  | cons c r ih => by_cases h : p c <;> simp [h, ih]

theorem dropEndWhile_eq_nil_iff {p : Char → Bool} {t : Text} :
    dropEndWhile p t = [] ↔ ∀ c ∈ t, p c = true := by
  rw [dropEndWhile, List.reverse_eq_nil_iff, dropWhile_eq_nil]
  simp

theorem trimStart_trimStart (t : Text) : trimStart (trimStart t) = trimStart t := by
  unfold trimStart
  induction t with
  | nil => rfl
  | cons c r ih =>
    by_cases h : isBlank c
    · simpa [h] using ih
    · simp [h]

/-! ### What trimming leaves -/

theorem trimStart_eq_self {t : Text} (h : ∀ c ∈ t.head?, isBlank c = false) : trimStart t = t := by
  cases t with
  | nil => rfl
  | cons c r =>
    have hc : isBlank c = false := h c rfl
    rw [trimStart, List.dropWhile_cons, hc]
    rfl

theorem trimEnd_eq_self {t : Text} (h : ∀ c ∈ t.getLast?, isBlank c = false) : trimEnd t = t := by
  rw [← List.head?_reverse] at h
  have hreverse : t.reverse.dropWhile isBlank = t.reverse := trimStart_eq_self h
  rw [trimEnd, dropEndWhile, hreverse, List.reverse_reverse]

/-- A text without blanks at its ends stays as it is. -/
theorem trim_eq_self {t : Text} (hfirst : ∀ c ∈ t.head?, isBlank c = false)
    (hlast : ∀ c ∈ t.getLast?, isBlank c = false) : trim t = t := by
  rw [trim, trimStart_eq_self hfirst, trimEnd_eq_self hlast]

/-- What is trimmed does not end with a blank, -/
theorem not_isBlank_getLast?_trim (t : Text) : ∀ c ∈ (trim t).getLast?, isBlank c = false := by
  intro c hc
  have hstop := List.head?_dropWhile_not isBlank (trimStart t).reverse
  rw [trim, trimEnd, dropEndWhile, List.getLast?_reverse] at hc
  rw [Option.mem_def.mp hc] at hstop
  simpa using hstop

/-- and it begins as the text does behind its blanks. -/
theorem head?_trim (t : Text) : (trim t).head? = (trimStart t).head? := by
  have hstop := List.head?_dropWhile_not isBlank t
  unfold trim trimEnd dropEndWhile trimStart
  cases hd : t.dropWhile isBlank with
  | nil => rfl
  | cons c r =>
    rw [hd] at hstop
    have hc : isBlank c = false := by simpa using hstop
    rw [List.reverse_cons, List.dropWhile_append]
    split <;> simp [hc]

theorem not_isBlank_head?_trim (t : Text) : ∀ c ∈ (trim t).head?, isBlank c = false := by
  intro c hc
  have hstop := List.head?_dropWhile_not isBlank t
  rw [head?_trim, trimStart] at hc
  rw [Option.mem_def.mp hc] at hstop
  simpa using hstop

theorem mem_dropWhile_iff {p : Char → Bool} {c : Char} (h : p c = false) {t : Text} :
    c ∈ t.dropWhile p ↔ c ∈ t := by
  induction t with
  | nil => rfl
  | cons d r ih =>
    rw [List.dropWhile_cons]
    split
    · rename_i hd
      have hne : c ≠ d := fun he => by simp [← he, h] at hd
      rw [ih, List.mem_cons, or_iff_right hne]
    · rfl

/-- Trimming takes away blanks only. -/
theorem mem_trim_iff {c : Char} (h : isBlank c = false) {t : Text} : c ∈ trim t ↔ c ∈ t := by
  rw [trim, trimEnd, dropEndWhile, List.mem_reverse, mem_dropWhile_iff h, List.mem_reverse,
    trimStart, mem_dropWhile_iff h]

/-! ### Words between blanks -/

/-- The maximal blank-free pieces of a text, in order. -/
def blankWords (t : Text) : List Text := (t.splitOnP isBlank).filter fun w => !w.isEmpty

/-- The pieces put one after another with `sep` between them. -/
def join (sep : Text) (parts : List Text) : Text := sep.intercalate parts

theorem join_cons (sep part : Text) (rest : List Text) :
    join sep (part :: rest) = part ++ rest.flatMap (sep ++ ·) := by
  induction rest generalizing part with
  | nil => simp [join]
  | cons next rest ih =>
    have hnext : sep.intercalate (next :: rest) = next ++ rest.flatMap (sep ++ ·) := ih next
    rw [join, List.intercalate_cons_cons, hnext, List.flatMap_cons]
    simp only [List.append_assoc]

/-- **Every stretch of blanks as one space**, with none at either end. -/
def collapse (t : Text) : Text := join [' '] (blankWords t)

/-! ### Finding pieces -/

/-- The part of a text before the first `c` and the part after it, if `c` occurs. -/
def cutAt? (c : Char) : Text → Option (Text × Text)
  | [] => none
  | d :: r => if d = c then some ([], r) else (cutAt? c r).map fun (a, b) => (d :: a, b)

/-- The text after the opening piece `p`, if the text starts with `p`. -/
def after? (p t : Text) : Option Text := if p.isPrefixOf t then some (t.drop p.length) else none

/-- Does `piece` occur somewhere in the text? -/
def hasPiece (piece : Text) : Text → Bool
  | [] => piece.isEmpty
  | c :: r => piece.isPrefixOf (c :: r) || hasPiece piece r

end Text

end CommonHeaders
