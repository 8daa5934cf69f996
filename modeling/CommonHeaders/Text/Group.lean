import CommonHeaders.Text.Blank

/-! # Balanced groups and top-level splitting

A group is a stretch of text from an opening character to the closing character that matches it,
groups of the same kind inside it counted. `group?` reads one from the start of a text and gives
back nothing when the group never closes. `splitTopLevel` cuts a text at a separator, but not
inside parentheses, brackets or braces; the three kinds share one count of open groups, and a closing
character too many leaves the count at zero. Angle brackets do not count, since `<<` occurs in
values.

The count of `splitTopLevel` is a word of 32 bits. `splitItems` is the same with a count that has no
bound; the lists in headers are cut by it.

* `group?_append`: the group read and the rest make up the text.
* `group?_rest_lt`: reading a group shortens the text.
* `splitFrom_ne_nil`: there is always at least one part. -/

namespace CommonHeaders.Text

/-! ### Groups -/

/-- Reads to the closing character of the current group, with `depth` groups open inside it. -/
def groupTail (opener closer : Char) : Nat → Text → Option (Text × Text)
  | _, [] => none
  | depth, c :: r =>
    if c = opener then
      (groupTail opener closer (depth + 1) r).map fun (inner, rest) => (c :: inner, rest)
    else if c = closer then
      match depth with
      | 0 => some ([], r)
      | depth + 1 => (groupTail opener closer depth r).map fun (inner, rest) => (c :: inner, rest)
    else (groupTail opener closer depth r).map fun (inner, rest) => (c :: inner, rest)

/-- **The inside of the group that the text starts with**, and what follows its closing
character. -/
def group? (opener closer : Char) : Text → Option (Text × Text)
  | [] => none
  | c :: r => if c = opener then groupTail opener closer 0 r else none

theorem groupTail_append {opener closer : Char} {depth : Nat} {t inner rest : Text}
    (h : groupTail opener closer depth t = some (inner, rest)) : inner ++ closer :: rest = t := by
  induction t generalizing depth inner with
  | nil => simp [groupTail] at h
  | cons c r ih =>
    unfold groupTail at h
    split at h
    · simp only [Option.map_eq_some_iff, Prod.mk.injEq] at h
      obtain ⟨⟨a, b⟩, h, rfl, rfl⟩ := h
      simp [← ih h]
    · split at h
      · rename_i hc
        subst hc
        split at h
        · simp only [Option.some.injEq, Prod.mk.injEq] at h
          obtain ⟨rfl, rfl⟩ := h
          simp
        · simp only [Option.map_eq_some_iff, Prod.mk.injEq] at h
          obtain ⟨⟨a, b⟩, h, rfl, rfl⟩ := h
          simp [← ih h]
      · simp only [Option.map_eq_some_iff, Prod.mk.injEq] at h
        obtain ⟨⟨a, b⟩, h, rfl, rfl⟩ := h
        simp [← ih h]

theorem group?_append {opener closer : Char} {t inner rest : Text}
    (h : group? opener closer t = some (inner, rest)) :
    opener :: inner ++ closer :: rest = t := by
  cases t with
  | nil => simp [group?] at h
  | cons c r =>
    simp only [group?] at h
    split at h
    · rename_i hc
      rw [hc, ← groupTail_append h]
      simp
    · simp at h

theorem group?_rest_lt {opener closer : Char} {t inner rest : Text}
    (h : group? opener closer t = some (inner, rest)) : rest.length < t.length := by
  rw [← group?_append h]
  simp
  omega

/-! ### Splitting -/

/-- The characters that open a group for splitting. -/
def isOpener (c : Char) : Bool := c == '(' || c == '[' || c == '\x7b'

/-- The characters that close a group for splitting. -/
def isCloser (c : Char) : Bool := c == ')' || c == ']' || c == '\x7d'

/-- **A count of open groups**: where it begins, and what an opening and a closing character make of
it. -/
structure DepthCount (δ : Type) where
  start : δ
  opened : δ → δ
  closed : δ → δ

namespace DepthCount

/-- The count that has no bound. -/
def exact : DepthCount Nat := ⟨0, (· + 1), (· - 1)⟩

/-- The count in a signed word of 32 bits. Behind the greatest word it goes on with the least one. -/
def word : DepthCount Int32 := ⟨0, (· + 1), fun depth => max (depth - 1) 0⟩

end DepthCount

section

variable {δ : Type} [DecidableEq δ]

/-- The parts of a text in front of which the count stands at `depth`. -/
def splitFrom (k : DepthCount δ) (sep : Char) : δ → Text → List Text
  | _, [] => [[]]
  | depth, c :: r =>
    if isOpener c then (splitFrom k sep (k.opened depth) r).modifyHead (c :: ·)
    else if isCloser c then (splitFrom k sep (k.closed depth) r).modifyHead (c :: ·)
    else if c = sep ∧ depth = k.start then [] :: splitFrom k sep depth r
    else (splitFrom k sep depth r).modifyHead (c :: ·)

theorem splitFrom_ne_nil (k : DepthCount δ) (sep : Char) (depth : δ) (t : Text) :
    splitFrom k sep depth t ≠ [] := by
  induction t generalizing depth with
  | nil => simp [splitFrom]
  | cons c r ih =>
    unfold splitFrom
    split
    · simpa using ih _
    · split
      · simpa using ih _
      · split
        · simp
        · simpa using ih _

end

/-- **The parts of a text between the separators that stand outside all groups.** -/
def splitTopLevel (sep : Char) (t : Text) : List Text :=
  splitFrom .word sep DepthCount.word.start t

/-- The parts of a text whose first character stands at the given depth, in the count without a
bound. -/
def splitAtDepth (sep : Char) (depth : Nat) (t : Text) : List Text := splitFrom .exact sep depth t

/-- **The items of a list**: its parts, in the count without a bound. -/
def splitItems (sep : Char) (t : Text) : List Text := splitAtDepth sep 0 t

theorem splitAtDepth_nil (sep : Char) (depth : Nat) : splitAtDepth sep depth [] = [[]] := rfl

theorem splitAtDepth_cons (sep : Char) (depth : Nat) (c : Char) (r : Text) :
    splitAtDepth sep depth (c :: r) =
      if isOpener c then (splitAtDepth sep (depth + 1) r).modifyHead (c :: ·)
      else if isCloser c then (splitAtDepth sep (depth - 1) r).modifyHead (c :: ·)
      else if c = sep ∧ depth = 0 then [] :: splitAtDepth sep depth r
      else (splitAtDepth sep depth r).modifyHead (c :: ·) :=
  rfl

end CommonHeaders.Text
