import CommonHeaders.Text.Blank
import CommonHeaders.Naming

/-! # Type references

A type reference is a list of qualifiers, a base name and a mark for one trailing pointer. Reading
one takes the qualifiers off either end, in any of their spellings, then the pointer, and writes
the base name without spaces around stars, angle brackets and commas.

Two references are compared by their sets of qualifiers, then by base name, then by pointer. Before
that comes one exception: without qualifiers, a small integer and a common enumeration are equal,
so that an integer on one platform matches an enumeration on the other. This makes equality
intransitive, so references are never used as keys and never sorted.

* `compare_comm`: comparing the other way round reverses the order.
* `equivalent_refl`, `equivalent_comm`: equivalence is reflexive and symmetric. -/

namespace CommonHeaders

open Text

/-! ### Qualifiers -/

/-- The words that may stand before or after a base name. -/
inductive Qualifier where
  | nullable
  | nonnull
  | nullUnspecified
  | weak
  | strong
  | unsafeUnretained
  | autoreleasing
  | kindOf
  | static
  | external
  | outlet
  | const
deriving DecidableEq

namespace Qualifier

/-- The qualifiers in the order in which they are compared. -/
def all : List Qualifier :=
  [nullable, nonnull, nullUnspecified, weak, strong, unsafeUnretained, autoreleasing, kindOf,
    static, external, outlet, const]

/-- The spellings of a qualifier, the one it is printed with first. -/
def spellings : Qualifier → List String
  | nullable => ["nullable", "_Nullable", "__nullable"]
  | nonnull => ["nonnull", "_Nonnull", "__nonnull"]
  | nullUnspecified => ["null_unspecified", "_Null_unspecified", "__null_unspecified"]
  | weak => ["__weak"]
  | strong => ["__strong"]
  | unsafeUnretained => ["__unsafe_unretained"]
  | autoreleasing => ["__autoreleasing"]
  | kindOf => ["__kindof"]
  | static => ["static"]
  | external => ["extern"]
  | outlet => ["IBOutlet"]
  | const => ["const"]

/-- The spelling a qualifier is printed with. -/
def spelling (q : Qualifier) : Text := (q.spellings.headD "").toList

/-- The qualifier that a word spells. -/
def ofWord? (word : Text) : Option Qualifier :=
  all.find? fun q => q.spellings.any fun s => s.toList == word

/-- The place of a qualifier in the order. -/
def rank : Qualifier → Nat
  | nullable => 0
  | nonnull => 1
  | nullUnspecified => 2
  | weak => 3
  | strong => 4
  | unsafeUnretained => 5
  | autoreleasing => 6
  | kindOf => 7
  | static => 8
  | external => 9
  | outlet => 10
  | const => 11

/-- The list with `q` at its end, unless it is there already. -/
def addTo (qs : List Qualifier) (q : Qualifier) : List Qualifier := if q ∈ qs then qs else qs ++ [q]

end Qualifier

/-! ### The type -/

/-- **A type reference.** -/
structure TypeRef where
  qualifiers : List Qualifier
  name : Text
  pointer : Bool
deriving DecidableEq, Inhabited

namespace TypeRef

/-- The reference without qualifiers or pointer to the given name. -/
def named (name : Text) : TypeRef := ⟨[], name, false⟩

/-- Is the base name one of the small integers? -/
def isSmallInteger (t : TypeRef) : Bool := Naming.smallIntegers.contains t.name

/-- Is it a common name and no pointer? -/
def isEnumeration (t : TypeRef) : Bool := Naming.isUnified t.name && !t.pointer

/-! ### Reading -/

/-- The qualifiers at the head of a list of words, of which one word at least is left. -/
def leadingQualifiers : List Text → List Qualifier × List Text
  | word :: next :: rest =>
    match Qualifier.ofWord? word with
    | some q =>
      let (qs, words) := leadingQualifiers (next :: rest)
      (q :: qs, words)
    | none => ([], word :: next :: rest)
  | words => ([], words)

/-- May the character stand in a qualifier behind the base name? -/
def isTokenChar (c : Char) : Bool := c != ' ' && c != '*'

/-- The last word of a text, counted from the last space or star. -/
def lastToken (t : Text) : Text := (t.reverse.takeWhile isTokenChar).reverse

/-- The text up to its last space or star. -/
def beforeLastToken (t : Text) : Text := dropEndWhile isTokenChar t

theorem length_dropEndWhile_le (p : Char → Bool) (t : Text) :
    (dropEndWhile p t).length ≤ t.length := by
  have := length_dropWhile_le p t.reverse
  simp only [dropEndWhile, List.length_reverse] at this ⊢
  exact this

theorem beforeLastToken_append_lastToken (t : Text) : beforeLastToken t ++ lastToken t = t := by
  rw [beforeLastToken, lastToken, dropEndWhile, ← List.reverse_append,
    List.takeWhile_append_dropWhile, List.reverse_reverse]

theorem ofWord?_nil : Qualifier.ofWord? [] = none := by decide

/-- The qualifiers at the end of a text, last first, and the text before them. -/
def trailingQualifiers (t : Text) : List Qualifier × Text :=
  if beforeLastToken (trimEnd t) = [] then ([], trimEnd t)
  else
    match _h : Qualifier.ofWord? (lastToken (trimEnd t)) with
    | some q =>
      let (qs, rest) := trailingQualifiers (trimEnd (beforeLastToken (trimEnd t)))
      (q :: qs, rest)
    | none => ([], trimEnd t)
termination_by t.length
decreasing_by
  have h1 := length_dropEndWhile_le isBlank t
  have h2 := length_dropEndWhile_le isBlank (beforeLastToken (trimEnd t))
  have h3 := congrArg List.length (beforeLastToken_append_lastToken (trimEnd t))
  have h4 : lastToken (trimEnd t) ≠ [] := fun he => by rw [he, ofWord?_nil] at _h; simp at _h
  have h5 := List.length_pos_iff.mpr h4
  simp only [List.length_append, trimEnd] at *
  omega

/-- Does the character stand without spaces around it in a base name? -/
def isTight (c : Char) : Bool := c == '*' || c == '<' || c == '>' || c == ','

/-- One step of writing a base name, on the reversed text written so far. -/
def tighten (written : Text) (c : Char) : Text :=
  if isTight c then c :: written.dropWhile (· == ' ')
  else if c = ' ' ∧ written.head?.any isTight then written
  else c :: written

/-- A base name without spaces around stars, angle brackets and commas. -/
def canonicalName (t : Text) : Text := (t.foldl tighten []).reverse

/-- The text without a star at its end, and whether there was one. -/
def splitPointer (t : Text) : Text × Bool :=
  if t.getLast? = some '*' then (trimEnd t.dropLast, true) else (t, false)

/-- **Reads a type reference.** Every text is one. -/
def parse (t : Text) : TypeRef :=
  let (leading, words) := leadingQualifiers (blankWords t)
  let (trailing, base) := trailingQualifiers (join [' '] words)
  let (name, pointer) := splitPointer base
  ⟨(leading ++ trailing).foldl Qualifier.addTo [], canonicalName name, pointer⟩

/-! ### Printing -/

/-- **The text of a reference**: its qualifiers, its base name and a star for the pointer. -/
def render (t : TypeRef) : Text :=
  t.qualifiers.flatMap (fun q => q.spelling ++ [' ']) ++ t.name ++
    if t.pointer then " *".toList else []

/-! ### Comparison -/

/-- Puts a number in front of the first one that is not smaller. -/
def insertRank (n : Nat) : List Nat → List Nat
  | [] => [n]
  | m :: rest => if n ≤ m then n :: m :: rest else m :: insertRank n rest

/-- The ranks of the qualifiers in increasing order, repeats kept. -/
def sortedRanks (t : TypeRef) : List Nat := (t.qualifiers.map Qualifier.rank).foldr insertRank []

/-- Is one a small integer and the other a common enumeration, both without qualifiers? -/
def interchangeable (a b : TypeRef) : Bool :=
  a.qualifiers.isEmpty && b.qualifiers.isEmpty &&
    ((a.isSmallInteger && b.isEnumeration) || (a.isEnumeration && b.isSmallInteger))

/-- **The comparison of two references.** -/
def compare (a b : TypeRef) : Ordering :=
  if interchangeable a b then .eq
  else (Ord.compare a.sortedRanks b.sortedRanks).then
    ((Ord.compare a.name b.name).then (Ord.compare a.pointer b.pointer))

/-- **Equivalence** of references: the comparison tells them not apart. -/
def equivalent (a b : TypeRef) : Bool := compare a b == .eq

theorem interchangeable_comm (a b : TypeRef) : interchangeable a b = interchangeable b a := by
  unfold interchangeable
  rw [Bool.and_comm a.qualifiers.isEmpty, Bool.or_comm, Bool.and_comm a.isSmallInteger,
    Bool.and_comm a.isEnumeration]

/-- Comparing the other way round reverses the order. -/
theorem compare_comm (a b : TypeRef) : compare b a = (compare a b).swap := by
  unfold compare
  rw [interchangeable_comm b a]
  split
  · rfl
  · rw [Ordering.swap_then, Ordering.swap_then, ← Std.OrientedCmp.eq_swap,
      ← Std.OrientedCmp.eq_swap, ← Std.OrientedCmp.eq_swap]

theorem equivalent_refl (a : TypeRef) : equivalent a a = true := by
  unfold equivalent compare
  split
  · rfl
  · simp [Std.ReflCmp.compare_self]

theorem equivalent_comm (a b : TypeRef) : equivalent a b = equivalent b a := by
  unfold equivalent
  rw [compare_comm a b]
  cases compare a b <;> rfl

end TypeRef

end CommonHeaders
