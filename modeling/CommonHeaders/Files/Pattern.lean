import CommonHeaders.Files.Path

/-! # Patterns of file names

A pattern of a name stands for the names it matches: a question mark for any character, a star for
any run of characters, and a class in brackets for one of its characters, or for one of the others
behind an exclamation mark. A class has at least one character, so that a closing bracket may be the
first one.

A pattern of paths is a row of such patterns between slashes. Two stars in the place of a name stand
for any number of directories. Patterns are refused when a class is not closed, when more than two
stars follow each other and when two stars share their place with something else.

* `matchesName_iff`: a name is found to match exactly when it does. -/

namespace CommonHeaders.Files

open Text

/-! ### Patterns of names -/

/-- The characters from one to another. -/
structure CharRange where
  first : Char
  last : Char
deriving DecidableEq

/-- A part of a pattern. -/
inductive Wild where
  | char (c : Char)
  | anyChar
  | anyRun
  | oneOf (ranges : List CharRange)
  | noneOf (ranges : List CharRange)
  /-- Two stars, which stand for directories. -/
  | anyDepth
deriving DecidableEq

/-- **A pattern of names.** -/
abbrev NamePattern := List Wild

/-- Is a character in one of the ranges? -/
def inRanges (ranges : List CharRange) (c : Char) : Bool :=
  ranges.any fun r => r.first ≤ c && c ≤ r.last

/-- Does the part stand for any run of characters? -/
def Wild.isRun : Wild → Bool
  | .anyRun => true
  | .anyDepth => true
  | _ => false

/-- Does the part stand for that one character? -/
def Wild.accepts : Wild → Char → Bool
  | .char d, c => d == c
  | .anyChar, _ => true
  | .oneOf ranges, c => inRanges ranges c
  | .noneOf ranges, c => !inRanges ranges c
  | .anyRun, _ => false
  | .anyDepth, _ => false

/-- **A pattern matches a name**: every part in its turn stands for one character, or for a run of
them. -/
inductive Matches : NamePattern → Text → Prop where
  | nil : Matches [] []
  | accept {w : Wild} {pattern : NamePattern} {c : Char} {name : Text} (h : w.accepts c = true)
      (m : Matches pattern name) : Matches (w :: pattern) (c :: name)
  | endRun {w : Wild} {pattern : NamePattern} {name : Text} (h : w.isRun = true)
      (m : Matches pattern name) : Matches (w :: pattern) name
  | goOn {w : Wild} {pattern : NamePattern} {c : Char} {name : Text} (h : w.isRun = true)
      (m : Matches (w :: pattern) name) : Matches (w :: pattern) (c :: name)

/-! ### Matching

What may be left of a name behind the first parts of a pattern is a list of its endings, the longest
first. Behind a run all endings of the longest one are left, so a list never has more members than
the name has endings, and matching does not try out how runs share the name between them. -/

/-- The endings of a text, the longest first. -/
def endings : Text → List Text
  | [] => [[]]
  | c :: r => (c :: r) :: endings r

/-- The text behind the character that a part stands for. -/
def Wild.behind? (w : Wild) : Text → Option Text
  | c :: r => if w.accepts c then some r else none
  | [] => none

/-- What a part leaves of some endings of a name. -/
def Wild.leaves (w : Wild) (left : List Text) : List Text :=
  if w.isRun then
    match left with
    | longest :: _ => endings longest
    | [] => []
  else left.filterMap w.behind?

/-- Does a pattern match one of some endings of a name? -/
def matchesEnding : NamePattern → List Text → Bool
  | [], left => left.any List.isEmpty
  | w :: rest, left => matchesEnding rest (w.leaves left)

/-- **Does a pattern match a name?** -/
def matchesName (pattern : NamePattern) (name : Text) : Bool := matchesEnding pattern [name]

/-- The name that a pattern without special characters is. -/
def literal? : NamePattern → Option Text
  | [] => some []
  | .char c :: rest => (literal? rest).map (c :: ·)
  | _ :: _ => none

theorem mem_endings {t e : Text} : e ∈ endings t ↔ e <:+ t := by
  induction t with
  | nil => simp [endings]
  | cons c r ih => rw [endings, List.mem_cons, ih, List.suffix_cons_iff]

/-- Every member of the list is an ending of those before it. -/
def Nested (left : List Text) : Prop := left.Pairwise fun longer shorter => shorter <:+ longer

theorem nested_endings (t : Text) : Nested (endings t) := by
  induction t with
  | nil => exact List.pairwise_singleton _ _
  | cons c r ih =>
    exact List.pairwise_cons.mpr
      ⟨fun e he => (mem_endings.mp he).trans (List.suffix_cons c r), ih⟩

theorem nested_leaves (w : Wild) {left : List Text} (h : Nested left) : Nested (w.leaves left) := by
  unfold Wild.leaves
  split
  · split
    · exact nested_endings _
    · exact List.Pairwise.nil
  · refine List.Pairwise.filterMap _ (fun longer shorter hs a ha b hb => ?_) h
    cases longer with
    | nil => simp [Wild.behind?] at ha
    | cons c r =>
      cases shorter with
      | nil => simp [Wild.behind?] at hb
      | cons d r' =>
        simp only [Wild.behind?, Option.ite_none_right_eq_some, Option.some.injEq] at ha hb
        obtain ⟨-, rfl⟩ := ha
        obtain ⟨-, rfl⟩ := hb
        rcases List.suffix_cons_iff.mp hs with he | he
        · exact (List.cons.inj he).2 ▸ List.suffix_refl _
        · exact (List.suffix_cons d r').trans he

theorem matches_run_iff {w : Wild} {pattern : NamePattern} {name : Text} (h : w.isRun = true) :
    Matches (w :: pattern) name ↔ ∃ e, e <:+ name ∧ Matches pattern e := by
  constructor
  · intro m
    induction name with
    | nil =>
      cases m with
      | endRun _ m => exact ⟨[], List.suffix_refl _, m⟩
    | cons c r ih =>
      cases m with
      | accept ha _ => cases w <;> simp_all [Wild.isRun, Wild.accepts]
      | endRun _ m => exact ⟨c :: r, List.suffix_refl _, m⟩
      | goOn _ m =>
        obtain ⟨e, he, m⟩ := ih m
        exact ⟨e, he.trans (List.suffix_cons c r), m⟩
  · rintro ⟨e, he, m⟩
    induction name with
    | nil =>
      rw [List.suffix_nil.mp he] at m
      exact .endRun h m
    | cons c r ih =>
      rcases List.suffix_cons_iff.mp he with he | he
      · exact .endRun h (he ▸ m)
      · exact .goOn h (ih he)

theorem matches_one_iff {w : Wild} {pattern : NamePattern} {name : Text} (h : w.isRun = false) :
    Matches (w :: pattern) name ↔ ∃ e, w.behind? name = some e ∧ Matches pattern e := by
  constructor
  · intro m
    cases m with
    | accept ha m => exact ⟨_, by simp [Wild.behind?, ha], m⟩
    | endRun hr _ => simp [h] at hr
    | goOn hr _ => simp [h] at hr
  · rintro ⟨e, he, m⟩
    cases name with
    | nil => simp [Wild.behind?] at he
    | cons c r =>
      simp only [Wild.behind?, Option.ite_none_right_eq_some, Option.some.injEq] at he
      exact .accept he.1 (he.2 ▸ m)

theorem matchesEnding_iff {pattern : NamePattern} {left : List Text} (h : Nested left) :
    matchesEnding pattern left = true ↔ ∃ name ∈ left, Matches pattern name := by
  induction pattern generalizing left with
  | nil =>
    simp only [matchesEnding, List.any_eq_true, List.isEmpty_iff]
    constructor
    · rintro ⟨name, hn, rfl⟩
      exact ⟨[], hn, .nil⟩
    · rintro ⟨name, hn, m⟩
      cases m
      exact ⟨[], hn, rfl⟩
  | cons w rest ih =>
    rw [matchesEnding, ih (nested_leaves w h)]
    cases hw : w.isRun with
    | true =>
      simp only [Wild.leaves, hw, if_true, matches_run_iff hw]
      cases left with
      | nil => simp
      | cons longest others =>
        simp only [mem_endings]
        constructor
        · rintro ⟨e, he, m⟩
          exact ⟨longest, List.mem_cons_self, e, he, m⟩
        · rintro ⟨name, hn, e, he, m⟩
          rcases List.mem_cons.mp hn with rfl | hn
          · exact ⟨e, he, m⟩
          · exact ⟨e, he.trans ((List.pairwise_cons.mp h).1 name hn), m⟩
    | false =>
      simp only [Wild.leaves, hw, Bool.false_eq_true, if_false, matches_one_iff hw,
        List.mem_filterMap]
      constructor
      · rintro ⟨e, ⟨name, hn, he⟩, m⟩
        exact ⟨name, hn, e, he, m⟩
      · rintro ⟨name, hn, e, he, m⟩
        exact ⟨e, ⟨name, hn, he⟩, m⟩

/-- The endings lead to the matches and to nothing else. -/
theorem matchesName_iff {pattern : NamePattern} {name : Text} :
    matchesName pattern name = true ↔ Matches pattern name := by
  rw [matchesName, matchesEnding_iff (List.pairwise_singleton _ _)]
  simp

/-! ### Reading patterns -/

/-- Why a pattern is refused. -/
inductive PatternFault where
  | tooManyStars
  | sharedPlace
  | badClass
deriving DecidableEq

/-- The wording of a fault. -/
def PatternFault.message : PatternFault → String
  | .tooManyStars => "wildcards are either regular `*` or recursive `**`"
  | .sharedPlace => "recursive wildcards must form a single path component"
  | .badClass => "invalid range pattern"

/-- **A refused pattern**: the fault and the number of the character it was found at. -/
structure PatternError where
  fault : PatternFault
  position : Nat
deriving DecidableEq

/-- The wording of a refusal. -/
def PatternError.message (e : PatternError) : Text :=
  "Pattern syntax error near position ".toList ++ Nat.toDigits 10 e.position ++ ": ".toList ++
    e.fault.message.toList

/-- The ranges of a class: two characters with a dash between them, or single characters. -/
def rangesOf : Text → List CharRange
  | a :: '-' :: b :: rest => ⟨a, b⟩ :: rangesOf rest
  | a :: rest => ⟨a, a⟩ :: rangesOf rest
  | [] => []

/-- The inside of a class, of which the first character may be anything, and what follows the
closing bracket. -/
def classInside? : Text → Option (Text × Text)
  | [] => none
  | c :: rest => (cutAt? ']' rest).map fun (inside, rest) => (c :: inside, rest)

/-- A class behind its opening bracket, and what follows it. -/
def class? : Text → Option (Wild × Text)
  | '!' :: t => (classInside? t).map fun (inside, rest) => (.noneOf (rangesOf inside), rest)
  | t => (classInside? t).map fun (inside, rest) => (.oneOf (rangesOf inside), rest)

/-- What the stars at the start of a text stand for, given the character before them and how far
into the pattern they are, and the text behind them. -/
def stars (before : Option Char) (position : Nat) (t : Text) : Except PatternError (Wild × Text) :=
  let count := (t.takeWhile (· == '*')).length
  let rest := t.drop count
  if count ≤ 1 then .ok (.anyRun, rest)
  else if 2 < count then .error ⟨.tooManyStars, position + 2⟩
  else if before.any (· != '/') then .error ⟨.sharedPlace, position - 1⟩
  else
    match rest with
    | [] => .ok (.anyDepth, [])
    | '/' :: rest => .ok (.anyDepth, rest)
    | _ => .error ⟨.sharedPlace, position + 2⟩

theorem cutAt?_rest_lt {c : Char} {t a b : Text} (h : cutAt? c t = some (a, b)) :
    b.length < t.length := by
  induction t generalizing a with
  | nil => simp [cutAt?] at h
  | cons d r ih =>
    simp only [cutAt?] at h
    split at h
    · simp only [Option.some.injEq, Prod.mk.injEq] at h
      obtain ⟨_, rfl⟩ := h
      simp
    · simp only [Option.map_eq_some_iff, Prod.mk.injEq, Prod.exists] at h
      obtain ⟨a', b', h, _, rfl⟩ := h
      have := ih h
      simp only [List.length_cons]
      omega

theorem classInside?_rest_lt {t a b : Text} (h : classInside? t = some (a, b)) :
    b.length < t.length := by
  cases t with
  | nil => simp [classInside?] at h
  | cons c r =>
    simp only [classInside?, Option.map_eq_some_iff, Prod.mk.injEq, Prod.exists] at h
    obtain ⟨a', b', h, _, rfl⟩ := h
    have := cutAt?_rest_lt h
    simp only [List.length_cons]
    omega

theorem class?_rest_lt {t b : Text} {w : Wild} (h : class? t = some (w, b)) :
    b.length < t.length := by
  simp only [class?] at h
  split at h <;>
    simp only [Option.map_eq_some_iff, Prod.mk.injEq, Prod.exists] at h <;>
    obtain ⟨a', b', h, _, rfl⟩ := h <;>
    have := classInside?_rest_lt h
  · simp only [List.length_cons]
    omega
  · exact this

theorem stars_rest_lt {before : Option Char} {position : Nat} {r b : Text} {w : Wild}
    (h : stars before position ('*' :: r) = .ok (w, b)) : b.length < ('*' :: r).length := by
  simp only [stars, List.takeWhile_cons, beq_self_eq_true, if_true, List.length_cons,
    List.drop_succ_cons] at h
  have hd : ∀ n, (r.drop n).length < ('*' :: r).length := fun n => by
    simp only [List.length_drop, List.length_cons]
    omega
  split at h
  · simp only [Except.ok.injEq, Prod.mk.injEq] at h
    exact h.2 ▸ hd _
  · split at h
    · simp at h
    · split at h
      · simp at h
      · split at h
        · simp only [Except.ok.injEq, Prod.mk.injEq] at h
          simp [← h.2]
        · rename_i hr
          simp only [Except.ok.injEq, Prod.mk.injEq] at h
          obtain ⟨_, rfl⟩ := h
          have := hd (r.takeWhile (· == '*')).length
          rw [hr] at this
          simp only [List.length_cons] at *
          omega
        · simp at h

/-- Reads a pattern whose first `position` characters have been read, the last of them `before`. -/
def readWilds (before : Option Char) (position : Nat) (t : Text) :
    Except PatternError (List Wild) :=
  match t with
  | [] => .ok []
  | '?' :: r => (readWilds (some '?') (position + 1) r).map (.anyChar :: ·)
  | '[' :: r =>
    match _h : class? r with
    | none => .error ⟨.badClass, position⟩
    | some (w, rest) =>
      (readWilds (some ']') (position + (r.length + 1 - rest.length)) rest).map (w :: ·)
  | '*' :: r =>
    match _h : stars before position ('*' :: r) with
    | .error e => .error e
    | .ok (w, rest) =>
      let read := ('*' :: r).take (r.length + 1 - rest.length)
      (readWilds read.getLast? (position + read.length) rest).map (w :: ·)
  | c :: r => (readWilds (some c) (position + 1) r).map (.char c :: ·)
termination_by t.length
decreasing_by
  · simp
  · have := class?_rest_lt _h
    simp only [List.length_cons]
    omega
  · exact stars_rest_lt _h
  · simp

/-- **Reads a pattern.** -/
def readPattern (t : Text) : Except PatternError (List Wild) := readWilds none 0 t

end CommonHeaders.Files
