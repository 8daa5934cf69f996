import CommonHeaders.Header.Comments
import CommonHeaders.Proofs.StrippedComments
import Mathlib.Data.List.Forall2

/-! # Comments and lines

Comments are taken out line by line. They can also be taken out character by character: a character
is read in code, in a comment, or in a string, and the first character of a pair that opens or
closes a comment is held back until the next one is read. Whatever is read, a line break is kept and
nothing else becomes one, so what is kept of a line stays in it.

A block comment that does not close begins in code, with nothing that closes it behind it, and takes
the rest of the text with it.

* `strip_eq_keptFrom`: line by line or character by character, the same is kept.
* `count_keptFrom`: every line break is kept, and none is added.
* `edited_stripLine`: what is kept of a line.
* `blocksClose_iff`: when all block comments close.
* `strip_keeps_lines`: which lines are left of a text. -/

namespace CommonHeaders.Comments

open Text

/-! ### Character by character -/

/-- Where a character stands with regard to comments and strings. -/
inductive Reading where
  | code
  /-- In code, behind a slash that may open a comment. -/
  | slash
  | line
  | block
  /-- In a block comment, behind a star that may close it. -/
  | star
  | quoted
  | escaped
deriving DecidableEq

namespace Reading

/-- Where the character behind `c` stands. -/
def next : Reading → Char → Reading
  | .code, c => if c = '/' then .slash else if c = '"' then .quoted else .code
  | .slash, c =>
    if c = '/' then .line else if c = '*' then .block else if c = '"' then .quoted else .code
  | .line, c => if c = '\n' then .code else .line
  | .block, c => if c = '*' then .star else .block
  | .star, c => if c = '/' then .code else if c = '*' then .star else .block
  | .quoted, c => if c = '\\' then .escaped else if c = '"' ∨ c = '\n' then .code else .quoted
  | .escaped, _ => .quoted

/-- What is kept when `c` is read. A slash in code is held back. -/
def kept : Reading → Char → Text
  | .code, c => if c = '/' then [] else [c]
  | .slash, c => if c = '/' then [] else if c = '*' then [' '] else ['/', c]
  | .line, c => if c = '\n' then [c] else []
  | .block, c => if c = '\n' then [c] else []
  | .star, c => if c = '\n' then [c] else []
  | .quoted, c => [c]
  | .escaped, c => [c]

/-- What is held back. -/
def held : Reading → Text
  | .slash => ['/']
  | _ => []

/-- Is a block comment open? -/
def InBlock (r : Reading) : Prop := r = .block ∨ r = .star

instance (r : Reading) : Decidable r.InBlock := inferInstanceAs (Decidable (_ ∨ _))

/-- Where reading goes on behind a text. -/
def after (r : Reading) (t : Text) : Reading := t.foldl next r

/-- **What is kept of a text.** -/
def keptFrom (r : Reading) : Text → Text
  | [] => r.held
  | c :: t => r.kept c ++ keptFrom (r.next c) t

variable {r : Reading}

theorem after_cons (r : Reading) (c : Char) (t : Text) :
    r.after (c :: t) = (r.next c).after t := rfl

theorem after_append (r : Reading) (a b : Text) : r.after (a ++ b) = (r.after a).after b :=
  List.foldl_append

/-- What is held back is kept in front of a line break. -/
theorem kept_newline (r : Reading) : r.kept '\n' = r.held ++ ['\n'] := by cases r <;> rfl

/-- A line break ends everything but a block comment. -/
theorem next_newline_eq_block_iff : r.next '\n' = .block ↔ r.InBlock := by cases r <;> decide

/-- **A line, and the text behind it.** -/
theorem keptFrom_append_newline (r : Reading) (line rest : Text) :
    r.keptFrom (line ++ '\n' :: rest) =
      r.keptFrom line ++ '\n' :: ((r.after line).next '\n').keptFrom rest := by
  induction line generalizing r with
  | nil =>
    have hbreak : r.keptFrom ('\n' :: rest) = r.kept '\n' ++ (r.next '\n').keptFrom rest := rfl
    rw [List.nil_append, hbreak, kept_newline, List.append_assoc]
    rfl
  | cons c line ih =>
    rw [List.cons_append, keptFrom, keptFrom, ih, after_cons, List.append_assoc]

/-- Where nothing is held back, a text can be cut. -/
theorem keptFrom_append {a : Text} (h : (r.after a).held = []) (b : Text) :
    r.keptFrom (a ++ b) = r.keptFrom a ++ (r.after a).keptFrom b := by
  induction a generalizing r with
  | nil =>
    have hnone : r.keptFrom [] = [] := h
    rw [hnone]
    rfl
  | cons c a ih => rw [List.cons_append, keptFrom, keptFrom, ih h, List.append_assoc, after_cons]

/-! ### Line breaks -/

/-- **Reading a line break keeps it**, and reading another character keeps none. -/
theorem count_kept (r : Reading) (c : Char) : (r.kept c).count '\n' = [c].count '\n' := by
  have hother {d : Char} (hd : d ≠ '\n') : [d].count '\n' = 0 := by simp [hd]
  unfold kept
  cases r with
  | code =>
    dsimp only
    split
    · rename_i hc
      rw [hc]
      rfl
    · rfl
  | slash =>
    dsimp only
    split
    · rename_i hc
      rw [hc]
      rfl
    · split
      · rename_i hc
        rw [hc]
        rfl
      · exact List.count_cons_of_ne (by decide)
  | line | block | star =>
    dsimp only
    split
    · rfl
    · rename_i hc
      exact (hother hc).symm
  | quoted => rfl
  | escaped => rfl

/-- **Every line break of a text is kept**, and none is added. -/
theorem count_keptFrom (r : Reading) (t : Text) : (r.keptFrom t).count '\n' = t.count '\n' := by
  induction t generalizing r with
  | nil => cases r <;> rfl
  | cons c t ih =>
    have hfirst := count_kept r c
    have hrest := ih (r.next c)
    rw [keptFrom, List.count_append, hfirst, hrest, ← List.count_append]
    rfl

end Reading

/-! ### Line by line -/

/-- How the first character of a line is read. -/
def Mode.reading : Mode → Reading
  | .code => .code
  | .block => .block
  | .quoted => .quoted

open Reading

/-- A line comment goes on to the end of its line. -/
theorem keptFrom_line {t : Text} (h : '\n' ∉ t) :
    Reading.line.keptFrom t = [] ∧ Reading.line.after t = .line := by
  induction t with
  | nil => exact ⟨rfl, rfl⟩
  | cons c t ih =>
    obtain ⟨hc, ht⟩ := not_or.mp (mt List.mem_cons.mpr h)
    obtain ⟨hkept, hafter⟩ := ih ht
    have hnext : Reading.line.next c = .line := if_neg (Ne.symm hc)
    have hnone : Reading.line.kept c = [] := if_neg (Ne.symm hc)
    rw [keptFrom, after_cons, hnext, hnone, hkept, hafter]
    exact ⟨rfl, rfl⟩

/-- A slash that opens no comment is kept, -/
theorem keptFrom_slash {t : Text} (h : ∀ c ∈ t.head?, c ≠ '/' ∧ c ≠ '*') :
    Reading.slash.keptFrom t = '/' :: Reading.code.keptFrom t ∧
      (Reading.slash.after t).next '\n' = (Reading.code.after t).next '\n' := by
  cases t with
  | nil => exact ⟨rfl, rfl⟩
  | cons c t =>
    obtain ⟨hslash, hstar⟩ := h c rfl
    have hkept : Reading.slash.kept c = '/' :: Reading.code.kept c := by
      simp only [kept, if_neg hslash, if_neg hstar]
    have hnext : Reading.slash.next c = Reading.code.next c := by
      simp only [next, if_neg hslash, if_neg hstar]
    rw [keptFrom, keptFrom, after_cons, after_cons, hkept, hnext]
    exact ⟨rfl, rfl⟩

/-- and a star that closes none changes nothing. -/
theorem keptFrom_star {t : Text} (h : ∀ c ∈ t.head?, c ≠ '/') :
    Reading.star.keptFrom t = Reading.block.keptFrom t ∧
      (Reading.star.after t).next '\n' = (Reading.block.after t).next '\n' := by
  cases t with
  | nil => exact ⟨rfl, rfl⟩
  | cons c t =>
    have hnext : Reading.star.next c = Reading.block.next c := by
      simp only [next, if_neg (h c rfl)]
    rw [keptFrom, keptFrom, after_cons, after_cons, hnext]
    exact ⟨rfl, rfl⟩

/-- **A line, character by character.** -/
theorem keptFrom_eq_stripLine (mode : Mode) {line : Text} (h : '\n' ∉ line) :
    mode.reading.keptFrom line = (stripLine mode line).1 ∧
      (mode.reading.after line).next '\n' = (stripLine mode line).2.reading := by
  have hkeep {r r' : Reading} {c : Char} {t : Text} {s : Text × Mode} (hkept : r.kept c = [c])
      (hnext : r.next c = r')
      (ht : r'.keptFrom t = s.1 ∧ (r'.after t).next '\n' = s.2.reading) :
      r.keptFrom (c :: t) = (keep c s).1 ∧
        (r.after (c :: t)).next '\n' = (keep c s).2.reading := by
    rw [keptFrom, after_cons, hkept, hnext, ht.1, ht.2]
    exact ⟨rfl, rfl⟩
  fun_induction stripLine mode line with
  | case1 => exact ⟨rfl, rfl⟩
  | case2 r =>
    obtain ⟨hkept, hafter⟩ := keptFrom_line (t := r) fun hmem => h (by simp [hmem])
    exact ⟨hkept, congrArg (Reading.next · '\n') hafter⟩
  | case3 r ih =>
    obtain ⟨hkept, hnext⟩ := ih (by simpa using h)
    exact ⟨congrArg (' ' :: ·) hkept, hnext⟩
  | case4 r ih => exact hkeep rfl rfl (ih (by simpa using h))
  | case5 c r hslash hstar hquote ih =>
    obtain ⟨hc, hr⟩ := not_or.mp (mt List.mem_cons.mpr h)
    have hrest := ih hr
    by_cases hfirst : c = '/'
    · subst hfirst
      have hplain : ∀ d ∈ r.head?, d ≠ '/' ∧ d ≠ '*' := by
        intro d hd
        obtain ⟨r', rfl⟩ := List.head?_eq_some_iff.mp hd
        exact ⟨fun he => hslash r' rfl (by rw [he]), fun he => hstar r' rfl (by rw [he])⟩
      obtain ⟨hkept, hnext⟩ := keptFrom_slash hplain
      exact ⟨hkept.trans (congrArg ('/' :: ·) hrest.1), hnext.trans hrest.2⟩
    · exact hkeep (if_neg hfirst) ((if_neg hfirst).trans (if_neg hquote)) hrest
  | case6 => exact ⟨rfl, rfl⟩
  | case7 r ih => exact ih (by simpa using h)
  | case8 c r hends ih =>
    obtain ⟨hc, hr⟩ := not_or.mp (mt List.mem_cons.mpr h)
    obtain ⟨hkept, hnext⟩ := ih hr
    have hnone : Reading.block.kept c = [] := if_neg (Ne.symm hc)
    by_cases hstar : c = '*'
    · subst hstar
      have hplain : ∀ d ∈ r.head?, d ≠ '/' := by
        intro d hd he
        obtain ⟨r', rfl⟩ := List.head?_eq_some_iff.mp hd
        exact hends r' rfl (by rw [he])
      obtain ⟨hkept', hnext'⟩ := keptFrom_star hplain
      exact ⟨hkept'.trans hkept, hnext'.trans hnext⟩
    · have hblock : Reading.block.next c = .block := if_neg hstar
      rw [Mode.reading, keptFrom, after_cons, hblock, hnone]
      exact ⟨hkept, hnext⟩
  | case9 => exact ⟨rfl, rfl⟩
  | case10 => exact ⟨rfl, rfl⟩
  | case11 c r ih =>
    have hr : '\n' ∉ r := fun hmem => h (by simp [hmem])
    have hescaped : Reading.escaped.keptFrom (c :: r) = (keep c (stripLine .quoted r)).1 ∧
        (Reading.escaped.after (c :: r)).next '\n' = (keep c (stripLine .quoted r)).2.reading :=
      hkeep rfl rfl (ih hr)
    exact hkeep rfl rfl hescaped
  | case12 r ih => exact hkeep rfl rfl (ih (by simpa using h))
  | case13 c r hend hescape hquote ih =>
    obtain ⟨hc, hr⟩ := not_or.mp (mt List.mem_cons.mpr h)
    have hinside : Reading.quoted.next c = .quoted :=
      (if_neg (ne_backslash hend hescape)).trans (if_neg (not_or.mpr ⟨hquote, Ne.symm hc⟩))
    exact hkeep rfl hinside (ih hr)

/-- **Lines, character by character.** -/
theorem keptFrom_eq_stripLines (mode : Mode) {lines : List Text} (h : ∀ l ∈ lines, '\n' ∉ l) :
    mode.reading.keptFrom (join ['\n'] lines) = join ['\n'] (stripLines mode lines).1 ∧
      ((mode.reading.after (join ['\n'] lines)).InBlock ↔ (stripLines mode lines).2 = .block) := by
  have hend {m : Mode} : m.reading = .block ↔ m = .block := by cases m <;> decide
  induction lines generalizing mode with
  | nil =>
    have hkept : mode.reading.keptFrom (join ['\n'] []) = [] := by cases mode <;> rfl
    refine ⟨hkept, ?_⟩
    cases mode <;> decide
  | cons line rest ih =>
    obtain ⟨hkept, hnext⟩ := keptFrom_eq_stripLine mode (h line List.mem_cons_self)
    cases rest with
    | nil =>
      have hone (l : Text) : join ['\n'] [l] = l := by simp [join]
      have hlast : (mode.reading.after line).InBlock ↔ (stripLine mode line).2 = .block := by
        rw [← next_newline_eq_block_iff, hnext, hend]
      rw [hone, stripLines_cons, stripLines, hone]
      exact ⟨hkept, hlast⟩
    | cons line' rest =>
      have hrest := ih (stripLine mode line).2 fun l hl => h l (List.mem_cons_of_mem _ hl)
      have hsplit : join ['\n'] (line :: line' :: rest) =
          line ++ '\n' :: join ['\n'] (line' :: rest) := rfl
      have hafter : mode.reading.after (line ++ '\n' :: join ['\n'] (line' :: rest)) =
          (stripLine mode line).2.reading.after (join ['\n'] (line' :: rest)) := by
        rw [after_append, after_cons, hnext]
      rw [hsplit, keptFrom_append_newline, hafter, hkept, hnext, hrest.1, hrest.2]
      exact ⟨rfl, Iff.rfl⟩

/-- The characters that are cut off behind a block comment that does not close. -/
def isTrailing (c : Char) : Bool := c == '\n' || c == ' '

/-- **Stripping, character by character.** -/
theorem strip_eq_keptFrom (t : Text) :
    strip t =
      if (Reading.code.after t).InBlock then dropEndWhile isTrailing (Reading.code.keptFrom t)
      else Reading.code.keptFrom t := by
  have hlines : join ['\n'] (t.splitOn '\n') = t := List.intercalate_splitOn '\n'
  have hbreaks : ∀ l ∈ t.splitOn '\n', '\n' ∉ l := fun _ => notMem_of_mem_splitOn
  obtain ⟨hkept, hlast⟩ := keptFrom_eq_stripLines .code hbreaks
  rw [hlines] at hkept hlast
  have hcode : Mode.code.reading = .code := rfl
  rw [hcode] at hkept hlast
  rw [hkept, strip]
  simp only [hlast]
  rfl

/-! ### What is kept of a line -/

/-- **Edited**: characters of the first text are deleted and spaces are inserted. -/
inductive Edited : Text → Text → Prop
  | nil : Edited [] []
  | keep {a b : Text} (c : Char) (h : Edited a b) : Edited (c :: a) (c :: b)
  | delete {a b : Text} (c : Char) (h : Edited a b) : Edited (c :: a) b
  | insert {a b : Text} (h : Edited a b) : Edited a (' ' :: b)

theorem edited_nil (a : Text) : Edited a [] := by
  induction a with
  | nil => exact .nil
  | cons c a ih => exact .delete c ih

/-- Nothing but spaces comes into a line. -/
theorem Edited.notMem {a b : Text} (h : Edited a b) {c : Char} (hspace : c ≠ ' ') (ha : c ∉ a) :
    c ∉ b := by
  induction h with
  | nil => exact ha
  | keep d h ih =>
    obtain ⟨hd, ha⟩ := not_or.mp (mt List.mem_cons.mpr ha)
    exact mt List.mem_cons.mp (not_or.mpr ⟨hd, ih ha⟩)
  | delete d h ih => exact ih (not_or.mp (mt List.mem_cons.mpr ha)).2
  | insert h ih => exact mt List.mem_cons.mp (not_or.mpr ⟨hspace, ih ha⟩)

/-- **What is kept of a line.** -/
theorem edited_stripLine (mode : Mode) (line : Text) : Edited line (stripLine mode line).1 := by
  fun_induction stripLine mode line with
  | case1 => exact .nil
  | case2 r => exact edited_nil _
  | case3 r ih => exact .delete '/' (.insert (.delete '*' ih))
  | case4 r ih => exact .keep '"' ih
  | case5 c r _ _ _ ih => exact .keep c ih
  | case6 => exact .nil
  | case7 r ih => exact .delete '*' (.delete '/' ih)
  | case8 c r _ ih => exact .delete c ih
  | case9 => exact .nil
  | case10 => exact .keep '\\' .nil
  | case11 c r ih => exact .keep '\\' (.keep c ih)
  | case12 r ih => exact .keep '"' ih
  | case13 c r _ _ _ ih => exact .keep c ih

theorem edited_stripLines (mode : Mode) (lines : List Text) :
    List.Forall₂ Edited lines (stripLines mode lines).1 := by
  induction lines generalizing mode with
  | nil => exact .nil
  | cons line rest ih => exact .cons (edited_stripLine mode line) (ih _)

/-- What is kept of lines are lines. -/
theorem newline_notMem_stripLines (mode : Mode) {lines : List Text} (h : ∀ l ∈ lines, '\n' ∉ l) :
    ∀ l ∈ (stripLines mode lines).1, '\n' ∉ l := by
  induction lines generalizing mode with
  | nil => exact h
  | cons line rest ih =>
    have hfirst : '\n' ∉ (stripLine mode line).1 :=
      (edited_stripLine mode line).notMem (by decide) (h line List.mem_cons_self)
    have hrest := ih (stripLine mode line).2 fun l hl => h l (List.mem_cons_of_mem _ hl)
    rw [stripLines_cons]
    exact List.forall_mem_cons.mpr ⟨hfirst, hrest⟩

/-! ### Comments that do not close -/

/-- **All block comments close**: behind every pair of characters that opens one in code, a pair
follows that closes it. -/
def BlocksClose (t : Text) : Prop :=
  ∀ a b, t = a ++ '/' :: '*' :: b → Reading.code.after a = .code → ['*', '/'] <:+: b

/-- A comment that does not close goes on to the end, and line breaks are all that is kept of it. -/
theorem inBlock_after {r : Reading} (hr : r.InBlock) {t : Text}
    (hstar : r = .star → t.head? ≠ some '/') (hopen : ¬ ['*', '/'] <:+: t) :
    (r.after t).InBlock ∧ ∀ c ∈ r.keptFrom t, c = '\n' := by
  induction t generalizing r with
  | nil =>
    refine ⟨hr, ?_⟩
    rcases hr with rfl | rfl <;> exact fun c hc => absurd hc List.not_mem_nil
  | cons c t ih =>
    have hopen' : ¬ ['*', '/'] <:+: t := fun h => hopen (h.trans (List.suffix_cons c t).isInfix)
    have hnext : (r.next c).InBlock ∧ (r.next c = .star → t.head? ≠ some '/') := by
      by_cases hc : c = '*'
      · subst hc
        have hhead : t.head? ≠ some '/' := fun he => by
          obtain ⟨t', rfl⟩ := List.head?_eq_some_iff.mp he
          exact hopen (List.prefix_append ['*', '/'] t').isInfix
        have hin : r.next '*' = .star := by rcases hr with rfl | rfl <;> rfl
        exact ⟨Or.inr hin, fun _ => hhead⟩
      · have hin : r.next c = .block := by
          rcases hr with rfl | rfl
          · exact if_neg hc
          · have hslash : c ≠ '/' := fun he => hstar rfl (by rw [he]; rfl)
            exact (if_neg hslash).trans (if_neg hc)
        exact ⟨Or.inl hin, fun he => by rw [hin] at he; cases he⟩
    have hkept : ∀ d ∈ r.kept c, d = '\n' := by
      have hbreak : r.kept c = if c = '\n' then [c] else [] := by rcases hr with rfl | rfl <;> rfl
      rw [hbreak]
      split
      · rename_i hc
        exact fun d hd => (List.mem_singleton.mp hd).trans hc
      · exact fun d hd => absurd hd List.not_mem_nil
    obtain ⟨hafter, hrest⟩ := ih hnext.1 hnext.2 hopen'
    refine ⟨hafter, fun d hd => ?_⟩
    rcases List.mem_append.mp hd with hd | hd
    · exact hkept d hd
    · exact hrest d hd

/-- How a slash comes to be held back. -/
theorem code_of_next_eq_slash {r : Reading} {c : Char} (h : r.next c = .slash) :
    r = .code ∧ c = '/' := by
  cases r <;> grind [Reading.next]

/-- How a block comment comes to be open: it is opened, or it was open and is not closed. -/
theorem inBlock_of_next {r : Reading} {c : Char} (h : (r.next c).InBlock) :
    r = .slash ∧ c = '*' ∨ r.InBlock ∧ (r = .star → c ≠ '/') ∧ (c = '*' → r.next c = .star) := by
  cases r <;> grind [Reading.next, Reading.InBlock]

/-- **Where a block comment is open** at the end of a text, it was opened in the text, or was open
before. -/
theorem exists_opening_of_inBlock {r : Reading} {t : Text} (h : (r.after t).InBlock) :
    (∃ a b, t = a ++ '/' :: '*' :: b ∧ r.after a = .code ∧ ¬ ['*', '/'] <:+: b) ∨
      (r.InBlock ∧ (r = .star → t.head? ≠ some '/') ∧ ¬ ['*', '/'] <:+: t) ∨
      r = .slash ∧ ∃ b, t = '*' :: b ∧ ¬ ['*', '/'] <:+: b := by
  induction t generalizing r with
  | nil => exact Or.inr (Or.inl ⟨h, fun _ => by simp, by simp⟩)
  | cons c t ih =>
    rcases ih h with ⟨a, b, rfl, hcode, hopen⟩ | ⟨hin, hstar, hopen⟩ | ⟨hslash, b, rfl, hopen⟩
    · exact Or.inl ⟨c :: a, b, rfl, hcode, hopen⟩
    · right
      rcases inBlock_of_next hin with ⟨rfl, rfl⟩ | ⟨hr, hslash, hnext⟩
      · exact Or.inr ⟨rfl, t, rfl, hopen⟩
      · refine Or.inl ⟨hr, fun he hc => hslash he (Option.some.inj hc), fun hclose => ?_⟩
        rcases List.infix_cons_iff.mp hclose with hfirst | hrest
        · obtain ⟨hc, hfirst⟩ := List.cons_prefix_cons.mp hfirst
          obtain ⟨t', rfl⟩ := hfirst
          exact hstar (hnext hc.symm) rfl
        · exact hopen hrest
    · obtain ⟨rfl, rfl⟩ := code_of_next_eq_slash hslash
      exact Or.inl ⟨[], b, rfl, rfl, hopen⟩

/-- **All block comments close** exactly if none is open at the end. -/
theorem blocksClose_iff {t : Text} : BlocksClose t ↔ ¬ (Reading.code.after t).InBlock := by
  constructor
  · intro hclose hin
    rcases exists_opening_of_inBlock hin with ⟨a, b, hab, hcode, hopen⟩ | ⟨hcode, -⟩ | ⟨hcode, -⟩
    · exact hopen (hclose a b hab hcode)
    · exact absurd hcode (by decide)
    · cases hcode
  · rintro hnone a b rfl hcode
    by_contra hopen
    have hin := (inBlock_after (r := .block) (Or.inl rfl) (fun h => by cases h) hopen).1
    rw [after_append, hcode] at hnone
    exact hnone hin

instance (t : Text) : Decidable (BlocksClose t) := decidable_of_iff _ blocksClose_iff.symm

/-! ### The lines that are left -/

/-- If all block comments close, the lines of a text are stripped one by one. -/
theorem splitOn_strip {t : Text} (h : BlocksClose t) :
    (strip t).splitOn '\n' = (stripLines .code (t.splitOn '\n')).1 := by
  have hlines : ∀ l ∈ t.splitOn '\n', '\n' ∉ l := fun _ => notMem_of_mem_splitOn
  have hkept : strip t = join ['\n'] (stripLines .code (t.splitOn '\n')).1 := by
    rw [strip_eq_keptFrom, if_neg (blocksClose_iff.mp h),
      ← (keptFrom_eq_stripLines .code hlines).1]
    exact congrArg Reading.code.keptFrom (List.intercalate_splitOn '\n').symm
  have hne : (stripLines .code (t.splitOn '\n')).1 ≠ [] := fun he => by
    have hlength := stripLines_length .code (t.splitOn '\n')
    rw [he] at hlength
    exact List.splitOn_ne_nil '\n' t (List.length_eq_zero_iff.mp hlength.symm)
  rw [hkept]
  exact List.splitOn_intercalate '\n' (newline_notMem_stripLines .code hlines) hne

/-- A block comment that does not close takes the rest of the text with it. -/
theorem strip_append_unclosed {a b : Text} (hcode : Reading.code.after a = .code)
    (hopen : ¬ ['*', '/'] <:+: b) :
    strip (a ++ '/' :: '*' :: b) = dropEndWhile isTrailing (strip a) := by
  obtain ⟨hin, hbreaks⟩ := inBlock_after (r := .block) (Or.inl rfl) (fun h => by cases h) hopen
  have hafter : Reading.code.after (a ++ '/' :: '*' :: b) = Reading.block.after b := by
    rw [after_append, hcode]
    rfl
  have hkept : Reading.code.keptFrom (a ++ '/' :: '*' :: b) =
      Reading.code.keptFrom a ++ ' ' :: Reading.block.keptFrom b := by
    rw [keptFrom_append (by rw [hcode]; rfl), hcode]
    rfl
  have htrailing : ∀ c ∈ ' ' :: Reading.block.keptFrom b, isTrailing c = true := by
    refine List.forall_mem_cons.mpr ⟨rfl, fun c hc => ?_⟩
    rw [hbreaks c hc]
    rfl
  have hstripped : strip a = Reading.code.keptFrom a := by
    rw [strip_eq_keptFrom, hcode, if_neg (by decide)]
  rw [strip_eq_keptFrom, hafter, if_pos hin, hkept, dropEndWhile_append_of_all _ htrailing,
    hstripped]

/-- **The lines of a text are kept.** Comments are taken out character by character. If all block
comments close, every line break is kept and none is added, and every line is left with some of its
characters deleted and some spaces inserted. A block comment that does not close takes the rest of
the text with it, and what is left before it is trimmed. -/
theorem strip_keeps_lines (t : Text) :
    (strip t = if (Reading.code.after t).InBlock
      then dropEndWhile isTrailing (Reading.code.keptFrom t) else Reading.code.keptFrom t) ∧
    (BlocksClose t → (strip t).count '\n' = t.count '\n' ∧
      List.Forall₂ Edited (t.splitOn '\n') ((strip t).splitOn '\n')) ∧
    ∀ a b, t = a ++ '/' :: '*' :: b → Reading.code.after a = .code → ¬ ['*', '/'] <:+: b →
      strip t = dropEndWhile isTrailing (strip a) := by
  refine ⟨strip_eq_keptFrom t, fun hclose => ⟨?_, ?_⟩, ?_⟩
  · rw [strip_eq_keptFrom, if_neg (blocksClose_iff.mp hclose), count_keptFrom]
  · rw [splitOn_strip hclose]
    exact edited_stripLines .code (t.splitOn '\n')
  · rintro a b rfl hcode hopen
    exact strip_append_unclosed hcode hopen

/-- A string over two lines with what would open a comment in it, a comment over two lines, and a
comment that a star and a slash apart do not close. -/
theorem strip_keeps_lines_calls :
    let t := "f(\"/*\\\n\"); /* a\nb */ g(); // c\nh();".toList
    let a := "f(); \n\n".toList
    let b := "* a /\n".toList
    BlocksClose t ∧ (strip t).count '\n' = 3 ∧
      List.Forall₂ Edited (t.splitOn '\n') ((strip t).splitOn '\n') ∧
      Reading.code.after a = .code ∧ ¬ ['*', '/'] <:+: b ∧
      strip (a ++ '/' :: '*' :: b) = dropEndWhile isTrailing (strip a) ∧
      strip (a ++ '/' :: '*' :: b) = "f();".toList := by
  intro t a b
  have hfacts : BlocksClose t ∧ t.count '\n' = 3 ∧ Reading.code.after a = .code ∧
      ¬ ['*', '/'] <:+: b ∧ strip (a ++ '/' :: '*' :: b) = "f();".toList := by decide +kernel
  obtain ⟨hclose, hcount, hcode, hopen, hleft⟩ := hfacts
  obtain ⟨-, hlines, -⟩ := strip_keeps_lines t
  obtain ⟨-, -, htail⟩ := strip_keeps_lines (a ++ '/' :: '*' :: b)
  obtain ⟨hsame, hedited⟩ := hlines hclose
  exact ⟨hclose, hsame.trans hcount, hedited, hcode, hopen, htail a b rfl hcode hopen, hleft⟩

end CommonHeaders.Comments
