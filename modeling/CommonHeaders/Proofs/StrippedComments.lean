import CommonHeaders.Header.Comments
import CommonHeaders.Proofs.CollapsedText

/-! # Texts without comments

Strings can be read without regard to comments: a quotation mark opens one, and the next mark or
line break that no backslash escapes ends it. A text is free of comments if every pair of characters
that opens one stands inside of a string read in this way. Nothing is said of the modes in which
comments are removed, and a beginning of such a text is such a text.

Stripping leaves a text free of comments, whatever it is given: what is kept of a comment is a space
or a line break, so no opening pair comes together, and the quotation marks that are kept are those
of strings. Cutting off the end of a header whose last comment does not close keeps a beginning.

* `freeFrom_stripLine`: what is kept of a line.
* `stripLine_eq_self`: a line free of comments is kept.
* `strip_strip`: stripping leaves no comment behind, and texts without comments as they are. -/

namespace CommonHeaders.Text

/-- A separator stands in no part of a text that is cut at it. -/
theorem notMem_of_mem_splitOn {c : Char} {t w : Text} (h : w ∈ t.splitOn c) : c ∉ w := by
  induction t generalizing w with
  | nil =>
    rw [List.splitOn_nil, List.mem_singleton] at h
    rw [h]
    exact List.not_mem_nil
  | cons d r ih =>
    rw [List.splitOn_cons_eq_if_modifyHead] at h
    split at h
    · rcases List.mem_cons.mp h with rfl | h
      · exact List.not_mem_nil
      · exact ih h
    · rename_i hd
      have hne : c ≠ d := fun he => hd (by rw [he, beq_self_eq_true])
      obtain ⟨first, rest, hparts⟩ := List.exists_cons_of_ne_nil (List.splitOn_ne_nil c r)
      rw [hparts] at h ih
      rw [List.modifyHead_cons] at h
      rcases List.mem_cons.mp h with rfl | h
      · exact mt List.mem_cons.mp (not_or.mpr ⟨hne, ih List.mem_cons_self⟩)
      · exact ih (List.mem_cons_of_mem _ h)

end CommonHeaders.Text

namespace CommonHeaders.Comments

open Text

/-! ### Strings -/

/-- Where a character stands with regard to strings. -/
inductive Quotes where
  | outside
  | inside
  | escaped
deriving DecidableEq

/-- What a character does to the strings around it. -/
def Quotes.next : Quotes → Char → Quotes
  | .outside, c => if c = '"' then .inside else .outside
  | .inside, c => if c = '\\' then .escaped else if c = '"' ∨ c = '\n' then .outside else .inside
  | .escaped, _ => .inside

/-- **The strings behind a text** that begins in `q`. -/
def quotesAfter (q : Quotes) (t : Text) : Quotes := t.foldl Quotes.next q

/-- Do the two characters open a comment? -/
def OpensComment (c d : Char) : Prop := c = '/' ∧ (d = '/' ∨ d = '*')

/-- **No comment opens** in the text, outside of strings. -/
def FreeFrom (q : Quotes) (t : Text) : Prop :=
  ∀ a c d b, t = a ++ c :: d :: b → OpensComment c d → quotesAfter q a ≠ .outside

/-- **Free of comments**: whatever opens a comment stands in a string. -/
def CommentFree (t : Text) : Prop := FreeFrom .outside t

theorem quotesAfter_cons (q : Quotes) (c : Char) (t : Text) :
    quotesAfter q (c :: t) = quotesAfter (q.next c) t := rfl

theorem freeFrom_nil (q : Quotes) : FreeFrom q [] := by
  intro a c d b h
  simp at h

/-- A text free of comments, by its first character. -/
theorem freeFrom_cons {q : Quotes} {c : Char} {t : Text} : FreeFrom q (c :: t) ↔
    (∀ d r, t = d :: r → OpensComment c d → q ≠ .outside) ∧ FreeFrom (q.next c) t := by
  constructor
  · intro h
    refine ⟨fun d r ht hopens => h [] c d r (by rw [ht]; rfl) hopens, ?_⟩
    intro a c' d b ht hopens
    exact h (c :: a) c' d b (by rw [ht]; rfl) hopens
  · rintro ⟨hfirst, hrest⟩ a c' d b ht hopens
    cases a with
    | nil =>
      obtain ⟨rfl, rfl⟩ := List.cons.inj ht
      exact hfirst d b rfl hopens
    | cons e a =>
      obtain ⟨rfl, rfl⟩ := List.cons.inj ht
      exact hrest a c' d b rfl hopens

/-- A beginning of a text free of comments is free of them. -/
theorem FreeFrom.of_append {q : Quotes} {a b : Text} (h : FreeFrom q (a ++ b)) : FreeFrom q a :=
  fun x c d y ha => h x c d (y ++ b) (by rw [ha]; simp)

/-- A line break stands in no opening pair. -/
theorem freeFrom_append_newline {a b : Text} {q : Quotes} : FreeFrom q (a ++ '\n' :: b) ↔
    FreeFrom q a ∧ FreeFrom ((quotesAfter q a).next '\n') b := by
  induction a generalizing q with
  | nil =>
    rw [List.nil_append, freeFrom_cons]
    have hbreak : ∀ d r, b = d :: r → OpensComment '\n' d → q ≠ .outside :=
      fun d r _ hopens => absurd hopens.1 (by decide)
    exact ⟨fun h => ⟨freeFrom_nil q, h.2⟩, fun h => ⟨hbreak, h.2⟩⟩
  | cons c r ih =>
    rw [List.cons_append, freeFrom_cons, freeFrom_cons, ih, quotesAfter_cons, ← and_assoc]
    refine and_congr_left fun _ => and_congr_left fun _ => ?_
    cases r with
    | nil =>
      refine iff_of_true (fun d r' hr hopens => ?_) (fun d r' hr => by cases hr)
      obtain ⟨rfl, -⟩ := List.cons.inj hr
      exact absurd hopens.2 (by decide)
    | cons e r =>
      constructor
      · intro h d r' hr
        exact h d (r' ++ '\n' :: b) (by rw [hr]; rfl)
      · intro h d r' hr
        exact h d r (by rw [(List.cons.inj hr).1])

/-! ### Lines -/

/-- Where strings stand when a line begins. -/
def Mode.quotes : Mode → Quotes
  | .code => .outside
  | .block => .outside
  | .quoted => .inside

/-- In code, what is kept of a line begins as the line does. -/
theorem head?_stripLine {r : Text} (hr : r.head? ≠ some '/') :
    (stripLine .code r).1.head? = r.head? := by
  generalize hmode : Mode.code = mode
  fun_cases stripLine mode r
  case case2 => exact absurd rfl hr
  case case3 => exact absurd rfl hr
  all_goals first | rfl | cases hmode

/-- A backslash in a string is read with what is behind it, at the end of a line alone. -/
theorem ne_backslash {c : Char} {r : Text} (hend : c = '\\' → r = [] → False)
    (hescape : ∀ d r', c = '\\' → r = d :: r' → False) : c ≠ '\\' := fun he => by
  cases r with
  | nil => exact hend he rfl
  | cons d r => exact hescape d r he rfl

/-- Nothing but a backslash, a quotation mark and a line break counts within a string. -/
theorem next_inside {c : Char} {r : Text} (hend : c = '\\' → r = [] → False)
    (hescape : ∀ d r', c = '\\' → r = d :: r' → False) (hquote : c ≠ '"') (hbreak : '\n' ≠ c) :
    Quotes.inside.next c = .inside := by
  rw [Quotes.next, if_neg (ne_backslash hend hescape), if_neg (not_or.mpr ⟨hquote, Ne.symm hbreak⟩)]

/-- **What is kept of a line** is free of comments, and the next line begins where its strings
end. -/
theorem freeFrom_stripLine (mode : Mode) {line : Text} (h : '\n' ∉ line) :
    FreeFrom mode.quotes (stripLine mode line).1 ∧
      (quotesAfter mode.quotes (stripLine mode line).1).next '\n' =
        (stripLine mode line).2.quotes := by
  have hkeep {c : Char} {q : Quotes} {r : Text × Mode}
      (hpair : ∀ d k, r.1 = d :: k → OpensComment c d → q ≠ .outside)
      (hrest : FreeFrom (q.next c) r.1 ∧ (quotesAfter (q.next c) r.1).next '\n' = r.2.quotes) :
      FreeFrom q (keep c r).1 ∧ (quotesAfter q (keep c r).1).next '\n' = (keep c r).2.quotes :=
    ⟨freeFrom_cons.mpr ⟨hpair, hrest.1⟩, hrest.2⟩
  have hplain {c : Char} (hc : c ≠ '/') {q : Quotes} {k : Text} :
      ∀ d k', k = d :: k' → OpensComment c d → q ≠ .outside :=
    fun _ _ _ hopens => absurd hopens.1 hc
  have hinside {c : Char} {q : Quotes} (hq : q ≠ .outside) {k : Text} :
      ∀ d k', k = d :: k' → OpensComment c d → q ≠ .outside := fun _ _ _ _ => hq
  fun_induction stripLine mode line with
  | case1 => exact ⟨freeFrom_nil _, rfl⟩
  | case2 => exact ⟨freeFrom_nil _, rfl⟩
  | case3 r ih => exact hkeep (hplain (by decide)) (ih (by simpa using h))
  | case4 r ih => exact hkeep (hplain (by decide)) (ih (by simpa using h))
  | case5 c r hslash hstar hquote ih =>
    obtain ⟨-, hr⟩ := not_or.mp (mt List.mem_cons.mpr h)
    have hnext : Quotes.outside.next c = .outside := if_neg hquote
    refine hkeep (q := .outside) (fun d k hk hopens => ?_) (by rw [hnext]; exact ih hr)
    obtain ⟨rfl, hd⟩ := hopens
    have hhead : r.head? ≠ some '/' := fun he => by
      obtain ⟨r', rfl⟩ := List.head?_eq_some_iff.mp he
      exact hslash r' rfl rfl
    have hfirst : r.head? = some d := by rw [← head?_stripLine hhead, hk]; rfl
    obtain ⟨r', rfl⟩ := List.head?_eq_some_iff.mp hfirst
    rcases hd with rfl | rfl
    · exact (hslash r' rfl rfl).elim
    · exact (hstar r' rfl rfl).elim
  | case6 => exact ⟨freeFrom_nil _, rfl⟩
  | case7 r ih => exact ih (by simpa using h)
  | case8 c r hends ih => exact ih (not_or.mp (mt List.mem_cons.mpr h)).2
  | case9 => exact ⟨freeFrom_nil _, rfl⟩
  | case10 => exact ⟨freeFrom_cons.mpr ⟨hinside (by decide), freeFrom_nil _⟩, rfl⟩
  | case11 c r ih =>
    have hr : '\n' ∉ r := fun hmem => h (by simp [hmem])
    exact hkeep (hinside (by decide)) (hkeep (q := .escaped) (hinside (by decide)) (ih hr))
  | case12 r ih => exact hkeep (hinside (by decide)) (ih (by simpa using h))
  | case13 c r hend hescape hquote ih =>
    obtain ⟨hc, hr⟩ := not_or.mp (mt List.mem_cons.mpr h)
    have hnext := next_inside hend hescape hquote hc
    exact hkeep (q := .inside) (hinside (by decide)) (by rw [hnext]; exact ih hr)

/-- **A line free of comments** is kept, and no block comment is open behind it. -/
theorem stripLine_eq_self {mode : Mode} (hmode : mode ≠ .block) {line : Text} (h : '\n' ∉ line)
    (hfree : FreeFrom mode.quotes line) :
    (stripLine mode line).1 = line ∧ (stripLine mode line).2 ≠ .block := by
  have hkeep {c : Char} {t : Text} {r : Text × Mode} (hrest : r.1 = t ∧ r.2 ≠ .block) :
      (keep c r).1 = c :: t ∧ (keep c r).2 ≠ .block := ⟨congrArg (c :: ·) hrest.1, hrest.2⟩
  fun_induction stripLine mode line with
  | case1 => exact ⟨rfl, by decide⟩
  | case2 r => exact absurd rfl ((freeFrom_cons.mp hfree).1 '/' r rfl ⟨rfl, Or.inl rfl⟩)
  | case3 r => exact absurd rfl ((freeFrom_cons.mp hfree).1 '*' r rfl ⟨rfl, Or.inr rfl⟩)
  | case4 r ih => exact hkeep (ih (by decide) (by simpa using h) (freeFrom_cons.mp hfree).2)
  | case5 c r _ _ hquote ih =>
    have hrest := (freeFrom_cons.mp hfree).2
    have hnext : Quotes.outside.next c = .outside := if_neg hquote
    rw [Mode.quotes, hnext] at hrest
    exact hkeep (ih hmode (not_or.mp (mt List.mem_cons.mpr h)).2 hrest)
  | case6 => exact absurd rfl hmode
  | case7 => exact absurd rfl hmode
  | case8 => exact absurd rfl hmode
  | case9 => exact ⟨rfl, by decide⟩
  | case10 => exact ⟨rfl, by decide⟩
  | case11 c r ih =>
    have hr : '\n' ∉ r := fun hmem => h (by simp [hmem])
    have hrest := (freeFrom_cons.mp (freeFrom_cons.mp hfree).2).2
    exact hkeep (hkeep (ih hmode hr hrest))
  | case12 r ih => exact hkeep (ih (by decide) (by simpa using h) (freeFrom_cons.mp hfree).2)
  | case13 c r hend hescape hquote ih =>
    have hrest := (freeFrom_cons.mp hfree).2
    obtain ⟨hc, hr⟩ := not_or.mp (mt List.mem_cons.mpr h)
    rw [Mode.quotes, next_inside hend hescape hquote hc] at hrest
    exact hkeep (ih hmode hr hrest)

/-! ### Headers -/

theorem stripLines_cons (mode : Mode) (line : Text) (rest : List Text) :
    stripLines mode (line :: rest) =
      ((stripLine mode line).1 :: (stripLines (stripLine mode line).2 rest).1,
        (stripLines (stripLine mode line).2 rest).2) := rfl

/-- **What is kept of a header**, its end aside, is free of comments. -/
theorem freeFrom_stripLines (mode : Mode) {lines : List Text} (h : ∀ l ∈ lines, '\n' ∉ l) :
    FreeFrom mode.quotes (join ['\n'] (stripLines mode lines).1) := by
  induction lines generalizing mode with
  | nil => exact freeFrom_nil _
  | cons line rest ih =>
    obtain ⟨hfirst, hnext⟩ := freeFrom_stripLine mode (h line List.mem_cons_self)
    have hrest := ih (stripLine mode line).2 fun l hl => h l (List.mem_cons_of_mem _ hl)
    cases rest with
    | nil => simpa [stripLines, join] using hfirst
    | cons line' rest =>
      rw [← hnext] at hrest
      exact freeFrom_append_newline.mpr ⟨hfirst, hrest⟩

/-- **Lines free of comments** are kept, and no block comment is open behind them. -/
theorem stripLines_eq_self {mode : Mode} (hmode : mode ≠ .block) {lines : List Text}
    (h : ∀ l ∈ lines, '\n' ∉ l) (hfree : FreeFrom mode.quotes (join ['\n'] lines)) :
    (stripLines mode lines).1 = lines ∧ (stripLines mode lines).2 ≠ .block := by
  induction lines generalizing mode with
  | nil => exact ⟨rfl, hmode⟩
  | cons line rest ih =>
    have hline := h line List.mem_cons_self
    cases rest with
    | nil =>
      have hfree : FreeFrom mode.quotes line := by simpa [join] using hfree
      obtain ⟨hkept, hlast⟩ := stripLine_eq_self hmode hline hfree
      exact ⟨congrArg ([·]) hkept, hlast⟩
    | cons line' rest =>
      have hfree : FreeFrom mode.quotes (line ++ '\n' :: join ['\n'] (line' :: rest)) := hfree
      obtain ⟨hfirst, hrest⟩ := freeFrom_append_newline.mp hfree
      obtain ⟨hkept, hnext⟩ := stripLine_eq_self hmode hline hfirst
      have hstrings := (freeFrom_stripLine mode hline).2
      rw [hkept] at hstrings
      rw [hstrings] at hrest
      obtain ⟨hkept', hlast⟩ := ih hnext (fun l hl => h l (List.mem_cons_of_mem _ hl)) hrest
      rw [stripLines_cons, hkept, hkept']
      exact ⟨rfl, hlast⟩

/-- **Stripping leaves a text free of comments**, -/
theorem commentFree_strip (t : Text) : CommentFree (strip t) := by
  have hkept : CommentFree (join ['\n'] (stripLines .code (t.splitOn '\n')).1) :=
    freeFrom_stripLines .code fun _ => notMem_of_mem_splitOn
  unfold strip
  dsimp only
  split
  · obtain ⟨b, hb, -⟩ := exists_append_dropEndWhile (fun c => c == '\n' || c == ' ')
      (join ['\n'] (stripLines .code (t.splitOn '\n')).1)
    rw [hb] at hkept
    exact FreeFrom.of_append hkept
  · exact hkept

/-- and such a text as it is. -/
theorem strip_eq_self {t : Text} (h : CommentFree t) : strip t = t := by
  have hlines : join ['\n'] (t.splitOn '\n') = t := List.intercalate_splitOn '\n'
  have hcode : Mode.code ≠ .block := by decide
  obtain ⟨hkept, hlast⟩ := stripLines_eq_self hcode (fun _ => notMem_of_mem_splitOn)
    (hlines.symm ▸ h)
  unfold strip
  dsimp only
  rw [if_neg hlast, hkept, hlines]

/-- **No comment is left behind**: what is left of a text has none, and so a second pass changes
nothing; the texts that stripping leaves alone are those without comments. -/
theorem strip_strip (t : Text) :
    CommentFree (strip t) ∧ strip (strip t) = strip t ∧ (strip t = t ↔ CommentFree t) := by
  have hfree := commentFree_strip t
  exact ⟨hfree, strip_eq_self hfree, fun h => h ▸ hfree, strip_eq_self⟩

/-- A mark within a string begins no comment. -/
example : strip "say(\"/* no\"); /* a\nb */ done();".toList =
    "say(\"/* no\");  \n done();".toList := by decide +kernel

end CommonHeaders.Comments
