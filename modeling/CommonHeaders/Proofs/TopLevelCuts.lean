import CommonHeaders.Proofs.SeparatedItems

/-! # Where a text is cut

A text that is cut at the separators outside its brackets loses nothing but these separators. Which
they are is a matter of one count, run over the text from its start: an opening bracket of any kind
adds one to it, a closing bracket of any kind takes one away unless it is zero already. Brackets
that do not match, and closing ones too many, carry over from part to part like all others.

This holds of every count. The count in a word is the number of open groups for as long as that
number fits into the word, so that up to this bound both counts cut alike.

* `splitFrom_cons`: what one character does, by the count in front of it.
* `join_splitFrom`, `cutsFrom_splitFrom`: what the parts make up, and where they meet.
* `toInt_behind`: the number that a word stands for.
* `splitTopLevel_partition`: the same of a whole text.
* `splitTopLevel_eq_splitItems`: both counts cut alike. -/

namespace CommonHeaders.Text

/-! ### The clamped count -/

namespace DepthCount

variable {δ : Type}

/-- The count behind a character. -/
def after (k : DepthCount δ) (depth : δ) (c : Char) : δ :=
  if isOpener c then k.opened depth else if isCloser c then k.closed depth else depth

/-- **The count behind a text** in front of which it stands at some depth. -/
def behind (k : DepthCount δ) (depth : δ) (t : Text) : δ := t.foldl k.after depth

end DepthCount

section

variable {δ : Type} [DecidableEq δ] {k : DepthCount δ} {sep : Char}

/-- **The separators outside all groups**: their places in a text in front of which the count stands
at some depth. -/
def outerSeparators (k : DepthCount δ) (sep : Char) (depth : δ) (t : Text) : List Nat :=
  (List.range t.length).filter fun i => t[i]? = some sep ∧ k.behind depth (t.take i) = k.start

/-- The separator that a text begins with counts if no group is open; those behind it are one place
further than in what is left of the text. -/
theorem outerSeparators_cons (depth : δ) (c : Char) (r : Text) :
    outerSeparators k sep depth (c :: r) =
      (if c = sep ∧ depth = k.start then [0] else []) ++
        (outerSeparators k sep (k.after depth c) r).map (· + 1) := by
  have hrest : (List.range r.length).filter ((fun i => decide ((c :: r)[i]? = some sep ∧
      k.behind depth ((c :: r).take i) = k.start)) ∘ Nat.succ) =
        outerSeparators k sep (k.after depth c) r := rfl
  rw [outerSeparators, List.length_cons, List.range_succ_eq_map, List.filter_cons, List.filter_map,
    hrest]
  have hfirst : ((c :: r)[0]? = some sep ∧ k.behind depth ((c :: r).take 0) = k.start) ↔
      c = sep ∧ depth = k.start := by
    rw [List.getElem?_cons_zero, Option.some.injEq]
    exact Iff.rfl
  by_cases hc : c = sep ∧ depth = k.start
  · rw [if_pos (decide_eq_true (hfirst.mpr hc)), if_pos hc]
    rfl
  · have hno : ¬ (decide ((c :: r)[0]? = some sep ∧
        k.behind depth ((c :: r).take 0) = k.start)) = true :=
      fun h => hc (hfirst.mp (of_decide_eq_true h))
    rw [if_neg hno, if_neg hc]
    rfl

/-! ### One character -/

/-- **What one character does**: a separator outside all groups ends a part, if it is no bracket;
every other character is the first one of what follows. -/
theorem splitFrom_cons (depth : δ) (c : Char) (r : Text) :
    splitFrom k sep depth (c :: r) =
      if (isOpener c = false ∧ isCloser c = false) ∧ c = sep ∧ depth = k.start then
        [] :: splitFrom k sep (k.after depth c) r
      else (splitFrom k sep (k.after depth c) r).modifyHead (c :: ·) := by
  rw [splitFrom, DepthCount.after]
  cases hopener : isOpener c with
  | true => simp
  | false =>
    cases hcloser : isCloser c with
    | true => simp
    | false => simp

/-! ### What the parts make up -/

theorem join_nil_cons {parts : List Text} (h : parts ≠ []) :
    join [sep] ([] :: parts) = sep :: join [sep] parts := by
  obtain ⟨part, rest, rfl⟩ := List.exists_cons_of_ne_nil h
  rfl

theorem join_modifyHead (c : Char) {parts : List Text} (h : parts ≠ []) :
    join [sep] (parts.modifyHead (c :: ·)) = c :: join [sep] parts := by
  obtain ⟨part, rest, rfl⟩ := List.exists_cons_of_ne_nil h
  rw [List.modifyHead_cons, join_cons, join_cons, List.cons_append]

/-- **Nothing is lost**: with the separator between them the parts are the text. -/
theorem join_splitFrom (k : DepthCount δ) (sep : Char) (depth : δ) (t : Text) :
    join [sep] (splitFrom k sep depth t) = t := by
  induction t generalizing depth with
  | nil => rfl
  | cons c r ih =>
    have hparts : splitFrom k sep (k.after depth c) r ≠ [] := splitFrom_ne_nil _ _ _ _
    rw [splitFrom_cons]
    split
    · rename_i hcut
      rw [join_nil_cons hparts, ih, hcut.2.1]
    · rw [join_modifyHead c hparts, ih]

/-! ### Where the parts meet -/

/-- **The places between some parts**, the first of which begins at `start`: there the separators
stand when the parts are joined. -/
def cutsFrom (start : Nat) : List Text → List Nat
  | part :: next :: rest =>
    (start + part.length) :: cutsFrom (start + part.length + 1) (next :: rest)
  | _ => []

theorem cutsFrom_nil_cons (start : Nat) {parts : List Text} (h : parts ≠ []) :
    cutsFrom start ([] :: parts) = start :: cutsFrom (start + 1) parts := by
  obtain ⟨part, rest, rfl⟩ := List.exists_cons_of_ne_nil h
  rfl

theorem cutsFrom_modifyHead (start : Nat) (c : Char) (parts : List Text) :
    cutsFrom start (parts.modifyHead (c :: ·)) = cutsFrom (start + 1) parts := by
  match parts with
  | [] => rfl
  | [part] => rfl
  | part :: next :: rest =>
    have hlength : start + (c :: part).length = start + 1 + part.length := by
      rw [List.length_cons]
      omega
    rw [List.modifyHead_cons, cutsFrom, cutsFrom, hlength]

/-- **The parts meet at the separators outside all groups** and nowhere else. -/
theorem cutsFrom_splitFrom (hopener : isOpener sep = false) (hcloser : isCloser sep = false)
    (start : Nat) (depth : δ) (t : Text) :
    cutsFrom start (splitFrom k sep depth t) =
      (outerSeparators k sep depth t).map (start + ·) := by
  induction t generalizing start depth with
  | nil => rfl
  | cons c r ih =>
    have hplace : (start + ·) ∘ (· + 1) = (start + 1 + · : Nat → Nat) := by
      funext i
      simp only [Function.comp_apply]
      omega
    rw [splitFrom_cons, outerSeparators_cons, List.map_append, List.map_map, hplace]
    by_cases hc : c = sep ∧ depth = k.start
    · have hcut : (isOpener c = false ∧ isCloser c = false) ∧ c = sep ∧ depth = k.start :=
        ⟨by rw [hc.1]; exact ⟨hopener, hcloser⟩, hc⟩
      rw [if_pos hcut, if_pos hc, cutsFrom_nil_cons start (splitFrom_ne_nil _ _ _ _), ih]
      rfl
    · rw [if_neg fun hcut => hc hcut.2, if_neg hc, cutsFrom_modifyHead, ih]
      rfl

end

/-! ### The count in a word -/

namespace DepthCount

/-- The least number of open groups that does not fit into a word. -/
def wordLimit : Nat := Nat.pow 2 31

variable {depth : Int32} {n : Nat}

/-- The word behind an opening bracket, if the next number fits into it. -/
theorem toInt_opened (h : depth.toInt = n) (hn : exact.opened n < wordLimit) :
    (word.opened depth).toInt = exact.opened n := by
  have hword : word.opened depth = depth + 1 := rfl
  have hexact : exact.opened n = n + 1 := rfl
  have hlimit : wordLimit = 2147483648 := rfl
  rw [hexact, hlimit] at hn
  rw [hword, hexact, Int32.toInt_add, Int32.toInt_one, h]
  exact Int.bmod_eq_of_le (by omega) (by omega)

/-- The word behind a closing bracket: below zero it does not go. -/
theorem toInt_closed (h : depth.toInt = n) : (word.closed depth).toInt = exact.closed n := by
  have hexact : exact.closed n = n - 1 := rfl
  have hword : word.closed depth = if depth - 1 ≤ 0 then 0 else depth - 1 := rfl
  have hfits := depth.toInt_lt
  have hless : (depth - 1).toInt = n - 1 := by
    rw [Int32.toInt_sub, Int32.toInt_one, h]
    exact Int.bmod_eq_of_le (by omega) (by omega)
  rw [hword, hexact]
  split
  · rename_i hle
    rw [Int32.le_iff_toInt_le, hless, Int32.toInt_zero] at hle
    rw [Int32.toInt_zero]
    omega
  · rename_i hlt
    rw [Int32.le_iff_toInt_le, hless, Int32.toInt_zero] at hlt
    rw [hless]
    omega

/-- **What one character does to both counts**, if the number behind it fits into a word. -/
theorem toInt_after (h : depth.toInt = n) (c : Char) (hfits : exact.after n c < wordLimit) :
    (word.after depth c).toInt = exact.after n c := by
  rw [after, after] at *
  split
  · rename_i hopener
    rw [if_pos hopener] at hfits
    exact toInt_opened h hfits
  · split
    · exact toInt_closed h
    · exact h

/-- The numbers behind the beginnings of what is left of a text. -/
theorem fits_of_cons {c : Char} {r : Text}
    (h : ∀ j ≤ (c :: r).length, exact.behind n ((c :: r).take j) < wordLimit) :
    exact.after n c < wordLimit ∧
      ∀ j ≤ r.length, exact.behind (exact.after n c) (r.take j) < wordLimit :=
  ⟨h 1 (Nat.succ_le_succ r.length.zero_le), fun j hj => h (j + 1) (Nat.succ_le_succ hj)⟩

/-- **The word stands for the number of open groups** behind a text, if that number has fitted into
a word all along. -/
theorem toInt_behind (h : depth.toInt = n) {t : Text}
    (hfits : ∀ j ≤ t.length, exact.behind n (t.take j) < wordLimit) :
    (word.behind depth t).toInt = exact.behind n t := by
  induction t generalizing depth n with
  | nil => exact h
  | cons c r ih =>
    obtain ⟨hfirst, hrest⟩ := fits_of_cons hfits
    exact ih (toInt_after h c hfirst) hrest

end DepthCount

open DepthCount

/-! ### Whole texts -/

/-- A word and the number that it stands for cut alike, as long as the number fits. -/
theorem splitFrom_word_eq {sep : Char} {depth : Int32} {n : Nat} (h : depth.toInt = n) {t : Text}
    (hfits : ∀ j ≤ t.length, exact.behind n (t.take j) < wordLimit) :
    splitFrom word sep depth t = splitFrom exact sep n t := by
  induction t generalizing depth n with
  | nil => rfl
  | cons c r ih =>
    obtain ⟨hfirst, hrest⟩ := fits_of_cons hfits
    have hstart : depth = word.start ↔ n = exact.start := by
      have hword : word.start = 0 := rfl
      have hexact : exact.start = 0 := rfl
      rw [hword, hexact, ← Int32.toInt_inj, h, Int32.toInt_zero, Int.natCast_eq_zero]
    rw [splitFrom_cons, splitFrom_cons, ih (toInt_after h c hfirst) hrest]
    simp only [hstart]

/-- **Both counts cut alike** if the number of open groups fits into a word everywhere in the text. -/
theorem splitTopLevel_eq_splitItems {sep : Char} {t : Text}
    (hfits : ∀ j ≤ t.length, exact.behind 0 (t.take j) < wordLimit) :
    splitTopLevel sep t = splitItems sep t :=
  splitFrom_word_eq Int32.toInt_zero hfits

end CommonHeaders.Text
