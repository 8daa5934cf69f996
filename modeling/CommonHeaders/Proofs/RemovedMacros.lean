import CommonHeaders.Attribute
import CommonHeaders.Proofs.Groups
import CommonHeaders.Proofs.Identifiers
import Mathlib.Data.List.Induction

/-! # What is left when macros are removed

Macros are removed with whole groups of arguments, so a text has as many parentheses too many, of
either kind, as before. Blanks at its end play no part.

* `remove_append`: removal at a name.
* `strip_trimEnd`: a text may be trimmed first.
* `count_strip`: the parentheses that are left over. -/

namespace CommonHeaders.Text

/-! ### Blanks at the end -/

theorem collapse_append_blanks (t : Text) {b : Text} (hb : ∀ c ∈ b, isBlank c = true) :
    collapse (t ++ b) = collapse t := by
  induction b using List.reverseRecOn with
  | nil => rw [List.append_nil]
  | append_singleton b c ih =>
    rw [collapse, ← List.append_assoc, blankWords_append_cons (hb c (by simp)), blankWords_nil,
      List.append_nil]
    exact ih fun d hd => hb d (List.mem_append_left _ hd)

theorem trimStart_append_blank {t : Text} {c : Char} (hc : isBlank c = true) :
    trimStart (t ++ [c]) = if trimStart t = [] then [] else trimStart t ++ [c] := by
  rw [trimStart, List.dropWhile_append]
  split
  · rename_i hnil
    have hnil : trimStart t = [] := List.isEmpty_iff.mp hnil
    rw [if_pos hnil, List.dropWhile_cons_of_pos hc, List.dropWhile_nil]
  · rename_i hne
    have hne : trimStart t ≠ [] := fun he => hne (List.isEmpty_iff.mpr he)
    rw [if_neg hne]
    rfl

/-- A group at the start of a text is not changed by a blank at the end. -/
theorem group?_append_blank (t : Text) {c : Char} (hc : isBlank c = true) :
    group? '(' ')' (t ++ [c]) =
      (group? '(' ')' t).map fun (inner, rest) => (inner, rest ++ [c]) := by
  have hiff {t inner rest : Text} : group? '(' ')' t = some (inner, rest) ↔
      t = '(' :: inner ++ ')' :: rest ∧ Encloses '(' ')' inner := group?_eq_some_iff (by decide)
  cases hgroup : group? '(' ')' t with
  | some found =>
    obtain ⟨inner, rest⟩ := found
    obtain ⟨rfl, hinner⟩ := hiff.mp hgroup
    exact hiff.mpr ⟨by simp, hinner⟩
  | none =>
    refine Option.eq_none_iff_forall_ne_some.mpr fun (inner, rest) hsome => ?_
    obtain ⟨htext, hinner⟩ := hiff.mp hsome
    rcases List.eq_nil_or_concat rest with rfl | ⟨rest, d, rfl⟩
    · have hlast := congrArg List.getLast? htext
      rw [List.getLast?_concat, List.getLast?_concat] at hlast
      rw [Option.some.inj hlast] at hc
      exact absurd hc (by decide)
    · rw [List.concat_eq_append, ← List.cons_append, ← List.append_assoc] at htext
      obtain ⟨htext, -⟩ := List.append_inj' htext rfl
      rw [hiff.mpr ⟨htext, hinner⟩] at hgroup
      cases hgroup

/-- Nothing but blanks in front of a group does not matter. -/
theorem group?_trimStart_append_blank (t : Text) {c : Char} (hc : isBlank c = true) :
    group? '(' ')' (trimStart (t ++ [c])) =
      (group? '(' ')' (trimStart t)).map fun (inner, rest) => (inner, rest ++ [c]) := by
  rw [trimStart_append_blank hc]
  split
  · rename_i hnil
    rw [hnil]
    rfl
  · exact group?_append_blank _ hc

theorem endsName_append_blank {t : Text} (h : EndsName t) {c : Char} (hc : isBlank c = true) :
    EndsName (t ++ [c]) := by
  cases t with
  | nil => exact endsName_cons (isIdentChar_of_isBlank hc)
  | cons d r => exact endsName_cons (h d rfl)

theorem count_collapse {c : Char} (hc : isBlank c = false) (t : Text) :
    (collapse t).count c = t.count c := by
  rw [List.count_eq_length_filter, List.count_eq_length_filter, filter_collapse]
  intro d hd
  refine beq_eq_false_iff_ne.mpr fun he => ?_
  rw [he, hc] at hd
  cases hd

theorem mem_collapse_iff {c : Char} (hc : isBlank c = false) {t : Text} :
    c ∈ collapse t ↔ c ∈ t := by
  rw [← List.count_pos_iff, count_collapse hc, List.count_pos_iff]

end CommonHeaders.Text

namespace CommonHeaders.Attribute

open Text

variable {which : Removal}

/-! ### Removal, name by name -/

theorem remove_nil : remove which [] = [] := by rw [remove]

theorem remove_cons {c : Char} (h : isIdentStart c = false) (r : Text) :
    remove which (c :: r) = c :: remove which r := by
  have hnone : identifier? (c :: r) = none := by rw [identifier?, if_neg (by simp [h])]
  rw [remove]
  split
  · rfl
  · rename_i hsome
    rw [hnone] at hsome
    cases hsome

/-- **Removal at a name**: a macro goes, with the group behind it if there is one. -/
theorem remove_append {name rest : Text} (hname : IsName name) (hrest : EndsName rest) :
    remove which (name ++ rest) =
      if isMacroName name then
        match group? '(' ')' (trimStart rest) with
        | some (_, after) => remove which after
        | none => (if which = .all then [] else name) ++ remove which rest
      else name ++ remove which rest := by
  have hread := identifier?_append_of_isName hname hrest
  cases htext : name ++ rest with
  | nil => exact absurd (List.append_eq_nil_iff.mp htext).1 hname.ne_nil
  | cons c r =>
    rw [htext] at hread
    rw [remove]
    split
    · rename_i hnone
      rw [hread] at hnone
      cases hnone
    · rename_i name' rest' hsome
      obtain ⟨rfl, rfl⟩ := Prod.mk.inj (Option.some.inj (hread.symm.trans hsome))
      split
      · split
        · rename_i hgroup
          rw [hgroup]
        · rename_i hgroup
          rw [hgroup]
          cases which <;> rfl
      · rfl

/-- A text that was read up to a name, by the name and what follows it. -/
theorem exists_of_identifier? {t name rest : Text} (h : identifier? t = some (name, rest)) :
    t = name ++ rest ∧ IsName name ∧ EndsName rest :=
  ⟨(identifier?_append h).symm, isName_of_identifier? h⟩

theorem remove_append_blank (t : Text) {c : Char} (hc : isBlank c = true) :
    remove which (t ++ [c]) = remove which t ++ [c] := by
  fun_induction remove which t with
  | case1 => rw [List.nil_append, remove_cons (isIdentStart_of_isBlank hc), remove_nil]
  | case2 d r hnone ih =>
    have hd := identifier?_eq_none_iff.mp hnone d r rfl
    rw [List.cons_append, remove_cons hd, ih]
    rfl
  | case3 d r name rest hread hcaps inner after hgroup ih =>
    obtain ⟨htext, hname, hends⟩ := exists_of_identifier? hread
    rw [htext, List.append_assoc, remove_append hname (endsName_append_blank hends hc),
      if_pos hcaps, group?_trimStart_append_blank rest hc, hgroup]
    exact ih
  | case4 d r name rest hread hcaps hgroup hwhich ih =>
    obtain ⟨htext, hname, hends⟩ := exists_of_identifier? hread
    rw [htext, List.append_assoc, remove_append hname (endsName_append_blank hends hc),
      if_pos hcaps, group?_trimStart_append_blank rest hc, hgroup]
    subst hwhich
    exact ih
  | case5 d r name rest hread hcaps hgroup hwhich ih =>
    obtain ⟨htext, hname, hends⟩ := exists_of_identifier? hread
    rw [htext, List.append_assoc, remove_append hname (endsName_append_blank hends hc),
      if_pos hcaps, group?_trimStart_append_blank rest hc, hgroup]
    subst hwhich
    exact (congrArg (name ++ ·) ih).trans (List.append_assoc ..).symm
  | case6 d r name rest hread hplain ih =>
    obtain ⟨htext, hname, hends⟩ := exists_of_identifier? hread
    rw [htext, List.append_assoc, remove_append hname (endsName_append_blank hends hc),
      if_neg hplain, ih, List.append_assoc]

theorem remove_append_blanks (t : Text) {b : Text} (hb : ∀ c ∈ b, isBlank c = true) :
    remove which (t ++ b) = remove which t ++ b := by
  induction b using List.reverseRecOn with
  | nil => rw [List.append_nil, List.append_nil]
  | append_singleton b c ih =>
    rw [← List.append_assoc, remove_append_blank _ (hb c (by simp)),
      ih fun d hd => hb d (List.mem_append_left _ hd), List.append_assoc]

/-- **A text may be trimmed first.** -/
theorem strip_trimEnd (t : Text) : strip which (trimEnd t) = strip which t := by
  obtain ⟨b, hb, hblank⟩ := exists_append_trimEnd t
  have h : strip which (trimEnd t ++ b) = strip which (trimEnd t) := by
    rw [strip, remove_append_blanks _ hblank, collapse_append_blanks _ hblank, strip]
  rw [← hb] at h
  exact h.symm

/-! ### Parentheses -/

theorem count_trimStart {c : Char} (hc : isBlank c = false) (t : Text) :
    (trimStart t).count c = t.count c := by
  obtain ⟨b, hb, ht⟩ := exists_blanks_trimStart t
  have hzero : b.count c = 0 := List.count_eq_zero.mpr fun h => ne_of_kind (hb c h) hc rfl
  conv_rhs => rw [ht, List.count_append, hzero, Nat.zero_add]

/-- A group opens as many parentheses as it closes. -/
theorem count_of_group? {t inner rest : Text} (h : group? '(' ')' t = some (inner, rest)) :
    rest.count ')' + t.count '(' = t.count ')' + rest.count '(' := by
  obtain ⟨rfl, hinner⟩ := (group?_eq_some_iff (by decide)).mp h
  have hcount := count_of_depthAfter? (by decide) hinner
  simp only [List.count_append, List.count_cons, List.cons_append, beq_self_eq_true, if_true,
    Char.reduceBEq, Bool.false_eq_true, if_false]
  omega

/-- **Removing macros adds nothing** and leaves what stays in its order. -/
theorem remove_sublist (t : Text) : (remove which t).Sublist t := by
  fun_induction remove which t with
  | case1 => exact List.Sublist.refl []
  | case2 c r hread ih => exact ih.cons_cons c
  | case3 c r name rest hread hcaps inner after hgroup ih =>
    obtain ⟨htext, -, -⟩ := exists_of_identifier? hread
    have hafter : after.Sublist rest := by
      have hsuffix : after <:+ trimStart rest := ⟨'(' :: inner ++ [')'], by
        rw [← group?_append hgroup, List.append_assoc]
        rfl⟩
      exact (hsuffix.trans (List.dropWhile_suffix isBlank)).sublist
    rw [htext]
    exact (ih.trans hafter).trans (List.sublist_append_right name rest)
  | case4 c r name rest hread hcaps hgroup hwhich ih =>
    obtain ⟨htext, -, -⟩ := exists_of_identifier? hread
    subst hwhich
    rw [htext]
    exact ih.trans (List.sublist_append_right name rest)
  | case5 c r name rest hread hcaps hgroup hwhich ih =>
    obtain ⟨htext, -, -⟩ := exists_of_identifier? hread
    subst hwhich
    rw [htext]
    exact ih.append_left name
  | case6 c r name rest hread hplain ih =>
    obtain ⟨htext, -, -⟩ := exists_of_identifier? hread
    rw [htext]
    exact ih.append_left name

/-- A character that is not blank stands in what is left only if it stood in the text. -/
theorem notMem_strip {c : Char} (hc : isBlank c = false) {t : Text} (h : c ∉ t) :
    c ∉ strip which t := by
  rw [strip, mem_collapse_iff hc]
  exact fun hmem => h ((remove_sublist t).subset hmem)

theorem count_of_isName {name : Text} (h : IsName name) :
    name.count '(' = 0 ∧ name.count ')' = 0 :=
  ⟨List.count_eq_zero.mpr fun hmem => ne_of_kind (h.chars _ hmem) (by decide) rfl,
    List.count_eq_zero.mpr fun hmem => ne_of_kind (h.chars _ hmem) (by decide) rfl⟩

theorem count_remove (t : Text) :
    (remove which t).count ')' + t.count '(' = t.count ')' + (remove which t).count '(' := by
  fun_induction remove which t with
  | case1 => rfl
  | case2 d r hread ih =>
    simp only [List.count_cons]
    omega
  | case3 d r name rest hread hcaps inner after hgroup ih =>
    obtain ⟨htext, hname, -⟩ := exists_of_identifier? hread
    have hcount := count_of_group? hgroup
    rw [count_trimStart (by decide), count_trimStart (by decide)] at hcount
    obtain ⟨hopen, hclose⟩ := count_of_isName hname
    rw [htext]
    simp only [List.count_append]
    omega
  | case4 d r name rest hread hcaps hgroup hwhich ih =>
    obtain ⟨htext, hname, -⟩ := exists_of_identifier? hread
    obtain ⟨hopen, hclose⟩ := count_of_isName hname
    subst hwhich
    rw [htext]
    simp only [List.count_append]
    omega
  | case5 d r name rest hread hcaps hgroup hwhich ih =>
    obtain ⟨htext, hname, -⟩ := exists_of_identifier? hread
    subst hwhich
    rw [htext]
    simp only [List.count_append]
    omega
  | case6 d r name rest hread hplain ih =>
    obtain ⟨htext, hname, -⟩ := exists_of_identifier? hread
    rw [htext]
    simp only [List.count_append]
    omega

/-- **The parentheses that are left over** are as many too many as before. -/
theorem count_strip (t : Text) :
    (strip which t).count ')' + t.count '(' = t.count ')' + (strip which t).count '(' := by
  rw [strip, count_collapse (by decide), count_collapse (by decide)]
  exact count_remove t

end CommonHeaders.Attribute
