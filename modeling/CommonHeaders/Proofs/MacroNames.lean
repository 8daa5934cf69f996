import CommonHeaders.Proofs.RemovedMacros

/-! # Texts without macros

The identifiers of a text are read from the left, each as long as it goes; a digit or a letter that
is not ASCII begins none and stands for itself. Removing macros takes their names out of this list
and brings no new one into it, although what stood on either side of a macro and its arguments comes
together: in front of an identifier stands a character that is in none. A text without macros is
only collapsed.

* `identifiers_append_cons`: a character that is in no identifier keeps those around it apart.
* `identifiers_collapse`, `identifiers_trimEnd`: blanks play no part.
* `mem_identifiers_strip`: what is left when macros are removed.
* `strip_of_noMacros`: a text without macros.
* `strip_all_stable`: removal is complete and stable. -/

namespace CommonHeaders.Text

/-- **The identifiers of a text**, read from the left. -/
def identifiers : Text → List Text
  | [] => []
  | c :: r =>
    match _h : identifier? (c :: r) with
    | none => identifiers r
    | some (name, rest) => name :: identifiers rest
termination_by t => t.length
decreasing_by
  · simp
  · exact identifier?_rest_lt _h

theorem identifiers_nil : identifiers [] = [] := by rw [identifiers]

theorem identifiers_cons {c : Char} (h : isIdentStart c = false) (r : Text) :
    identifiers (c :: r) = identifiers r := by
  have hnone : identifier? (c :: r) = none := by rw [identifier?, if_neg (by simp [h])]
  rw [identifiers]
  split
  · rfl
  · rename_i hsome
    rw [hnone] at hsome
    cases hsome

/-- An identifier that is read up to its end is the first one. -/
theorem identifiers_append {name rest : Text} (hname : IsName name) (hrest : EndsName rest) :
    identifiers (name ++ rest) = name :: identifiers rest := by
  have hread := identifier?_append_of_isName hname hrest
  cases htext : name ++ rest with
  | nil => exact absurd (List.append_eq_nil_iff.mp htext).1 hname.ne_nil
  | cons c r =>
    rw [htext] at hread
    rw [identifiers]
    split
    · rename_i hnone
      rw [hread] at hnone
      cases hnone
    · rename_i name' rest' hsome
      obtain ⟨rfl, rfl⟩ := Prod.mk.inj (Option.some.inj (hread.symm.trans hsome))
      rfl

/-- **A text is read identifier by identifier**: it is empty, begins with a character that begins no
identifier, or with an identifier that is read up to its end. -/
theorem name_induction {P : Text → Prop} (nil : P [])
    (other : ∀ c t, isIdentStart c = false → P t → P (c :: t))
    (name : ∀ n t, IsName n → EndsName t → P t → P (n ++ t)) (t : Text) : P t := by
  fun_induction identifiers t with
  | case1 => exact nil
  | case2 c r hread ih => exact other c r (identifier?_eq_none_iff.mp hread c r rfl) ih
  | case3 c r n rest hread ih =>
    obtain ⟨hname, hrest⟩ := isName_of_identifier? hread
    rw [← identifier?_append hread]
    exact name n rest hname hrest ih

theorem isIdentStart_of_not_isIdentChar {c : Char} (h : isIdentChar c = false) :
    isIdentStart c = false := by
  cases hc : isIdentStart c with
  | false => rfl
  | true =>
    rw [isIdentChar_of_isIdentStart hc] at h
    cases h

/-- **A character that is in no identifier** keeps those on either side of it apart. -/
theorem identifiers_append_cons {c : Char} (hc : isIdentChar c = false) (a b : Text) :
    identifiers (a ++ c :: b) = identifiers a ++ identifiers b := by
  induction a using name_induction with
  | nil =>
    rw [List.nil_append, identifiers_cons (isIdentStart_of_not_isIdentChar hc), identifiers_nil]
    rfl
  | other d t hd ih => rw [List.cons_append, identifiers_cons hd, identifiers_cons hd, ih]
  | name n t hn ht ih =>
    have hends : EndsName (t ++ c :: b) := by
      cases t with
      | nil => exact endsName_cons hc
      | cons d t => exact endsName_cons (ht d rfl)
    rw [List.append_assoc, identifiers_append hn hends, identifiers_append hn ht, ih]
    rfl

theorem identifiers_cons_other {c : Char} (hc : isIdentChar c = false) (b : Text) :
    identifiers (c :: b) = identifiers b :=
  identifiers_cons (isIdentStart_of_not_isIdentChar hc) b

theorem identifiers_concat {c : Char} (hc : isIdentChar c = false) (a : Text) :
    identifiers (a ++ [c]) = identifiers a := by
  rw [identifiers_append_cons hc, identifiers_nil, List.append_nil]

/-- Characters that are in no identifier do not count at the end. -/
theorem identifiers_append_others {b : Text} (hb : ∀ c ∈ b, isIdentChar c = false) (a : Text) :
    identifiers (a ++ b) = identifiers a := by
  induction b using List.reverseRecOn with
  | nil => rw [List.append_nil]
  | append_singleton b c ih =>
    rw [← List.append_assoc, identifiers_concat (hb c (by simp)),
      ih fun d hd => hb d (List.mem_append_left _ hd)]

/-- Nor do they count in front. -/
theorem identifiers_others_append {b : Text} (hb : ∀ c ∈ b, isIdentChar c = false) (t : Text) :
    identifiers (b ++ t) = identifiers t := by
  induction b with
  | nil => rfl
  | cons c b ih =>
    rw [List.cons_append, identifiers_cons_other (hb c List.mem_cons_self),
      ih fun d hd => hb d (List.mem_cons_of_mem c hd)]

theorem identifiers_of_others {b : Text} (hb : ∀ c ∈ b, isIdentChar c = false) :
    identifiers b = [] := by
  have h := identifiers_others_append hb []
  rwa [List.append_nil, identifiers_nil] at h

theorem identifiers_trimStart (t : Text) : identifiers (trimStart t) = identifiers t := by
  obtain ⟨b, hb, ht⟩ := exists_blanks_trimStart t
  have h := identifiers_others_append (fun c hc => isIdentChar_of_isBlank (hb c hc)) (trimStart t)
  rw [← ht] at h
  exact h.symm

theorem identifiers_trimEnd (t : Text) : identifiers (trimEnd t) = identifiers t := by
  obtain ⟨b, hb, hblank⟩ := exists_append_trimEnd t
  have h := identifiers_append_others (fun c hc => isIdentChar_of_isBlank (hblank c hc)) (trimEnd t)
  rw [← hb] at h
  exact h.symm

theorem identifiers_join (ws : List Text) : identifiers (join [' '] ws) = ws.flatMap identifiers := by
  induction ws with
  | nil => exact identifiers_nil
  | cons w rest ih =>
    cases rest with
    | nil => simp [join]
    | cons v rest =>
      rw [join_cons_cons, identifiers_append_cons (by decide), ih]
      rfl

/-- The identifiers of a text are those of its pieces. -/
theorem flatMap_identifiers_blankWords (t : Text) :
    (blankWords t).flatMap identifiers = identifiers t := by
  have hsingle {w : Text} (hw : ∀ c ∈ w, isBlank c = false) :
      (blankWords w).flatMap identifiers = identifiers w := by
    rw [blankWords_of_no_blank hw]
    cases w with
    | nil => exact identifiers_nil.symm
    | cons c r => simp
  induction t using piece_induction with
  | hlast w hw => exact hsingle hw
  | hnext w c r hw hc ih =>
    rw [blankWords_append_cons hc, List.flatMap_append, hsingle hw, ih,
      identifiers_append_cons (isIdentChar_of_isBlank hc)]

/-- **Blanks play no part.** -/
theorem identifiers_collapse (t : Text) : identifiers (collapse t) = identifiers t := by
  rw [collapse, identifiers_join, flatMap_identifiers_blankWords]

end CommonHeaders.Text

namespace CommonHeaders.Attribute

open Text

/-- **No identifier of the text is a macro.** -/
def NoMacros (t : Text) : Prop := ∀ n ∈ identifiers t, isMacroName n = false

theorem endsName_remove {t : Text} (h : EndsName t) {which : Removal} :
    EndsName (remove which t) := by
  cases t with
  | nil =>
    rw [remove_nil]
    exact endsName_nil
  | cons c r =>
    have hc : isIdentChar c = false := h c rfl
    rw [remove_cons (isIdentStart_of_not_isIdentChar hc)]
    exact endsName_cons hc

/-- What stands behind a group has only identifiers that the text has. -/
theorem identifiers_of_group? {t inner rest : Text} (h : group? '(' ')' t = some (inner, rest)) :
    identifiers t = identifiers inner ++ identifiers rest := by
  rw [← group?_append h, List.cons_append, identifiers_cons_other (by decide),
    identifiers_append_cons (by decide)]

/-- **What is left when macros are removed**: identifiers of the text that are no macros. -/
theorem mem_identifiers_remove {t n : Text} (h : n ∈ identifiers (remove .all t)) :
    n ∈ identifiers t ∧ isMacroName n = false := by
  generalize hwhich : Removal.all = which at h
  fun_induction remove which t with
  | case1 =>
    rw [identifiers_nil] at h
    cases h
  | case2 c r hread ih =>
    have hc := identifier?_eq_none_iff.mp hread c r rfl
    rw [identifiers_cons hc] at h ⊢
    exact ih h
  | case3 c r name rest hread hcaps inner after hgroup ih =>
    obtain ⟨htext, hname, hends⟩ := exists_of_identifier? hread
    obtain ⟨hmem, hplain⟩ := ih h
    have hrest := identifiers_of_group? hgroup
    rw [identifiers_trimStart] at hrest
    refine ⟨?_, hplain⟩
    rw [htext, identifiers_append hname hends, hrest]
    exact List.mem_cons_of_mem _ (List.mem_append_right _ hmem)
  | case4 c r name rest hread hcaps hgroup hall ih =>
    subst hall
    obtain ⟨htext, hname, hends⟩ := exists_of_identifier? hread
    obtain ⟨hmem, hplain⟩ := ih h
    refine ⟨?_, hplain⟩
    rw [htext, identifiers_append hname hends]
    exact List.mem_cons_of_mem _ hmem
  | case5 c r name rest hread hcaps hgroup hcalls ih =>
    rw [← hwhich] at hcalls
    cases hcalls
  | case6 c r name rest hread hplain ih =>
    obtain ⟨htext, hname, hends⟩ := exists_of_identifier? hread
    rw [identifiers_append hname (endsName_remove hends)] at h
    rw [htext, identifiers_append hname hends]
    rcases List.mem_cons.mp h with rfl | h
    · exact ⟨List.mem_cons_self, by simpa using hplain⟩
    · obtain ⟨hmem, hplain'⟩ := ih h
      exact ⟨List.mem_cons_of_mem _ hmem, hplain'⟩

/-- The same of a text that is collapsed besides. -/
theorem mem_identifiers_strip {t n : Text} (h : n ∈ identifiers (strip .all t)) :
    n ∈ identifiers t ∧ isMacroName n = false := by
  rw [strip, identifiers_collapse] at h
  exact mem_identifiers_remove h

theorem noMacros_strip (t : Text) : NoMacros (strip .all t) := fun _ h =>
  (mem_identifiers_strip h).2

/-- **A text without macros** keeps everything, -/
theorem remove_of_noMacros {t : Text} (h : NoMacros t) (which : Removal) : remove which t = t := by
  induction t using name_induction with
  | nil => exact remove_nil
  | other c r hc ih =>
    rw [NoMacros, identifiers_cons hc] at h
    rw [remove_cons hc, ih h]
  | name n r hn hr ih =>
    rw [NoMacros, identifiers_append hn hr] at h
    have hplain := h n List.mem_cons_self
    rw [remove_append hn hr, hplain, if_neg Bool.false_ne_true,
      ih fun m hm => h m (List.mem_cons_of_mem n hm)]

/-- and is only collapsed. -/
theorem strip_of_noMacros {t : Text} (h : NoMacros t) (which : Removal) :
    strip which t = collapse t := by rw [strip, remove_of_noMacros h]

/-! ### Complete removal -/

/-- **In front of the first macro** everything stays, an identifier that the text might go on with
aside. -/
theorem remove_append_of_noMacros {a : Text} (h : NoMacros a)
    (hend : ∀ c ∈ a.getLast?, isIdentChar c = false) (which : Removal) (t : Text) :
    remove which (a ++ t) = a ++ remove which t := by
  induction a using name_induction with
  | nil => rfl
  | other c r hc ih =>
    rw [NoMacros, identifiers_cons hc] at h
    have hlast : ∀ d ∈ r.getLast?, isIdentChar d = false := by
      intro d hd
      have hr : r ≠ [] := fun he => by rw [he] at hd; cases hd
      exact hend d (by rwa [List.getLast?_cons_of_ne_nil hr])
    rw [List.cons_append, remove_cons hc, ih h hlast]
    rfl
  | name n r hn hr ih =>
    rw [NoMacros, identifiers_append hn hr] at h
    have hplain := h n List.mem_cons_self
    -- the identifier has an end within the text, for its own last character may not be the last one
    have hne : r ≠ [] := by
      rintro rfl
      have hchar := hn.chars (n.getLast hn.ne_nil) (List.getLast_mem hn.ne_nil)
      rw [List.append_nil, List.getLast?_eq_some_getLast hn.ne_nil] at hend
      rw [hend (n.getLast hn.ne_nil) rfl] at hchar
      cases hchar
    have hends : EndsName (r ++ t) := by
      intro c hc
      rw [List.head?_append_of_ne_nil r hne] at hc
      exact hr c hc
    have hlast : ∀ d ∈ r.getLast?, isIdentChar d = false := by
      intro d hd
      exact hend d (by rwa [List.getLast?_append_of_ne_nil n hne])
    rw [List.append_assoc, remove_append hn hends, hplain, if_neg Bool.false_ne_true,
      ih (fun m hm => h m (List.mem_cons_of_mem n hm)) hlast, List.append_assoc]

/-- What stands behind the arguments of a macro, if it has any. -/
def behindArguments (t : Text) : Text :=
  match group? '(' ')' (trimStart t) with
  | some (_, after) => after
  | none => t

/-- A macro is removed with its arguments. -/
theorem remove_macro {name rest : Text} (hname : IsName name) (hrest : EndsName rest)
    (hcaps : isMacroName name = true) :
    remove .all (name ++ rest) = remove .all (behindArguments rest) := by
  rw [remove_append hname hrest, if_pos hcaps, behindArguments]
  cases group? '(' ')' (trimStart rest) <;> rfl

/-- **Removal is complete and stable.** No identifier that is left is a macro, removing macros once
more changes nothing, and of a text without macros only the blanks are collapsed. In every other
text the first macro goes with its arguments, and what stands in front of it stays. -/
theorem strip_all_stable (t : Text) :
    NoMacros (strip .all t) ∧ strip .all (strip .all t) = strip .all t ∧
      (NoMacros t → strip .all t = collapse t) ∧
      ∀ a name rest, t = a ++ (name ++ rest) → NoMacros a →
        (∀ c ∈ a.getLast?, isIdentChar c = false) → IsName name → isMacroName name = true →
        EndsName rest → strip .all t = collapse (a ++ remove .all (behindArguments rest)) := by
  refine ⟨noMacros_strip t, ?_, fun h => strip_of_noMacros h .all, ?_⟩
  · have hagain : strip .all (strip .all t) = collapse (strip .all t) :=
      strip_of_noMacros (noMacros_strip t) .all
    rw [hagain]
    exact collapse_collapse (remove .all t)
  · rintro a name rest rfl ha hend hname hcaps hrest
    rw [strip, remove_append_of_noMacros ha hend, remove_macro hname hrest hcaps]

theorem strip_all_stable_adjacent :
    strip .all "é9 NS_A (1)UI_B(x  y".toList = "é9 (x y".toList ∧
      NoMacros "é9 (x y".toList ∧ strip .all "é9 (x y".toList = "é9 (x y".toList ∧
      NoMacros "é9 ".toList ∧ isMacroName "NS_A".toList = true ∧
      strip .all "é9 NS_A (1)UI_B(x  y".toList =
        collapse ("é9 ".toList ++ remove .all "UI_B(x  y".toList) := by
  have hleft : strip .all "é9 NS_A (1)UI_B(x  y".toList = "é9 (x y".toList := by decide +kernel
  obtain ⟨hnone, hagain, -, hfirst⟩ := strip_all_stable "é9 NS_A (1)UI_B(x  y".toList
  rw [hleft] at hnone hagain
  have hfront : NoMacros "é9 ".toList := by
    have hidentifiers : identifiers "é9 ".toList = [] := by decide +kernel
    rw [NoMacros, hidentifiers]
    exact fun _ h => by cases h
  have hend : ∀ c ∈ "é9 ".toList.getLast?, isIdentChar c = false := by
    intro c hc
    rw [← Option.some.inj hc]
    decide
  have hbehind : behindArguments " (1)UI_B(x  y".toList = "UI_B(x  y".toList := by decide +kernel
  have hcaps := hfirst "é9 ".toList "NS_A".toList " (1)UI_B(x  y".toList (by decide) hfront hend
    (by decide) (by decide) (endsName_cons (by decide))
  rw [hbehind] at hcaps
  exact ⟨hleft, hnone, hagain, hfront, by decide, hcaps⟩

end CommonHeaders.Attribute
