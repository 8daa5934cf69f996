import CommonHeaders.Proofs.Brackets

/-! # Items between separators

A list is cut at the separators that stand outside all brackets. An item is not cut if it closes
what brackets it opens, of whatever kind, and has no separator outside of them; then items with a
separator between them are the parts into which the list is cut.

* `Balanced`: what may stand in the parentheses of a macro.
* `Whole`, `whole_of_kind`, `whole_group`: items that are not cut.
* `splitItems_join_whole`: the parts of a list are its items.
* `written?`: a list as it is written. -/

namespace CommonHeaders.Text

/-! ### The depth in brackets of any kind -/

/-- **The depth behind a text**, all kinds of brackets counted alike. There is none if the text
closes a bracket that is not open. -/
def level? (depth : Nat) : Text → Option Nat
  | [] => some depth
  | c :: r =>
    if isOpener c then level? (depth + 1) r
    else if isCloser c then if depth = 0 then none else level? (depth - 1) r
    else level? depth r

/-- **Balanced**: all brackets that are opened are closed, and so are the parentheses among
themselves. -/
def Balanced (t : Text) : Prop := level? 0 t = some 0 ∧ Encloses '(' ')' t

instance (t : Text) : Decidable (Balanced t) := inferInstanceAs (Decidable (_ ∧ _))

variable {sep : Char}

/-- Within brackets a text is not cut. -/
theorem splitAtDepth_inside {t : Text} {depth after : Nat} (h : level? depth t = some after)
    (rest : Text) :
    splitAtDepth sep (depth + 1) (t ++ rest) =
      (splitAtDepth sep (after + 1) rest).modifyHead (t ++ ·) := by
  induction t generalizing depth with
  | nil =>
    rw [← Option.some.inj h, List.nil_append]
    cases splitAtDepth sep (depth + 1) rest <;> rfl
  | cons c r ih =>
    rw [level?] at h
    rw [List.cons_append, splitAtDepth_cons]
    split
    · rename_i hopener
      rw [if_pos hopener] at h
      rw [ih h, List.modifyHead_modifyHead]
      rfl
    · rename_i hopener
      rw [if_neg hopener] at h
      split
      · rename_i hcloser
        rw [if_pos hcloser] at h
        cases depth with
        | zero => cases h
        | succ depth =>
          have hrest := ih h
          rw [Nat.add_sub_cancel] at hrest ⊢
          rw [hrest, List.modifyHead_modifyHead]
          rfl
      · rename_i hcloser
        rw [if_neg hcloser] at h
        have hinside : ¬ (c = sep ∧ depth + 1 = 0) := fun hc => Nat.succ_ne_zero depth hc.2
        rw [if_neg hinside, ih h, List.modifyHead_modifyHead]
        rfl

/-! ### Whole items -/

/-- **Whole**: an item that is not cut, whatever follows it. -/
def Whole (sep : Char) (t : Text) : Prop :=
  ∀ rest, splitAtDepth sep 0 (t ++ rest) = (splitAtDepth sep 0 rest).modifyHead (t ++ ·)

theorem whole_nil : Whole sep [] := fun rest => by
  rw [List.nil_append]
  cases splitAtDepth sep 0 rest <;> rfl

theorem Whole.append {a b : Text} (ha : Whole sep a) (hb : Whole sep b) : Whole sep (a ++ b) := by
  intro rest
  have hboth : (fun t : Text => a ++ (b ++ t)) = fun t => a ++ b ++ t :=
    funext fun t => (List.append_assoc a b t).symm
  rw [List.append_assoc, ha, hb, List.modifyHead_modifyHead, ← hboth]
  rfl

theorem mem_openers (c : Char) (h : isOpener c = true) : c ∈ ['(', '[', '\x7b'] := by
  simpa [isOpener, or_assoc] using h

theorem mem_closers (c : Char) (h : isCloser c = true) : c ∈ [')', ']', '\x7d'] := by
  simpa [isCloser, or_assoc] using h

/-- Characters of a kind without brackets and without the separator. -/
theorem whole_of_kind {p : Char → Bool} (hopeners : ['(', '[', '\x7b'].any p = false)
    (hclosers : [')', ']', '\x7d'].any p = false) (hsep : p sep = false) {t : Text}
    (h : ∀ c ∈ t, p c = true) : Whole sep t := by
  induction t with
  | nil => exact whole_nil
  | cons c r ih =>
    have hc := h c List.mem_cons_self
    have hopener : isOpener c = false := eq_false_of_kind mem_openers hopeners hc
    have hcloser : isCloser c = false := eq_false_of_kind mem_closers hclosers hc
    have hone : Whole sep [c] := fun rest => by
      rw [List.singleton_append, splitAtDepth_cons, hopener, hcloser, if_neg Bool.false_ne_true,
        if_neg Bool.false_ne_true, if_neg fun he => ne_of_kind hc hsep he.1]
      rfl
    exact hone.append (ih fun d hd => h d (List.mem_cons_of_mem c hd))

/-- A group in parentheses. -/
theorem whole_group {inner : Text} (h : level? 0 inner = some 0) :
    Whole sep ('(' :: (inner ++ [')'])) := by
  intro rest
  have hclose : splitAtDepth sep 1 (')' :: rest) =
      (splitAtDepth sep 0 rest).modifyHead (')' :: ·) := rfl
  have hinner : splitAtDepth sep 1 (inner ++ ')' :: rest) =
      (splitAtDepth sep 1 (')' :: rest)).modifyHead (inner ++ ·) := splitAtDepth_inside h _
  rw [hclose] at hinner
  have hopen : splitAtDepth sep 0 ('(' :: (inner ++ ')' :: rest)) =
      (splitAtDepth sep 1 (inner ++ ')' :: rest)).modifyHead ('(' :: ·) := rfl
  rw [List.cons_append, List.append_assoc, List.singleton_append, hopen, hinner,
    List.modifyHead_modifyHead, List.modifyHead_modifyHead]
  simp only [Function.comp_def, List.cons_append, List.append_assoc, List.nil_append]

/-- **The parts of a list are its items.** -/
theorem splitItems_join_whole (hopener : isOpener sep = false) (hcloser : isCloser sep = false)
    {first : Text} {rest : List Text} (h : ∀ t ∈ first :: rest, Whole sep t) :
    splitItems sep (join [sep] (first :: rest)) = first :: rest := by
  induction rest generalizing first with
  | nil =>
    have hfirst := h first List.mem_cons_self []
    rw [List.append_nil] at hfirst
    have hone : join [sep] [first] = first := by simp [join]
    rw [hone, splitItems, hfirst, splitAtDepth_nil, List.modifyHead_cons, List.append_nil]
  | cons next rest ih =>
    have hsplit : join [sep] (first :: next :: rest) =
        first ++ sep :: join [sep] (next :: rest) := rfl
    have hcut (t : Text) : splitAtDepth sep 0 (sep :: t) = [] :: splitAtDepth sep 0 t := by
      rw [splitAtDepth_cons, hopener, hcloser, if_neg Bool.false_ne_true, if_neg Bool.false_ne_true,
        if_pos ⟨rfl, rfl⟩]
    have hrest := ih fun t ht => h t (List.mem_cons_of_mem first ht)
    rw [splitItems] at hrest
    rw [hsplit, splitItems, h first List.mem_cons_self, hcut, hrest, List.modifyHead_cons,
      List.append_nil]

/-- **A list as it is written**, with the separator between its items. A list without items is left
out. -/
def written? (sep : Char) (items : List Text) : Option Text :=
  if items.isEmpty then none else some (join [sep] items)

end CommonHeaders.Text
