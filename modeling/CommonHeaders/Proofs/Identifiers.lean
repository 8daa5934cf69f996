import CommonHeaders.Text.Identifier
import CommonHeaders.Proofs.CollapsedText
import CommonHeaders.Proofs.Words

/-! # Identifiers in a text

An identifier is read whole wherever a text goes on behind it with another character, and none of
its own characters is blank.

* `identifier?_append_of_isName`: an identifier is read up to its end.
* `isName_of_identifier?`: what was read is an identifier, and the text does not go on with it. -/

namespace CommonHeaders.Text

/-- **A name**: an identifier from its first character to its last. -/
def IsName (t : Text) : Prop := identifier? t = some (t, [])

instance (t : Text) : Decidable (IsName t) := inferInstanceAs (Decidable (_ = _))

/-- No identifier goes on in the text. -/
def EndsName (t : Text) : Prop := ∀ c ∈ t.head?, isIdentChar c = false

theorem endsName_nil : EndsName [] := fun _ h => by cases h

theorem endsName_cons {c : Char} {t : Text} (h : isIdentChar c = false) : EndsName (c :: t) :=
  fun _ hd => Option.some.inj hd ▸ h

theorem toNat_lt_of_isIdentChar {c : Char} (h : isIdentChar c = true) : c.toNat < 128 := by
  have hlast {low high : Char} (hhigh : high.toNat < 128)
      (hc : low.val ≤ c.val ∧ c.val ≤ high.val) : c.toNat < 128 :=
    Nat.lt_of_le_of_lt (UInt32.le_iff_toNat_le.mp hc.2) hhigh
  have hrange {low high : Char} (hhigh : high.toNat < 128)
      (hc : (decide (low.val ≤ c.val) && decide (c.val ≤ high.val)) = true) : c.toNat < 128 :=
    hlast hhigh (by simpa using hc)
  rcases (Bool.or_eq_true _ _).mp h with h | h
  · rcases (Bool.or_eq_true _ _).mp h with h | h
    · rcases (Bool.or_eq_true _ _).mp h with h | h
      · exact hlast (by decide) (of_decide_eq_true h)
      · exact hrange (by decide) h
    · exact hrange (by decide) h
  · rw [eq_of_beq h]
    decide

theorem isWordChar_of_isIdentChar {c : Char} (h : isIdentChar c = true) : isWordChar c = true := by
  rw [isWordChar, if_pos (toNat_lt_of_isIdentChar h)]
  exact h

theorem isBlank_of_isIdentChar {c : Char} (h : isIdentChar c = true) : isBlank c = false := by
  cases hc : isBlank c with
  | false => rfl
  | true =>
    have hword := isWordChar_of_isIdentChar h
    rw [isWordChar_of_isBlank hc] at hword
    cases hword

theorem isIdentChar_of_isBlank {c : Char} (h : isBlank c = true) : isIdentChar c = false := by
  cases hc : isIdentChar c with
  | false => rfl
  | true => exact absurd (h.symm.trans (isBlank_of_isIdentChar hc)) Bool.false_ne_true.symm

theorem isIdentStart_of_isBlank {c : Char} (h : isBlank c = true) : isIdentStart c = false := by
  cases hc : isIdentStart c with
  | false => rfl
  | true =>
    have hident := isIdentChar_of_isIdentStart hc
    rw [isIdentChar_of_isBlank h] at hident
    cases hident

/-- Blanks and an ending that goes on no identifier go on none. -/
theorem endsName_append {b t : Text} (hb : ∀ c ∈ b, isBlank c = true) (ht : EndsName t) :
    EndsName (b ++ t) := by
  cases b with
  | nil => exact ht
  | cons c r => exact endsName_cons (isIdentChar_of_isBlank (hb c List.mem_cons_self))

/-- A name, by its characters. -/
theorem isName_iff {t : Text} :
    IsName t ↔ ∃ c r, t = c :: r ∧ isIdentStart c = true ∧ ∀ d ∈ r, isIdentChar d = true := by
  cases t with
  | nil => simp [IsName, identifier?]
  | cons c r =>
    rw [IsName, identifier?]
    cases hc : isIdentStart c with
    | false =>
      simp only [Bool.false_eq_true, if_false, reduceCtorEq, false_iff]
      rintro ⟨d, r', h, hd, -⟩
      rw [← (List.cons.inj h).1, hc] at hd
      cases hd
    | true =>
      rw [if_pos rfl]
      constructor
      · intro h
        have htail : r.takeWhile isIdentChar = r :=
          (List.cons.inj (Prod.mk.inj (Option.some.inj h)).1).2
        exact ⟨c, r, rfl, hc, List.takeWhile_eq_self_iff.mp htail⟩
      · rintro ⟨d, r', h, -, hr⟩
        obtain ⟨rfl, rfl⟩ := List.cons.inj h
        rw [List.takeWhile_eq_self_iff.mpr hr, List.dropWhile_eq_nil_iff.mpr hr]

theorem IsName.ne_nil {t : Text} (h : IsName t) : t ≠ [] := by
  obtain ⟨c, r, rfl, -⟩ := isName_iff.mp h
  exact List.cons_ne_nil c r

theorem IsName.chars {t : Text} (h : IsName t) : ∀ c ∈ t, isIdentChar c = true := by
  obtain ⟨c, r, rfl, hc, hr⟩ := isName_iff.mp h
  intro d hd
  rcases List.mem_cons.mp hd with rfl | hd
  · exact isIdentChar_of_isIdentStart hc
  · exact hr d hd

theorem IsName.isWord {t : Text} (h : IsName t) : IsWord t :=
  ⟨h.ne_nil, fun c hc => isWordChar_of_isIdentChar (h.chars c hc)⟩

theorem IsName.isPiece {t : Text} (h : IsName t) : IsPiece t :=
  ⟨h.ne_nil, fun c hc => isBlank_of_isIdentChar (h.chars c hc)⟩

/-- A text that begins with a name has no blanks in front. -/
theorem IsName.trimStart_append {t : Text} (h : IsName t) (r : Text) :
    trimStart (t ++ r) = t ++ r := by
  refine trimStart_eq_self fun c hc => ?_
  rw [List.head?_append_of_ne_nil t h.ne_nil] at hc
  exact h.isPiece.chars c (List.mem_of_mem_head? hc)

/-- **A name is read up to its end.** -/
theorem identifier?_append_of_isName {name rest : Text} (h : IsName name) (hrest : EndsName rest) :
    identifier? (name ++ rest) = some (name, rest) := by
  obtain ⟨c, r, rfl, hc, hr⟩ := isName_iff.mp h
  have hstop : rest.takeWhile isIdentChar = [] ∧ rest.dropWhile isIdentChar = rest := by
    cases rest with
    | nil => exact ⟨rfl, rfl⟩
    | cons d rest =>
      have hd := hrest d rfl
      simp [hd]
  rw [List.cons_append, identifier?, if_pos hc, List.takeWhile_append_of_pos hr,
    List.dropWhile_append_of_pos hr, hstop.1, hstop.2, List.append_nil]

/-- **What is read is a name**, and it is all of it. -/
theorem isName_of_identifier? {t name rest : Text} (h : identifier? t = some (name, rest)) :
    IsName name ∧ EndsName rest := by
  cases t with
  | nil => cases h
  | cons c r =>
    rw [identifier?] at h
    split at h
    · rename_i hc
      obtain ⟨rfl, rfl⟩ := Prod.mk.inj (Option.some.inj h)
      refine ⟨isName_iff.mpr ⟨c, _, rfl, hc, fun d hd => List.mem_takeWhile_imp hd⟩, ?_⟩
      intro d hd
      have hne : r.dropWhile isIdentChar ≠ [] := fun he => by rw [he] at hd; cases hd
      have hhead := List.head_dropWhile_not isIdentChar hne
      rwa [List.head_of_mem_head? hd] at hhead
    · cases h

end CommonHeaders.Text
