import CommonHeaders.Text.Recogniser
import CommonHeaders.Proofs.CollapsedText
import CommonHeaders.Proofs.Words

/-! # Shapes written out

What a recogniser reads is a text of its shape, and every text of its shape is read, whatever stands
behind it. A search finds nothing exactly if nothing is recognised at any place.

* `exists_of_word?`, `word?_append`: a word.
* `char?_eq_some_iff`, `exists_of_char?`, `char?_append`: a character, without and with blanks in
  front; `exists_of_spacedChar?`, `spacedChar?_append`: with blanks on either side.
* `searchFrom_eq_none_iff`, `search_eq_none_iff`: a search that finds nothing;
  `search_eq_none_of_keyword`: one that nothing but a keyword begins. -/

namespace CommonHeaders.Text

/-! ### Pieces of a shape -/

theorem trimStart_blanks_append {b : Text} (hb : ∀ c ∈ b, isBlank c = true) (t : Text) :
    trimStart (b ++ t) = trimStart t := List.dropWhile_append_of_pos hb

theorem trimStart_blanks_cons {b : Text} (hb : ∀ c ∈ b, isBlank c = true) {c : Char}
    (hc : isBlank c = false) (t : Text) : trimStart (b ++ c :: t) = c :: t := by
  rw [trimStart_blanks_append hb]
  exact trimStart_eq_self fun d hd => Option.some.inj hd ▸ hc

/-- A word is a piece: no word character is blank. -/
theorem IsWord.isPiece {w : Text} (hw : IsWord w) : IsPiece w := by
  refine ⟨hw.ne_nil, fun c hc => ?_⟩
  cases hblank : isBlank c with
  | false => rfl
  | true =>
    have hword := hw.chars c hc
    rw [isWordChar_of_isBlank hblank] at hword
    cases hword

theorem IsWord.trimStart_append {w : Text} (hw : IsWord w) (t : Text) :
    trimStart (w ++ t) = w ++ t := by
  refine trimStart_eq_self fun c hc => ?_
  rw [List.head?_append_of_ne_nil w hw.ne_nil] at hc
  exact hw.isPiece.chars c (List.mem_of_mem_head? hc)

theorem exists_of_word? {t w rest : Text} (h : word? t = some (w, rest)) :
    t = w ++ rest ∧ IsWord w := by
  refine ⟨?_, isWord_of_word? h⟩
  unfold word? at h
  split at h
  · cases h
  · obtain ⟨rfl, rfl⟩ := Prod.mk.inj (Option.some.inj h)
    exact List.takeWhile_append_dropWhile.symm

/-- Word characters are read up to where no word goes on. -/
theorem span_isWordChar_append {w rest : Text} (hw : ∀ c ∈ w, isWordChar c = true)
    (hrest : EndsWord rest) :
    (w ++ rest).takeWhile isWordChar = w ∧ (w ++ rest).dropWhile isWordChar = rest := by
  have hstop : rest.takeWhile isWordChar = [] ∧ rest.dropWhile isWordChar = rest := by
    cases rest with
    | nil => exact ⟨rfl, rfl⟩
    | cons c r =>
      have hc := hrest c rfl
      simp [hc]
  rw [List.takeWhile_append_of_pos hw, List.dropWhile_append_of_pos hw, hstop.1, hstop.2,
    List.append_nil]
  exact ⟨rfl, rfl⟩

theorem word?_append {w rest : Text} (hw : IsWord w) (hrest : EndsWord rest) :
    word? (w ++ rest) = some (w, rest) := by
  obtain ⟨htake, hdrop⟩ := span_isWordChar_append hw.chars hrest
  rw [word?, htake, hdrop, if_neg (by simpa using hw.ne_nil)]

theorem char?_eq_some_iff {c : Char} {t rest : Text} :
    char? c t = some rest ↔ t = c :: rest := by
  cases t with
  | nil => simp [char?]
  | cons d r => simp [char?]

theorem exists_of_char? {c : Char} {t rest : Text} (h : char? c (trimStart t) = some rest) :
    ∃ b, (∀ d ∈ b, isBlank d = true) ∧ t = b ++ c :: rest := by
  obtain ⟨b, hb, ht⟩ := exists_blanks_trimStart t
  rw [char?_eq_some_iff.mp h] at ht
  exact ⟨b, hb, ht⟩

theorem char?_append {c : Char} (hc : isBlank c = false) {b : Text}
    (hb : ∀ d ∈ b, isBlank d = true) (rest : Text) :
    char? c (trimStart (b ++ c :: rest)) = some rest := by
  rw [trimStart_blanks_cons hb hc, char?, if_pos rfl]

theorem exists_of_spacedChar? {c : Char} {t rest : Text} (h : spacedChar? c t = some rest) :
    ∃ b b', (∀ d ∈ b, isBlank d = true) ∧ (∀ d ∈ b', isBlank d = true) ∧
      t = b ++ c :: (b' ++ rest) := by
  obtain ⟨r, hr, rfl⟩ := Option.map_eq_some_iff.mp h
  obtain ⟨b, hb, rfl⟩ := exists_of_char? hr
  obtain ⟨b', hb', hsplit⟩ := exists_blanks_trimStart r
  exact ⟨b, b', hb, hb', by rw [← hsplit]⟩

theorem spacedChar?_append {c : Char} (hc : isBlank c = false) {b b' : Text}
    (hb : ∀ d ∈ b, isBlank d = true) (hb' : ∀ d ∈ b', isBlank d = true) (rest : Text) :
    spacedChar? c (b ++ c :: (b' ++ rest)) = some (trimStart rest) := by
  rw [spacedChar?, char?_append hc hb, Option.map_some, trimStart_blanks_append hb']

theorem endsWord_blanks_cons {b : Text} (hb : ∀ c ∈ b, isBlank c = true) {c : Char}
    (hc : isWordChar c = false) (t : Text) : EndsWord (b ++ c :: t) :=
  endsWord_append hb (endsWord_cons hc)

/-! ### Searching -/

theorem search_of_some {α : Type} {recognise : Text → Option α} {t : Text} {a : α}
    (h : recognise t = some a) : search recognise t = some ([], a) := by
  cases t with
  | nil => rw [search, searchFrom, h]; rfl
  | cons c r => rw [search, searchFrom, h]

/-- Nothing is found exactly if nothing is recognised at any place. -/
theorem searchFrom_eq_none_iff {α : Type} {recognise : Option Char → Text → Option α}
    {before : Option Char} {t : Text} :
    searchFrom recognise before t = none ↔
      ∀ a b, t = a ++ b → recognise (a.getLast?.or before) b = none := by
  induction t generalizing before with
  | nil =>
    rw [searchFrom, Option.map_eq_none_iff]
    constructor
    · rintro h a b hab
      obtain ⟨rfl, rfl⟩ := List.append_eq_nil_iff.mp hab.symm
      exact h
    · exact fun h => h [] [] rfl
  | cons c r ih =>
    -- what stands in front of a place behind the first character
    have hlast (a : Text) : (c :: a).getLast?.or before = a.getLast?.or (some c) := by
      rw [List.getLast?_cons]
      cases a.getLast? <;> rfl
    rw [searchFrom]
    split
    · rename_i found hfound
      refine iff_of_false (by simp) fun h => ?_
      have hnone := h [] (c :: r) rfl
      rw [List.getLast?_nil, Option.none_or, hfound] at hnone
      cases hnone
    · rename_i hnone
      rw [Option.map_eq_none_iff, ih]
      constructor
      · intro h a b hab
        cases a with
        | nil =>
          have hab : c :: r = b := hab
          rw [← hab]
          exact hnone
        | cons d a =>
          obtain ⟨rfl, hrest⟩ := List.cons.inj hab
          rw [hlast]
          exact h a b hrest
      · intro h a b hab
        rw [← hlast]
        exact h (c :: a) b (by rw [hab, List.cons_append])

theorem search_eq_none_iff {α : Type} {recognise : Text → Option α} {t : Text} :
    search recognise t = none ↔ ∀ a b, t = a ++ b → recognise b = none := searchFrom_eq_none_iff

/-- What begins with a keyword is found at the start of a text or where the keyword is. -/
theorem search_eq_none_of_keyword {α : Type} {recognise : Text → Option α} {keyword r : Text}
    {c : Char} (hkeyword : ∀ t a, recognise t = some a → keyword <+: t)
    (hfirst : recognise (c :: r) = none) (hr : ¬ keyword <:+: r) :
    search recognise (c :: r) = none := by
  refine search_eq_none_iff.mpr fun a b hab => ?_
  cases a with
  | nil =>
    have hab : c :: r = b := hab
    rwa [← hab]
  | cons d a =>
    obtain ⟨-, rfl⟩ := List.cons.inj hab
    refine Option.eq_none_iff_forall_ne_some.mpr fun found hfound => hr ?_
    exact (hkeyword b found hfound).isInfix.trans (List.suffix_append a b).isInfix

end CommonHeaders.Text
