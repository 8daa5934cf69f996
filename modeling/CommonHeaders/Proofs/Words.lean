import CommonHeaders.Naming
import CommonHeaders.Text.Recogniser
import Mathlib.Data.List.TakeWhile

/-! # The words of a text

A text is cut into its words and the characters between them. Read from the left, it is empty, or
begins with a character that is in no word, or with a word that ends where the text ends or where
the next character is in no word; whatever is said of words is proved along this cut
(`word_induction`). Replacing words by words replaces nothing else and joins no two words.

* `words_append`: a word in front of a text that does not go on with it.
* `words_mapWords`: the words after replacing are the replaced words.
* `mapWords_congr`: only the words that occur matter.
* `isWord_toUnified`: the common name of a word is a word. -/

namespace CommonHeaders.Text

/-- **A word**: word characters and nothing else, at least one. -/
structure IsWord (t : Text) : Prop where
  ne_nil : t ≠ []
  chars : ∀ c ∈ t, isWordChar c = true

theorem isWord_of_all {t : Text} (hne : t ≠ []) (h : t.all isWordChar = true) : IsWord t :=
  ⟨hne, List.all_eq_true.mp h⟩

/-- No word goes on into the text. -/
def EndsWord (t : Text) : Prop := ∀ c ∈ t.head?, isWordChar c = false

/-- The run of a chunk that is a word. -/
def Chunk.run? : Chunk → Option Text
  | .word run => some run
  | .other _ => none

/-- **The words of a text**, in order. -/
def words (t : Text) : List Text := (chunks t).filterMap Chunk.run?

/-! ### Kinds of characters -/

/-- A character of a kind is none that is not of that kind. -/
theorem ne_of_kind {p : Char → Bool} {c d : Char} (hc : p c = true) (hd : p d = false) : c ≠ d :=
  fun he => Bool.false_ne_true (hd.symm.trans (he ▸ hc))

/-- A character of a kind is of no kind whose characters are all listed and not of the first. -/
theorem eq_false_of_kind {p q : Char → Bool} {l : List Char} (hq : ∀ c, q c = true → c ∈ l)
    (hp : l.any p = false) {c : Char} (hc : p c = true) : q c = false := by
  cases h : q c with
  | false => rfl
  | true => exact absurd hc (List.any_eq_false.mp hp c (hq c h))

/-! ### Characters in no word -/

theorem endsWord_nil : EndsWord [] := fun _ h => by simp at h

theorem endsWord_cons {c : Char} {t : Text} (h : isWordChar c = false) : EndsWord (c :: t) :=
  fun d hd => by
    have hdc : c = d := Option.mem_some_iff.mp hd
    exact hdc ▸ h

/-- The code points of the blank characters. -/
def blankCodes : List Nat :=
  List.range' 9 5 ++ List.range' 0x2000 11 ++
    [0x20, 0x85, 0xA0, 0x1680, 0x2028, 0x2029, 0x202F, 0x205F, 0x3000]

theorem mem_blankCodes {c : Char} (h : isBlank c = true) : c.toNat ∈ blankCodes := by
  simp only [isBlank, Bool.or_eq_true, Bool.and_eq_true, decide_eq_true_eq, beq_iff_eq,
    or_assoc] at h
  rcases h with ⟨hlow, hhigh⟩ | h | h | h | h | ⟨hlow, hhigh⟩ | h | h | h | h | h
  case inl =>
    have hrange : c.toNat ∈ List.range' 9 5 := List.mem_range'_1.mpr ⟨hlow, by omega⟩
    exact List.mem_append_left _ (List.mem_append_left _ hrange)
  case inr.inr.inr.inr.inr.inl =>
    have hrange : c.toNat ∈ List.range' 0x2000 11 := List.mem_range'_1.mpr ⟨hlow, by omega⟩
    exact List.mem_append_left _ (List.mem_append_right _ hrange)
  all_goals
    rw [h]
    decide

theorem not_alphanum_blankCodes :
    ∀ n ∈ blankCodes, n < 128 → ((Char.ofNat n).isAlphanum || Char.ofNat n == '_') = false := by
  decide +kernel

theorem wordRanges_apart_blankCodes :
    (blankCodes.all fun n => wordRanges.all fun r => Nat.blt r.2 n || Nat.blt n r.1) = true := by
  decide +kernel

/-- A blank is in no word. -/
theorem isWordChar_of_isBlank {c : Char} (h : isBlank c = true) : isWordChar c = false := by
  have hcode := mem_blankCodes h
  unfold isWordChar
  split
  · rename_i hascii
    have hchar := not_alphanum_blankCodes _ hcode hascii
    rwa [Char.ofNat_toNat] at hchar
  · rw [List.any_eq_false]
    intro r hr
    have hapart := List.all_eq_true.mp (List.all_eq_true.mp wordRanges_apart_blankCodes _ hcode) r hr
    simp only [Bool.or_eq_true, Nat.blt_eq] at hapart
    simp only [Bool.and_eq_true, decide_eq_true_eq]
    omega

/-- Blanks and an ending that begins no word begin no word. -/
theorem endsWord_append {blanks t : Text} (hb : ∀ c ∈ blanks, isBlank c = true) (ht : EndsWord t) :
    EndsWord (blanks ++ t) := by
  cases blanks with
  | nil => exact ht
  | cons c rest => exact endsWord_cons (isWordChar_of_isBlank (hb c List.mem_cons_self))

/-! ### Chunks -/

/-- A word is one chunk where it ends. -/
theorem chunks_append {w t : Text} (hw : IsWord w) (ht : EndsWord t) :
    chunks (w ++ t) = .word w :: chunks t := by
  obtain ⟨hne, hchars⟩ := hw
  induction w with
  | nil => exact absurd rfl hne
  | cons c rest ih =>
    have hc := hchars c List.mem_cons_self
    rw [List.cons_append, chunks, if_pos hc]
    cases rest with
    | nil =>
      cases t with
      | nil => rfl
      | cons d t =>
        have hd : isWordChar d = false := ht d rfl
        have hother : chunks (d :: t) = .other d :: chunks t := by
          rw [chunks, hd]
          rfl
        rw [List.nil_append, hother]
        rfl
    | cons d rest =>
      rw [ih (List.cons_ne_nil _ _) fun c hc => hchars c (List.mem_cons_of_mem _ hc)]
      rfl

theorem chunks_cons {c : Char} (t : Text) (h : isWordChar c = false) :
    chunks (c :: t) = .other c :: chunks t := by
  rw [chunks, h]
  rfl

/-- **Texts from the left**: empty, a character in no word before a text, or a word before a text
that does not go on with it. -/
theorem word_induction {P : Text → Prop} (nil : P [])
    (other : ∀ c t, isWordChar c = false → P t → P (c :: t))
    (word : ∀ w t, IsWord w → EndsWord t → P t → P (w ++ t)) (t : Text) : P t := by
  obtain ⟨n, hn⟩ : ∃ n, t.length = n := ⟨_, rfl⟩
  induction n using Nat.strongRecOn generalizing t with
  | ind n ih =>
    cases t with
    | nil => exact nil
    | cons c rest =>
      by_cases hc : isWordChar c = true
      · have hsplit := List.takeWhile_append_dropWhile (p := isWordChar) (l := c :: rest)
        have hword : IsWord ((c :: rest).takeWhile isWordChar) := by
          refine ⟨?_, fun d hd => List.mem_takeWhile_imp hd⟩
          rw [List.takeWhile_cons, if_pos hc]
          exact List.cons_ne_nil _ _
        have hends : EndsWord ((c :: rest).dropWhile isWordChar) := fun d hd => by
          have := List.head?_dropWhile_not isWordChar (c :: rest)
          rw [Option.mem_def.mp hd] at this
          simpa using this
        have hlength : ((c :: rest).dropWhile isWordChar).length < n := by
          have hsum := congrArg List.length hsplit
          have hpos := List.length_pos_iff.mpr hword.ne_nil
          rw [List.length_append] at hsum
          omega
        rw [← hsplit]
        exact word _ _ hword hends (ih _ hlength _ rfl)
      · have hlength : rest.length < n := by
          rw [List.length_cons] at hn
          omega
        exact other c rest (Bool.not_eq_true _ ▸ hc) (ih _ hlength _ rfl)

/-! ### Words -/

theorem words_cons {c : Char} (t : Text) (h : isWordChar c = false) : words (c :: t) = words t := by
  rw [words, chunks_cons t h]
  rfl

/-- **A word in front of a text that does not go on with it** is the first word. -/
theorem words_append {w t : Text} (hw : IsWord w) (ht : EndsWord t) :
    words (w ++ t) = w :: words t := by
  rw [words, chunks_append hw ht]
  rfl

theorem words_of_isWord {w : Text} (hw : IsWord w) : words w = [w] := by
  have h := words_append hw endsWord_nil
  rwa [List.append_nil] at h

/-- The words of a text are words. -/
theorem isWord_of_mem_words {t w : Text} (h : w ∈ words t) : IsWord w := by
  induction t using word_induction with
  | nil => simp [words, chunks] at h
  | other c t hc ih =>
    rw [words_cons t hc] at h
    exact ih h
  | word v t hv ht ih =>
    rw [words_append hv ht] at h
    rcases List.mem_cons.mp h with rfl | h
    · exact hv
    · exact ih h

/-! ### Replacing words -/

theorem mapWords_cons (f : Text → Text) {c : Char} (t : Text) (h : isWordChar c = false) :
    mapWords f (c :: t) = c :: mapWords f t := by
  rw [mapWords, chunks_cons t h]
  rfl

theorem mapWords_append (f : Text → Text) {w t : Text} (hw : IsWord w) (ht : EndsWord t) :
    mapWords f (w ++ t) = f w ++ mapWords f t := by
  rw [mapWords, chunks_append hw ht]
  rfl

theorem mapWords_of_isWord (f : Text → Text) {w : Text} (hw : IsWord w) : mapWords f w = f w := by
  have h := mapWords_append f hw endsWord_nil
  rw [List.append_nil] at h
  exact h.trans (List.append_nil _)

theorem endsWord_mapWords (f : Text → Text) {t : Text} (h : EndsWord t) :
    EndsWord (mapWords f t) := by
  cases t with
  | nil => exact endsWord_nil
  | cons c rest =>
    have hc : isWordChar c = false := h c rfl
    rw [mapWords_cons f rest hc]
    exact endsWord_cons hc

/-- **Replacing words by words**: the words afterwards are the replaced ones. -/
theorem words_mapWords {f : Text → Text} {t : Text} (hf : ∀ w ∈ words t, IsWord (f w)) :
    words (mapWords f t) = (words t).map f := by
  induction t using word_induction with
  | nil => rfl
  | other c t hc ih =>
    rw [words_cons t hc] at hf
    rw [mapWords_cons f t hc, words_cons _ hc, words_cons t hc, ih hf]
  | word w t hw ht ih =>
    rw [words_append hw ht] at hf
    have hfirst := hf w List.mem_cons_self
    have hrest := ih fun v hv => hf v (List.mem_cons_of_mem _ hv)
    rw [mapWords_append f hw ht, words_append hfirst (endsWord_mapWords f ht), hrest,
      words_append hw ht, List.map_cons]

/-- Words put in place of words leave every other character where it is. -/
theorem count_mapWords {f : Text → Text} (hf : ∀ w, IsWord w → IsWord (f w)) {c : Char}
    (hc : isWordChar c = false) (t : Text) : (mapWords f t).count c = t.count c := by
  have hnone {w : Text} (hw : IsWord w) : w.count c = 0 := List.count_eq_zero.mpr fun hmem => by
    rw [hw.chars c hmem] at hc
    cases hc
  induction t using word_induction with
  | nil => rfl
  | other d t hd ih => rw [mapWords_cons f t hd, List.count_cons, List.count_cons, ih]
  | word w t hw ht ih =>
    rw [mapWords_append f hw ht, List.count_append, List.count_append, ih, hnone hw,
      hnone (hf w hw)]

/-- Only the words that occur matter. -/
theorem mapWords_congr {f g : Text → Text} {t : Text} (h : ∀ w ∈ words t, f w = g w) :
    mapWords f t = mapWords g t := by
  induction t using word_induction with
  | nil => rfl
  | other c t hc ih =>
    rw [words_cons t hc] at h
    rw [mapWords_cons f t hc, mapWords_cons g t hc, ih h]
  | word w t hw ht ih =>
    rw [words_append hw ht] at h
    have hfirst := h w List.mem_cons_self
    have hrest := ih fun v hv => h v (List.mem_cons_of_mem _ hv)
    rw [mapWords_append f hw ht, mapWords_append g hw ht, hfirst, hrest]

/-! ### Words that are read, and tagged words -/

theorem isWord_of_word? {t w rest : Text} (h : word? t = some (w, rest)) : IsWord w := by
  unfold word? at h
  split at h
  · simp at h
  · rename_i hne
    have hw : t.takeWhile isWordChar = w := (Prod.mk.inj (Option.some.inj h)).1
    rw [← hw]
    exact ⟨fun he => hne (by rw [he]; rfl), fun c hc => List.mem_takeWhile_imp hc⟩

/-- One tag put in place of another leaves a word a word. -/
theorem IsWord.retag {tag tag' rest : Text} (htag : IsWord tag') (h : IsWord (tag ++ rest)) :
    IsWord (tag' ++ rest) where
  ne_nil := List.append_ne_nil_of_left_ne_nil htag.ne_nil _
  chars c hc := by
    rcases List.mem_append.mp hc with hc | hc
    · exact htag.chars c hc
    · exact h.chars c (List.mem_append_right _ hc)

/-- Behind a tag the word goes on as far as word characters do. -/
theorem IsWord.exists_more {tag : Text} (htag : IsWord tag) (rest : Text) :
    ∃ more tail, rest = more ++ tail ∧ IsWord (tag ++ more) ∧ EndsWord tail := by
  refine ⟨rest.takeWhile isWordChar, rest.dropWhile isWordChar, ?_, ⟨?_, fun c hc => ?_⟩,
    fun c hc => ?_⟩
  · exact List.takeWhile_append_dropWhile.symm
  · exact List.append_ne_nil_of_left_ne_nil htag.ne_nil _
  · rcases List.mem_append.mp hc with hc | hc
    · exact htag.chars c hc
    · exact List.mem_takeWhile_imp hc
  · have hstop := List.head?_dropWhile_not isWordChar rest
    rw [Option.mem_def.mp hc] at hstop
    simpa using hstop

end CommonHeaders.Text

namespace CommonHeaders.Naming

open Text (IsWord isWord_of_all)

theorem isWord_mobileTag : IsWord mobileTag := isWord_of_all (by decide) (by decide)

theorem isWord_desktopTag : IsWord desktopTag := isWord_of_all (by decide) (by decide)

theorem isWord_unifiedTag : IsWord unifiedTag := isWord_of_all (by decide) (by decide)

/-- **The common name of a word is a word.** -/
theorem isWord_toUnified {name : Text} (h : IsWord name) : IsWord (toUnified name) := by
  cases hrest : platformRest? name with
  | none => rwa [toUnified_of_not hrest]
  | some rest =>
    rw [toUnified_of_platformRest? hrest]
    obtain ⟨-, rfl | rfl⟩ := platformRest?_eq_some_iff.mp hrest
    · exact isWord_unifiedTag.retag h
    · exact isWord_unifiedTag.retag h

end CommonHeaders.Naming
