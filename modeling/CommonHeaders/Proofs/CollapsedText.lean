import CommonHeaders.Text.Blank
import Mathlib.Data.List.Basic
import Mathlib.Data.List.TakeWhile

/-! # Collapsed texts

A text is collapsed if it is as `collapse` leaves it: pieces without blanks, with one space between
them and none at either end. Collapsing takes away blanks and adds spaces, so it keeps every other
character in its place.

* `piece_induction`: a text is read piece by piece.
* `blankWords_join`, `collapse_collapse`: a text that was collapsed is collapsed.
* `collapse_trimEnd_of_append`: so is what is left when its end is cut off and trimmed.
* `filter_collapse`: what collapsing keeps. -/

namespace CommonHeaders.Text

/-! ### Pieces -/

/-- **A piece**: a text without blanks that is not empty. -/
structure IsPiece (w : Text) : Prop where
  ne_nil : w ≠ []
  chars : ∀ c ∈ w, isBlank c = false

theorem IsPiece.space_notMem {w : Text} (h : IsPiece w) : ' ' ∉ w := fun hmem => by
  have hblank := h.chars ' ' hmem
  simp at hblank

/-- **A text is read piece by piece**: it has no blanks, or a blank stands behind its first ones. -/
theorem piece_induction {P : Text → Prop} (hlast : ∀ w : Text, (∀ c ∈ w, isBlank c = false) → P w)
    (hnext : ∀ (w : Text) (c : Char) (r : Text), (∀ d ∈ w, isBlank d = false) →
      isBlank c = true → P r → P (w ++ c :: r)) (t : Text) : P t := by
  have hall : ∀ (w t : Text), (∀ d ∈ w, isBlank d = false) → P (w ++ t) := by
    intro w t
    induction t generalizing w with
    | nil =>
      intro hw
      rw [List.append_nil]
      exact hlast w hw
    | cons c r ih =>
      intro hw
      cases hc : isBlank c with
      | true => exact hnext w c r hw hc (ih [] (by simp))
      | false =>
        rw [List.append_cons]
        refine ih (w ++ [c]) fun d hd => ?_
        rcases List.mem_append.mp hd with hd | hd
        · exact hw d hd
        · rw [List.mem_singleton.mp hd, hc]
  exact hall [] t (by simp)

theorem blankWords_nil : blankWords [] = [] := rfl

theorem blankWords_append_cons {c : Char} (hc : isBlank c = true) (a b : Text) :
    blankWords (a ++ c :: b) = blankWords a ++ blankWords b := by
  rw [blankWords, List.splitOnP_append_cons a b hc, List.filter_append]
  rfl

/-- A text without blanks is one piece or nothing. -/
theorem blankWords_of_no_blank {w : Text} (h : ∀ c ∈ w, isBlank c = false) :
    blankWords w = [w].filter (fun w => !w.isEmpty) := by
  rw [blankWords, List.splitOnP_eq_singleton h]

theorem blankWords_of_isPiece {w : Text} (h : IsPiece w) : blankWords w = [w] := by
  rw [blankWords_of_no_blank h.chars]
  exact List.filter_eq_self.mpr fun v hv => by
    rw [List.mem_singleton.mp hv]
    simpa using h.ne_nil

theorem blankWords_blanks_append {b : Text} (hb : ∀ c ∈ b, isBlank c = true) (t : Text) :
    blankWords (b ++ t) = blankWords t := by
  induction b with
  | nil => rfl
  | cons c r ih =>
    have hfirst := blankWords_append_cons (hb c List.mem_cons_self) [] (r ++ t)
    exact hfirst.trans (ih fun d hd => hb d (List.mem_cons_of_mem c hd))

/-- Blanks between two texts keep their pieces apart. -/
theorem blankWords_append_blanks {b : Text} (hb : ∀ c ∈ b, isBlank c = true) (hne : b ≠ [])
    (s t : Text) : blankWords (s ++ (b ++ t)) = blankWords s ++ blankWords t := by
  obtain ⟨c, r, rfl⟩ := List.exists_cons_of_ne_nil hne
  have hr := blankWords_blanks_append (fun d hd => hb d (List.mem_cons_of_mem c hd)) t
  rw [List.cons_append, blankWords_append_cons (hb c List.mem_cons_self), hr]

/-- **Pieces with blanks behind them** stay apart from each other and from what follows. -/
theorem blankWords_flatMap_append {α : Type} {word blanks : α → Text} {l : List α}
    (h : ∀ a ∈ l, IsPiece (word a) ∧ (∀ c ∈ blanks a, isBlank c = true) ∧ blanks a ≠ [])
    (t : Text) :
    blankWords (l.flatMap (fun a => word a ++ blanks a) ++ t) = l.map word ++ blankWords t := by
  induction l with
  | nil => rfl
  | cons a rest ih =>
    obtain ⟨hword, hblank, hne⟩ := h a List.mem_cons_self
    have hrest := ih fun b hb => h b (List.mem_cons_of_mem a hb)
    rw [List.flatMap_cons, List.append_assoc, List.append_assoc,
      blankWords_append_blanks hblank hne, blankWords_of_isPiece hword, hrest]
    rfl

theorem isPiece_of_mem_blankWords (t : Text) : ∀ w ∈ blankWords t, IsPiece w := by
  have hsingle {v : Text} (hv : ∀ c ∈ v, isBlank c = false) : ∀ w ∈ blankWords v, IsPiece w := by
    intro w hw
    rw [blankWords_of_no_blank hv, List.mem_filter, List.mem_singleton] at hw
    obtain ⟨rfl, hne⟩ := hw
    exact ⟨by simpa using hne, hv⟩
  induction t using piece_induction with
  | hlast v hv => exact hsingle hv
  | hnext v c r hv hc ih =>
    intro w hw
    rw [blankWords_append_cons hc] at hw
    rcases List.mem_append.mp hw with hw | hw
    · exact hsingle hv w hw
    · exact ih w hw

/-- A piece without blanks in front of it makes the last piece longer. -/
theorem exists_blankWords_append {t w : Text} (hlast : ∃ c ∈ t.getLast?, isBlank c = false)
    (hw : ∀ c ∈ w, isBlank c = false) :
    ∃ ws v, blankWords t = ws ++ [v] ∧ blankWords (t ++ w) = ws ++ [v ++ w] ∧
      v.getLast? = t.getLast? := by
  induction t using piece_induction with
  | hlast v hv =>
    have hne : v ≠ [] := by
      rintro rfl
      obtain ⟨c, hc, -⟩ := hlast
      cases hc
    have hmore : IsPiece (v ++ w) :=
      ⟨List.append_ne_nil_of_left_ne_nil hne w, fun c hc =>
        (List.mem_append.mp hc).elim (hv c) (hw c)⟩
    exact ⟨[], v, blankWords_of_isPiece ⟨hne, hv⟩, blankWords_of_isPiece hmore, rfl⟩
  | hnext v c r hv hc ih =>
    have hr : r ≠ [] := by
      rintro rfl
      obtain ⟨d, hd, hd'⟩ := hlast
      rw [List.getLast?_concat] at hd
      rw [← Option.some.inj hd, hc] at hd'
      cases hd'
    have hend : (v ++ c :: r).getLast? = r.getLast? := by
      rw [List.getLast?_append_of_ne_nil _ (List.cons_ne_nil c r), List.getLast?_cons_of_ne_nil hr]
    rw [hend] at hlast
    obtain ⟨ws, u, hwords, hmore, hu⟩ := ih hlast
    refine ⟨blankWords v ++ ws, u, ?_, ?_, hu.trans hend.symm⟩
    · rw [blankWords_append_cons hc, hwords, List.append_assoc]
    · rw [List.append_assoc, List.cons_append, blankWords_append_cons hc, hmore, List.append_assoc]

/-! ### Joining pieces -/

/-- What is joined has the characters of its parts and of what is put between them. -/
theorem mem_join {sep : Text} {parts : List Text} {c : Char} (h : c ∈ join sep parts) :
    c ∈ sep ∨ ∃ part ∈ parts, c ∈ part := by
  cases parts with
  | nil => cases h
  | cons first rest =>
    rw [join_cons, List.mem_append, List.mem_flatMap] at h
    rcases h with h | ⟨part, hpart, h⟩
    · exact Or.inr ⟨first, List.mem_cons_self, h⟩
    · exact (List.mem_append.mp h).imp_right fun h =>
        ⟨part, List.mem_cons_of_mem first hpart, h⟩

theorem join_cons_cons (w v : Text) (rest : List Text) :
    join [' '] (w :: v :: rest) = w ++ ' ' :: join [' '] (v :: rest) := by
  rw [join_cons, join_cons, List.flatMap_cons]
  rfl

theorem join_concat {ws : List Text} (h : ws ≠ []) (w : Text) :
    join [' '] (ws ++ [w]) = join [' '] ws ++ ' ' :: w := by
  obtain ⟨first, rest, rfl⟩ := List.exists_cons_of_ne_nil h
  rw [List.cons_append, join_cons, join_cons, List.flatMap_append, List.flatMap_singleton]
  simp only [List.append_assoc, List.singleton_append]

/-- Texts that are joined end as the last one does. -/
theorem getLast?_join_concat (ws : List Text) {w : Text} (h : w ≠ []) :
    (join [' '] (ws ++ [w])).getLast? = w.getLast? := by
  by_cases hnone : ws = []
  · simp [hnone, join]
  · rw [join_concat hnone, List.getLast?_append_of_ne_nil _ (List.cons_ne_nil _ _),
      List.getLast?_cons_of_ne_nil h]

/-- **Pieces that are joined can be told apart.** -/
theorem blankWords_join {ws : List Text} (h : ∀ w ∈ ws, IsPiece w) :
    blankWords (join [' '] ws) = ws := by
  induction ws with
  | nil => rfl
  | cons w rest ih =>
    have hw : blankWords w = [w] := blankWords_of_isPiece (h w List.mem_cons_self)
    cases rest with
    | nil => simpa [join] using hw
    | cons v rest =>
      have hrest := ih fun u hu => h u (List.mem_cons_of_mem _ hu)
      rw [join_cons_cons, blankWords_append_cons isBlank_space, hw, hrest]
      rfl

/-! ### Collapsed texts -/

theorem collapse_join {ws : List Text} (h : ∀ w ∈ ws, IsPiece w) :
    collapse (join [' '] ws) = join [' '] ws := by rw [collapse, blankWords_join h]

theorem collapse_collapse (t : Text) : collapse (collapse t) = collapse t :=
  collapse_join (isPiece_of_mem_blankWords t)

theorem collapse_of_isPiece {w : Text} (h : IsPiece w) : collapse w = w := by
  rw [collapse, blankWords_of_isPiece h]
  simp [join]

/-- **A collapsed text has no blanks at its ends.** -/
theorem not_isBlank_ends_of_collapse {t : Text} (h : collapse t = t) :
    (∀ c ∈ t.head?, isBlank c = false) ∧ ∀ c ∈ t.getLast?, isBlank c = false := by
  rw [← h, collapse]
  have hpieces := isPiece_of_mem_blankWords t
  generalize blankWords t = ws at hpieces
  constructor
  · intro c hc
    cases ws with
    | nil => cases hc
    | cons w rest =>
      have hw := hpieces w List.mem_cons_self
      rw [join_cons, List.head?_append_of_ne_nil w hw.ne_nil] at hc
      exact hw.chars c (List.mem_of_mem_head? hc)
  · intro c hc
    rcases List.eq_nil_or_concat ws with rfl | ⟨init, w, rfl⟩
    · cases hc
    · rw [List.concat_eq_append] at hc hpieces
      have hw := hpieces w (List.mem_append_right _ (List.mem_singleton_self w))
      rw [getLast?_join_concat init hw.ne_nil] at hc
      exact hw.chars c (List.mem_of_mem_getLast? hc)

theorem trimEnd_of_collapse {t : Text} (h : collapse t = t) : trimEnd t = t :=
  trimEnd_eq_self (not_isBlank_ends_of_collapse h).2

/-- A text begins with blanks, and then there is none. -/
theorem exists_blanks_trimStart (t : Text) :
    ∃ b, (∀ c ∈ b, isBlank c = true) ∧ t = b ++ trimStart t :=
  ⟨t.takeWhile isBlank, fun _ hc => List.mem_takeWhile_imp hc,
    List.takeWhile_append_dropWhile.symm⟩

/-- A text is what is left when its ending of a kind is dropped, and that ending. -/
theorem dropEndWhile_append (p : Char → Bool) (t : Text) :
    dropEndWhile p t ++ (t.reverse.takeWhile p).reverse = t := by
  rw [dropEndWhile, ← List.reverse_append, List.takeWhile_append_dropWhile, List.reverse_reverse]

/-- An ending of a kind does not count. -/
theorem dropEndWhile_append_of_all {p : Char → Bool} (t : Text) {b : Text}
    (hb : ∀ c ∈ b, p c = true) : dropEndWhile p (t ++ b) = dropEndWhile p t := by
  have hreverse : ∀ c ∈ b.reverse, p c = true := fun c hc => hb c (List.mem_reverse.mp hc)
  rw [dropEndWhile, List.reverse_append, List.dropWhile_append_of_pos hreverse, dropEndWhile]

/-- Dropping an ending cuts off characters of its kind. -/
theorem exists_append_dropEndWhile (p : Char → Bool) (t : Text) :
    ∃ b, t = dropEndWhile p t ++ b ∧ ∀ c ∈ b, p c = true :=
  ⟨(t.reverse.takeWhile p).reverse, (dropEndWhile_append p t).symm,
    fun _ hc => List.mem_takeWhile_imp (List.mem_reverse.mp hc)⟩

/-- What is left ends with a character of another kind. -/
theorem exists_concat_of_dropEndWhile {p : Char → Bool} {t : Text} (h : dropEndWhile p t ≠ []) :
    ∃ a c, dropEndWhile p t = a ++ [c] ∧ p c = false := by
  obtain ⟨a, c, hc⟩ := (List.eq_nil_or_concat (dropEndWhile p t)).resolve_left h
  rw [List.concat_eq_append] at hc
  have hne : t.reverse.dropWhile p ≠ [] := by simpa [dropEndWhile] using h
  have hhead := List.head_dropWhile_not p hne
  have hrev : t.reverse.dropWhile p = c :: a.reverse := by
    have h := congrArg List.reverse hc
    rwa [dropEndWhile, List.reverse_reverse, List.reverse_append] at h
  exact ⟨a, c, hc, by simpa [hrev] using hhead⟩

/-- A text without words is blank, -/
theorem blankWords_eq_nil_iff {t : Text} : blankWords t = [] ↔ ∀ c ∈ t, isBlank c = true := by
  constructor
  · intro hnone
    induction t using piece_induction with
    | hlast w hw =>
      rw [blankWords_of_no_blank hw] at hnone
      cases w with
      | nil => simp
      | cons c r => cases hnone
    | hnext w c r hw hc ih =>
      rw [blankWords_append_cons hc] at hnone
      obtain ⟨hfirst, hrest⟩ := List.append_eq_nil_iff.mp hnone
      rw [blankWords_of_no_blank hw] at hfirst
      cases w with
      | nil => exact List.forall_mem_cons.mpr ⟨hc, ih hrest⟩
      | cons d w => cases hfirst
  · intro h
    have hnone := blankWords_blanks_append h []
    rwa [List.append_nil] at hnone

/-- and nothing is left of it when it is trimmed. -/
theorem trim_eq_nil_iff {t : Text} : trim t = [] ↔ blankWords t = [] := by
  rw [blankWords_eq_nil_iff]
  constructor
  · intro hnil c hc
    by_contra hblank
    have hmem : c ∈ trim t := (mem_trim_iff (by simpa using hblank)).mpr hc
    rw [hnil] at hmem
    cases hmem
  · intro h
    have hstart : trimStart t = [] := dropWhile_eq_nil.mpr h
    rw [trim, hstart]
    rfl

/-- Trimming the end cuts off blanks. -/
theorem exists_append_trimEnd (t : Text) : ∃ b, t = trimEnd t ++ b ∧ ∀ c ∈ b, isBlank c = true :=
  exists_append_dropEndWhile isBlank t

theorem trimEnd_append_blank (t : Text) {c : Char} (hc : isBlank c = true) :
    trimEnd (t ++ [c]) = trimEnd t :=
  dropEndWhile_append_of_all t (List.forall_mem_singleton.mpr hc)

theorem trimEnd_append_cons_blank {c : Char} (hc : isBlank c = true) (t r : Text) :
    trimEnd (t ++ c :: r) = if trimEnd r = [] then trimEnd t else t ++ c :: trimEnd r := by
  unfold trimEnd dropEndWhile
  rw [List.reverse_append, List.reverse_cons, List.append_assoc, List.dropWhile_append,
    List.singleton_append, List.dropWhile_cons, if_pos hc]
  cases hr : r.reverse.dropWhile isBlank with
  | nil => simp
  | cons d rest => simp

/-- A text without blanks in front of a collapsed one, with a space between them. -/
theorem collapse_append_cons {w t : Text} (hw : IsPiece w) (ht : collapse t = t) (hne : t ≠ []) :
    collapse (w ++ ' ' :: t) = w ++ ' ' :: t := by
  have hwords : blankWords t ≠ [] := fun he => hne (by rw [← ht, collapse, he]; rfl)
  obtain ⟨v, rest, hrest⟩ := List.exists_cons_of_ne_nil hwords
  have hjoin : join [' '] (v :: rest) = t := by rw [← hrest]; exact ht
  rw [collapse, blankWords_append_cons isBlank_space, blankWords_of_isPiece hw, hrest,
    List.singleton_append, join_cons_cons, hjoin]

/-- **The beginning of a collapsed text**, trimmed, is collapsed. -/
theorem collapse_trimEnd_of_append {a b : Text} (h : collapse (a ++ b) = a ++ b) :
    collapse (trimEnd a) = trimEnd a := by
  -- by the pieces of the whole text: the beginning ends within the first one or reaches the next
  have hjoin : ∀ (ws : List Text), (∀ w ∈ ws, IsPiece w) → ∀ a b : Text,
      a ++ b = join [' '] ws → collapse (trimEnd a) = trimEnd a := by
    intro ws
    induction ws with
    | nil =>
      intro _ a b hab
      rw [(List.append_eq_nil_iff.mp hab).1]
      rfl
    | cons w rest ih =>
      intro hws a b hab
      have hw := hws w List.mem_cons_self
      have hwithin {a : Text} (ha : ∀ c ∈ a, isBlank c = false) :
          collapse (trimEnd a) = trimEnd a := by
        have htrim : trimEnd a = a :=
          trimEnd_eq_self fun c hc => ha c (List.mem_of_mem_getLast? hc)
        rw [htrim]
        by_cases hne : a = []
        · rw [hne]
          rfl
        · exact collapse_of_isPiece ⟨hne, ha⟩
      cases rest with
      | nil =>
        have hab : a ++ b = w := by simpa [join] using hab
        exact hwithin fun c hc => hw.chars c (hab ▸ List.mem_append_left b hc)
      | cons v rest =>
        rw [join_cons_cons] at hab
        rcases List.append_eq_append_iff.mp hab with ⟨w', rfl, -⟩ | ⟨a', rfl, hb⟩
        · exact hwithin fun c hc => hw.chars c (List.mem_append_left w' hc)
        · cases a' with
          | nil => exact hwithin (by simpa using hw.chars)
          | cons c a' =>
            obtain ⟨rfl, htail⟩ := List.cons.inj hb
            have hrest := ih (fun u hu => hws u (List.mem_cons_of_mem _ hu)) a' b htail.symm
            rw [trimEnd_append_cons_blank isBlank_space]
            split
            · exact hwithin hw.chars
            · rename_i hne
              exact collapse_append_cons hw hrest hne
  exact hjoin (blankWords (a ++ b)) (isPiece_of_mem_blankWords _) a b h.symm

/-! ### What collapsing keeps -/

theorem filter_join {p : Char → Bool} (hp : p ' ' = false) (ws : List Text) :
    (join [' '] ws).filter p = ws.flatMap (List.filter p) := by
  cases ws with
  | nil => rfl
  | cons w rest =>
    rw [join_cons, List.filter_append, List.flatMap_cons, List.filter_flatMap]
    simp only [List.singleton_append, List.filter_cons, hp, Bool.false_eq_true, if_false]

/-- **Collapsing keeps what is not blank**, in order. -/
theorem filter_collapse {p : Char → Bool} (hp : ∀ c, isBlank c = true → p c = false) (t : Text) :
    (collapse t).filter p = t.filter p := by
  rw [collapse, filter_join (hp ' ' isBlank_space)]
  have hsingle {w : Text} (hw : ∀ c ∈ w, isBlank c = false) :
      (blankWords w).flatMap (List.filter p) = w.filter p := by
    rw [blankWords_of_no_blank hw]
    cases w <;> simp
  induction t using piece_induction with
  | hlast w hw => exact hsingle hw
  | hnext w c r hw hc ih =>
    rw [blankWords_append_cons hc, List.flatMap_append, hsingle hw, ih, List.filter_append,
      List.filter_cons, hp c hc]
    rfl

/-- So does trimming. -/
theorem filter_trimEnd {p : Char → Bool} (hp : ∀ c, isBlank c = true → p c = false) (t : Text) :
    (trimEnd t).filter p = t.filter p := by
  obtain ⟨b, hb, hblank⟩ := exists_append_trimEnd t
  have hnone : b.filter p = [] := List.filter_eq_nil_iff.mpr fun c hc => by
    rw [hp c (hblank c hc)]
    exact Bool.false_ne_true
  have hfilter := congrArg (List.filter p) hb
  rw [List.filter_append, hnone, List.append_nil] at hfilter
  exact hfilter.symm

end CommonHeaders.Text
