import CommonHeaders.Proofs.CollapsedText
import CommonHeaders.TypeRef
import Mathlib.Data.List.Chain

/-! # Base names piece by piece

A base name is written without spaces around stars, angle brackets and commas. On the pieces of a
text this means that two neighbours which touch, the first with such a character at its end or the
second with one at its start, are put together, and all others keep their space.

* `canonicalName_join`: a base name, by its pieces.
* `collapse_canonicalName`, `canonicalName_canonicalName`: a base name is collapsed, and writing it
  again changes nothing.
* `exists_of_canonicalName_eq`: a space that is left in a base name stood there before.
* `exists_of_canonicalName_eq_append`, `getLast?_canonicalName`: the last characters of a base name
  stood at the end before. -/

namespace CommonHeaders.TypeRef

open Text

/-! ### Pieces that touch -/

/-- Do two neighbouring pieces stand without a space between them? -/
def touches (w v : Text) : Bool := w.getLast?.any isTight || v.head?.any isTight

/-- A piece and those behind it, those that touch put together. -/
def mergeTouching (w : Text) : List Text → List Text
  | [] => [w]
  | v :: rest => if touches w v then mergeTouching (w ++ v) rest else w :: mergeTouching v rest

/-- The first piece is the beginning of the first one put together. -/
theorem exists_mergeTouching (w : Text) (rest : List Text) :
    ∃ x us, mergeTouching w rest = (w ++ x) :: us := by
  induction rest generalizing w with
  | nil => exact ⟨[], [], by rw [mergeTouching, List.append_nil]⟩
  | cons v rest ih =>
    rw [mergeTouching]
    split
    · obtain ⟨x, us, h⟩ := ih (w ++ v)
      exact ⟨v ++ x, us, by rw [h, List.append_assoc]⟩
    · exact ⟨[], _, by rw [List.append_nil]⟩

theorem isPiece_of_mem_mergeTouching {w : Text} {rest : List Text} (hw : IsPiece w)
    (hrest : ∀ v ∈ rest, IsPiece v) : ∀ u ∈ mergeTouching w rest, IsPiece u := by
  induction rest generalizing w with
  | nil =>
    intro u hu
    rwa [List.mem_singleton.mp hu]
  | cons v rest ih =>
    have hv := hrest v List.mem_cons_self
    have hrest := fun u hu => hrest u (List.mem_cons_of_mem _ hu)
    intro u hu
    rw [mergeTouching] at hu
    split at hu
    · exact ih ⟨by simp [hw.ne_nil],
        fun c hc => (List.mem_append.mp hc).elim (hw.chars c) (hv.chars c)⟩ hrest u hu
    · rcases List.mem_cons.mp hu with rfl | hu
      · exact hw
      · exact ih hv hrest u hu

/-- **Pieces that are put together no longer touch.** -/
theorem isChain_mergeTouching {w : Text} {rest : List Text} (hrest : ∀ v ∈ rest, IsPiece v) :
    (mergeTouching w rest).IsChain fun u v => touches u v = false := by
  induction rest generalizing w with
  | nil => exact List.IsChain.singleton w
  | cons v rest ih =>
    have hv := hrest v List.mem_cons_self
    have hrest := fun u hu => hrest u (List.mem_cons_of_mem _ hu)
    rw [mergeTouching]
    split
    · exact ih hrest
    · rename_i hapart
      obtain ⟨x, us, h⟩ := exists_mergeTouching v rest
      have htail := ih hrest (w := v)
      rw [h] at htail ⊢
      refine htail.cons_cons ?_
      rw [touches, List.head?_append_of_ne_nil _ hv.ne_nil]
      simpa [touches] using hapart

/-- Pieces that do not touch stay as they are. -/
theorem mergeTouching_of_isChain {w : Text} {rest : List Text}
    (h : (w :: rest).IsChain fun u v => touches u v = false) :
    mergeTouching w rest = w :: rest := by
  induction rest generalizing w with
  | nil => rfl
  | cons v rest ih =>
    obtain ⟨hapart, htail⟩ := List.isChain_cons_cons.mp h
    rw [mergeTouching, hapart, if_neg Bool.false_ne_true, ih htail]

/-! ### Base names -/

theorem isTight_space : isTight ' ' = false := by decide

theorem tighten_of_ne_space {written : Text} {c : Char} (hc : c ≠ ' ')
    (h : isTight c = true → written.head? ≠ some ' ') : tighten written c = c :: written := by
  unfold tighten
  cases htight : isTight c with
  | false => simp [hc]
  | true =>
    have hkeep : written.dropWhile (· == ' ') = written := by
      cases written with
      | nil => rfl
      | cons d r =>
        have hd : d ≠ ' ' := fun he => h htight (by rw [he]; rfl)
        simp [hd]
    rw [if_pos rfl, hkeep]

/-- A text without spaces is written as it stands. -/
theorem foldl_tighten_of_no_space {w : Text} (hw : ' ' ∉ w) {written : Text}
    (h : w.head?.any isTight = true → written.head? ≠ some ' ') :
    w.foldl tighten written = w.reverse ++ written := by
  induction w generalizing written with
  | nil => rfl
  | cons c r ih =>
    obtain ⟨hc, hr⟩ := not_or.mp (mt List.mem_cons.mpr hw)
    rw [List.foldl_cons, tighten_of_ne_space (Ne.symm hc) h, ih hr fun _ he => hc ?_,
      List.reverse_cons, List.append_assoc]
    · rfl
    · exact (Option.some.inj he).symm

/-- Between pieces that touch no space is written. -/
theorem foldl_tighten_space_of_touches {w v written : Text} (hw : IsPiece w) (hv : IsPiece v)
    (h : touches w v = true) (rest : Text) :
    (' ' :: v ++ rest).foldl tighten (w.reverse ++ written) =
      (v ++ rest).foldl tighten (w.reverse ++ written) := by
  have hhead : (w.reverse ++ written).head? = w.getLast? := by
    rw [List.head?_append_of_ne_nil _ (by simpa using hw.ne_nil), List.head?_reverse]
  have hlast : (w.reverse ++ written).head? ≠ some ' ' := by
    rw [hhead]
    exact fun he => hw.space_notMem (List.mem_of_getLast? he)
  rw [List.cons_append, List.foldl_cons]
  cases htight : w.getLast?.any isTight with
  | true =>
    have hskip : tighten (w.reverse ++ written) ' ' = w.reverse ++ written := by
      simp [tighten, isTight_space, hhead, htight]
    rw [hskip]
  | false =>
    -- the space is written, and taken away by the tight character behind it
    have hspace : tighten (w.reverse ++ written) ' ' = ' ' :: (w.reverse ++ written) := by
      simp [tighten, isTight_space, hhead, htight]
    have hfirst : v.head?.any isTight = true := by simpa [touches, htight] using h
    cases v with
    | nil => exact absurd rfl hv.ne_nil
    | cons c r =>
      have hc : isTight c = true := hfirst
      have hdrop : (w.reverse ++ written).dropWhile (· == ' ') = w.reverse ++ written := by
        cases hcons : w.reverse ++ written with
        | nil => rfl
        | cons d t =>
          have hd : d ≠ ' ' := fun he => hlast (by rw [hcons, he]; rfl)
          simp [hd]
      have hpop : tighten (' ' :: (w.reverse ++ written)) c = tighten (w.reverse ++ written) c := by
        simp [tighten, hc]
      rw [hspace, List.cons_append, List.foldl_cons, List.foldl_cons, hpop]

theorem foldl_tighten_join {w : Text} {rest : List Text} (hw : IsPiece w)
    (hrest : ∀ v ∈ rest, IsPiece v) {written : Text}
    (h : w.head?.any isTight = true → written.head? ≠ some ' ') :
    (join [' '] (w :: rest)).foldl tighten written =
      (join [' '] (mergeTouching w rest)).reverse ++ written := by
  induction rest generalizing w written with
  | nil => simpa [join, mergeTouching] using foldl_tighten_of_no_space hw.space_notMem h
  | cons v rest ih =>
    have hv := hrest v List.mem_cons_self
    have hrest := fun u hu => hrest u (List.mem_cons_of_mem _ hu)
    have hfirst (t : Text) :
        (w ++ t).foldl tighten written = t.foldl tighten (w.reverse ++ written) := by
      rw [List.foldl_append, foldl_tighten_of_no_space hw.space_notMem h]
    rw [mergeTouching]
    split
    · rename_i htouches
      have hmerged : IsPiece (w ++ v) :=
        ⟨by simp [hw.ne_nil], fun c hc => (List.mem_append.mp hc).elim (hw.chars c) (hv.chars c)⟩
      have hhead : (w ++ v).head? = w.head? := List.head?_append_of_ne_nil _ hw.ne_nil
      have hmore := @foldl_tighten_space_of_touches w v written hw hv htouches
        (rest.flatMap ([' '] ++ ·))
      calc (join [' '] (w :: v :: rest)).foldl tighten written
          = (' ' :: v ++ rest.flatMap ([' '] ++ ·)).foldl tighten (w.reverse ++ written) := by
            rw [join_cons_cons, hfirst, join_cons]
            rfl
        _ = (v ++ rest.flatMap ([' '] ++ ·)).foldl tighten (w.reverse ++ written) := hmore
        _ = (join [' '] ((w ++ v) :: rest)).foldl tighten written := by
            rw [join_cons, List.append_assoc, hfirst]
        _ = _ := ih hmerged hrest (hhead ▸ h)
    · rename_i htouches
      have hlast : w.getLast?.any isTight = false := by
        simp only [touches, Bool.or_eq_true, not_or, Bool.not_eq_true] at htouches
        exact htouches.1
      have hhead : (w.reverse ++ written).head? = w.getLast? := by
        rw [List.head?_append_of_ne_nil _ (by simpa using hw.ne_nil), List.head?_reverse]
      have hspace : tighten (w.reverse ++ written) ' ' = ' ' :: (w.reverse ++ written) := by
        simp [tighten, isTight_space, hhead, hlast]
      have hnext : v.head?.any isTight = true →
          (' ' :: (w.reverse ++ written)).head? ≠ some ' ' := by
        intro htight
        simp [touches, htight] at htouches
      obtain ⟨x, us, hmerge⟩ := exists_mergeTouching v rest
      rw [join_cons_cons, hfirst, List.foldl_cons, hspace, ih hv hrest hnext, hmerge,
        join_cons_cons]
      simp only [List.reverse_append, List.reverse_cons, List.append_assoc, List.cons_append,
        List.nil_append]

/-- **A base name, by its pieces.** -/
theorem canonicalName_join {w : Text} {rest : List Text} (hw : IsPiece w)
    (hrest : ∀ v ∈ rest, IsPiece v) :
    canonicalName (join [' '] (w :: rest)) = join [' '] (mergeTouching w rest) := by
  rw [canonicalName, foldl_tighten_join hw hrest fun _ => by simp, List.append_nil,
    List.reverse_reverse]

/-- A collapsed text is empty or made of pieces. -/
theorem exists_pieces {t : Text} (h : collapse t = t) (hne : t ≠ []) :
    ∃ w rest, t = join [' '] (w :: rest) ∧ IsPiece w ∧ ∀ v ∈ rest, IsPiece v := by
  have hpieces := isPiece_of_mem_blankWords t
  cases hwords : blankWords t with
  | nil =>
    rw [collapse, hwords] at h
    exact absurd h.symm hne
  | cons w rest =>
    rw [hwords] at hpieces
    refine ⟨w, rest, ?_, hpieces w List.mem_cons_self,
      fun v hv => hpieces v (List.mem_cons_of_mem _ hv)⟩
    rw [← hwords]
    exact h.symm

/-- **A base name is collapsed**, -/
theorem collapse_canonicalName {t : Text} (h : collapse t = t) :
    collapse (canonicalName t) = canonicalName t := by
  by_cases hne : t = []
  · rw [hne]
    rfl
  · obtain ⟨w, rest, rfl, hw, hrest⟩ := exists_pieces h hne
    rw [canonicalName_join hw hrest]
    exact collapse_join (isPiece_of_mem_mergeTouching hw hrest)

/-- and writing it again changes nothing. -/
theorem canonicalName_canonicalName {t : Text} (h : collapse t = t) :
    canonicalName (canonicalName t) = canonicalName t := by
  by_cases hne : t = []
  · rw [hne]
    rfl
  · obtain ⟨w, rest, rfl, hw, hrest⟩ := exists_pieces h hne
    obtain ⟨x, us, hmerge⟩ := exists_mergeTouching w rest
    have hpieces := isPiece_of_mem_mergeTouching hw hrest
    have hchain := isChain_mergeTouching (w := w) hrest
    rw [hmerge] at hpieces hchain
    rw [canonicalName_join hw hrest, hmerge, canonicalName_join (hpieces _ List.mem_cons_self)
      (fun v hv => hpieces v (List.mem_cons_of_mem _ hv)), mergeTouching_of_isChain hchain]

theorem touches_isTight {w v : Text} (h : touches w v = true) : ∃ c ∈ w ++ v, isTight c = true := by
  simp only [touches, Bool.or_eq_true, Option.any_eq_true] at h
  rcases h with ⟨c, hc, htight⟩ | ⟨c, hc, htight⟩
  · exact ⟨c, List.mem_append_left v (List.mem_of_getLast? hc), htight⟩
  · exact ⟨c, List.mem_append_right w (List.mem_of_mem_head? hc), htight⟩

/-- **A space that is left in a base name stood there before**, if what is in front of it has no
space and no character that takes spaces away. -/
theorem exists_of_canonicalName_eq {t w r : Text} (h : collapse t = t)
    (hname : canonicalName t = w ++ ' ' :: r) (hspace : ' ' ∉ w)
    (htight : ∀ c ∈ w, isTight c = false) : ∃ r', t = w ++ ' ' :: r' := by
  by_cases hne : t = []
  · rw [hne] at hname
    simp [canonicalName] at hname
  · obtain ⟨v, rest, rfl, hv, hrest⟩ := exists_pieces h hne
    rw [canonicalName_join hv hrest] at hname
    -- the first piece of the base name is what stands in front of its first space
    have hfirst {p : Text} {us : List Text} (hp : IsPiece p)
        (h : join [' '] (p :: us) = w ++ ' ' :: r) : p = w := by
      cases us with
      | nil =>
        have h : p = w ++ ' ' :: r := by simpa [join] using h
        exact absurd (h ▸ List.mem_append_right w List.mem_cons_self) hp.space_notMem
      | cons u us =>
        rw [join_cons_cons] at h
        have heq := congrArg (List.takeWhile (· != ' ')) h
        have hall {u : Text} (hu : ' ' ∉ u) (t : Text) :
            (u ++ ' ' :: t).takeWhile (· != ' ') = u := by
          rw [List.takeWhile_append_of_pos fun c hc => by simpa using ne_of_mem_of_not_mem hc hu,
            List.takeWhile_cons_of_neg (by simp), List.append_nil]
        rwa [hall hp.space_notMem, hall hspace] at heq
    cases rest with
    | nil =>
      have h : v = w ++ ' ' :: r := by simpa [join, mergeTouching] using hname
      exact absurd (h ▸ List.mem_append_right w List.mem_cons_self) hv.space_notMem
    | cons u rest =>
      have hpieces := isPiece_of_mem_mergeTouching hv hrest
      cases htouches : touches v u with
      | true =>
        rw [mergeTouching, if_pos htouches] at hname hpieces
        obtain ⟨x, us, hmerge⟩ := exists_mergeTouching (v ++ u) rest
        rw [hmerge] at hname hpieces
        obtain ⟨c, hc, hc'⟩ := touches_isTight htouches
        have hmem : c ∈ w := hfirst (hpieces _ List.mem_cons_self) hname ▸ List.mem_append_left x hc
        rw [htight c hmem] at hc'
        cases hc'
      | false =>
        rw [mergeTouching, htouches, if_neg Bool.false_ne_true] at hname
        exact ⟨_, by rw [join_cons_cons, hfirst hv hname]⟩

/-! ### The end of a base name -/

theorem canonicalName_concat {t : Text} {c : Char} (hc : c ≠ ' ') (htight : isTight c = false) :
    canonicalName (t ++ [c]) = canonicalName t ++ [c] := by
  rw [canonicalName, List.foldl_append, List.foldl_cons, List.foldl_nil,
    tighten_of_ne_space hc (by simp [htight]), List.reverse_cons]
  rfl

/-- The last character stays the last one, unless it is a space. -/
theorem exists_canonicalName_concat (t : Text) {c : Char} (hc : c ≠ ' ') :
    ∃ a, canonicalName (t ++ [c]) = a ++ [c] := by
  rw [canonicalName, List.foldl_append, List.foldl_cons, List.foldl_nil]
  cases htight : isTight c with
  | true => exact ⟨_, by rw [tighten, if_pos htight, List.reverse_cons]⟩
  | false =>
    exact ⟨_, by rw [tighten_of_ne_space hc (by simp [htight]), List.reverse_cons]⟩

/-- A space at the end is written, unless the text in front of it makes it superfluous. -/
theorem canonicalName_concat_space (t : Text) :
    canonicalName (t ++ [' ']) = canonicalName t ++ [' '] ∨
      canonicalName (t ++ [' ']) = canonicalName t ∧
        (canonicalName t).getLast?.any isTight = true := by
  have hhead : (canonicalName t).getLast? = (t.foldl tighten []).head? := List.getLast?_reverse
  rw [hhead, canonicalName, List.foldl_append, List.foldl_cons, List.foldl_nil, tighten,
    isTight_space, if_neg Bool.false_ne_true]
  split
  · rename_i h
    exact Or.inr ⟨rfl, h.2⟩
  · exact Or.inl (by rw [List.reverse_cons]; rfl)

/-- **The last plain characters** of a base name stood at the end before. -/
theorem exists_of_canonicalName_eq_append {t x w : Text} (h : canonicalName t = x ++ w)
    (hw : ∀ c ∈ w, c ≠ ' ' ∧ isTight c = false) : ∃ a, t = a ++ w ∧ canonicalName a = x := by
  induction w using List.reverseRecOn generalizing t with
  | nil => exact ⟨t, by rw [List.append_nil], by rw [h, List.append_nil]⟩
  | append_singleton w d ih =>
    obtain ⟨hd, hplain⟩ := hw d (by simp)
    have hlast : (canonicalName t).getLast? = some d := by rw [h]; simp
    rcases List.eq_nil_or_concat t with rfl | ⟨t, e, rfl⟩
    · cases hlast
    · rw [List.concat_eq_append] at h hlast ⊢
      have he : e = d := by
        by_cases he : e = ' '
        · rw [he] at hlast
          rcases canonicalName_concat_space t with hspace | ⟨hspace, htight⟩
          · rw [hspace] at hlast
            exact absurd (by simpa using hlast.symm) hd
          · rw [hspace] at hlast
            rw [hlast] at htight
            exact absurd (hplain ▸ htight) Bool.false_ne_true
        · obtain ⟨a, ha⟩ := exists_canonicalName_concat t he
          rw [ha] at hlast
          simpa using hlast
      subst he
      rw [canonicalName_concat hd hplain, ← List.append_assoc] at h
      obtain ⟨a, rfl, ha⟩ := ih (List.append_cancel_right h) fun c hc => hw c (by simp [hc])
      exact ⟨a, by rw [List.append_assoc], ha⟩

/-- Behind a space or a star that ends a base name stood one of the two. -/
theorem exists_of_canonicalName_eq_concat {t x : Text} {c : Char} (h : canonicalName t = x ++ [c])
    (hc : c = ' ' ∨ c = '*') : ∃ a e, t = a ++ [e] ∧ (e = ' ' ∨ e = '*') := by
  rcases List.eq_nil_or_concat t with rfl | ⟨t, e, rfl⟩
  · simp [canonicalName] at h
  · refine ⟨t, e, List.concat_eq_append, ?_⟩
    by_cases he : e = ' '
    · exact Or.inl he
    · obtain ⟨a, ha⟩ := exists_canonicalName_concat t he
      rw [List.concat_eq_append, ha] at h
      have hec : e = c := by simpa using (List.append_inj' h rfl).2
      exact Or.inr (hc.resolve_left (hec ▸ he) ▸ hec)

/-- The last character of a collapsed text is the last one of its base name. -/
theorem getLast?_canonicalName {t : Text} (h : collapse t = t) :
    (canonicalName t).getLast? = t.getLast? := by
  rcases List.eq_nil_or_concat t with rfl | ⟨a, c, rfl⟩
  · rfl
  · rw [List.concat_eq_append] at h ⊢
    have hc : isBlank c = false := (not_isBlank_ends_of_collapse h).2 c (by simp)
    have hspace : c ≠ ' ' := fun he => by rw [he, isBlank_space] at hc; cases hc
    obtain ⟨x, hx⟩ := exists_canonicalName_concat a hspace
    rw [hx, List.getLast?_concat, List.getLast?_concat]

/-- Only spaces are taken away. -/
theorem filter_canonicalName {p : Char → Bool} (hp : p ' ' = false) (t : Text) :
    (canonicalName t).filter p = t.filter p := by
  have hdrop (written : Text) : (written.dropWhile (· == ' ')).filter p = written.filter p := by
    induction written with
    | nil => rfl
    | cons c r ih =>
      rw [List.dropWhile_cons]
      split
      · rename_i hc
        rw [ih, eq_of_beq hc, List.filter_cons_of_neg (by simp [hp])]
      · rfl
  have hstep (written : Text) (c : Char) :
      (tighten written c).filter p = (c :: written).filter p := by
    unfold tighten
    split
    · rw [List.filter_cons, hdrop, List.filter_cons]
    · split
      · rename_i h
        rw [h.1, List.filter_cons_of_neg (by simp [hp])]
      · rfl
  have hfold (written : Text) :
      (t.foldl tighten written).filter p = (t.filter p).reverse ++ written.filter p := by
    induction t generalizing written with
    | nil => rfl
    | cons c r ih =>
      rw [List.foldl_cons, ih, hstep]
      cases hc : p c <;> simp [hc]
  rw [canonicalName, List.filter_reverse, hfold [], List.filter_nil, List.append_nil,
    List.reverse_reverse]

theorem canonicalName_eq_nil {t : Text} (h : collapse t = t) (hnil : canonicalName t = []) :
    t = [] := by
  rw [← List.getLast?_eq_none_iff, ← getLast?_canonicalName h, hnil, List.getLast?_nil]

end CommonHeaders.TypeRef
