import CommonHeaders.Proofs.BaseNames
import CommonHeaders.Proofs.Identifiers
import CommonHeaders.Proofs.TypeEquivalence

/-! # Types that are printed can be read

A type that was read has its qualifiers in front, each once, and a base name of which nothing more
can be taken off: no qualifier stands before its first space, and none behind its last space or
star, unless a star of the pointer follows. So the text it is printed as is read the same way, with
one exception: a pointer whose base name is itself spelled like a qualifier.

* `Printable`: what is known of a type that was read; `printable_parse`.
* `parse_render`: it is read back from its text, unless it is such a pointer.
* `name_parse_render`: and such a pointer loses its base name. -/

namespace CommonHeaders

open Text

/-! ### Spellings -/

namespace Qualifier

theorem ofWord?_spelling (q : Qualifier) : ofWord? q.spelling = some q := by cases q <;> decide

theorem isName_spellings (q : Qualifier) : ∀ s ∈ q.spellings, IsName s.toList := by
  cases q <;> decide

/-- Every spelling of a qualifier is a name. -/
theorem isName_of_ofWord? {w : Text} {q : Qualifier} (h : ofWord? w = some q) : IsName w := by
  obtain ⟨s, hs, hw⟩ := List.any_eq_true.mp (List.find?_eq_some_iff_append.mp h).1
  have hw : s.toList = w := by simpa using hw
  exact hw ▸ isName_spellings q s hs

/-- A word with a space or a star in it is no qualifier. -/
theorem ofWord?_eq_none_of_mem {w : Text} {c : Char} (hc : c ∈ w) (h : c = ' ' ∨ c = '*') :
    ofWord? w = none := by
  refine Option.eq_none_iff_forall_ne_some.mpr fun q hq => ?_
  have hchar := (isName_of_ofWord? hq).chars c hc
  rcases h with rfl | rfl <;> exact absurd hchar (by decide)

/-- A list without repeats is put together as it is. -/
theorem foldl_addTo_of_nodup {l qs : List Qualifier} (h : (qs ++ l).Nodup) :
    l.foldl addTo qs = qs ++ l := by
  induction l generalizing qs with
  | nil => rw [List.append_nil, List.foldl_nil]
  | cons q rest ih =>
    have hq : q ∉ qs := fun hmem =>
      (List.nodup_append.mp h).2.2 q hmem q List.mem_cons_self rfl
    rw [List.append_cons] at h
    rw [List.foldl_cons, addTo, if_neg hq, ih h, ← List.append_cons]

end Qualifier

namespace TypeRef

/-! ### Texts of which no qualifier can be taken off -/

/-- No qualifier stands in front of the first space. -/
def OpensPlain (t : Text) : Prop := ∀ w r, t = w ++ ' ' :: r → Qualifier.ofWord? w = none

/-- No qualifier stands behind the last space or star. -/
def EndsPlain (t : Text) : Prop :=
  ∀ a c w, t = a ++ c :: w → c = ' ' ∨ c = '*' → Qualifier.ofWord? w = none

theorem isTight_of_isIdentChar {c : Char} (h : isIdentChar c = true) : isTight c = false :=
  eq_false_of_kind (l := ['*', '<', '>', ',']) (fun d hd => by simpa [isTight, or_assoc] using hd)
    (by decide) h

theorem OpensPlain.of_append {a b : Text} (h : OpensPlain (a ++ b)) : OpensPlain a := fun w r hr =>
  h w (r ++ b) (by rw [hr, List.append_assoc]; rfl)

theorem OpensPlain.canonicalName {t : Text} (h : OpensPlain t) (hcollapse : collapse t = t) :
    OpensPlain (canonicalName t) := by
  intro w r hr
  refine Option.eq_none_iff_forall_ne_some.mpr fun q hq => ?_
  obtain ⟨r', hr'⟩ := exists_of_canonicalName_eq hcollapse hr
    (Qualifier.isName_of_ofWord? hq).isPiece.space_notMem
    fun c hc => isTight_of_isIdentChar ((Qualifier.isName_of_ofWord? hq).chars c hc)
  rw [h w r' hr'] at hq
  cases hq

theorem EndsPlain.canonicalName {t : Text} (h : EndsPlain t) : EndsPlain (canonicalName t) := by
  intro a c w hw hc
  refine Option.eq_none_iff_forall_ne_some.mpr fun q hq => ?_
  have hplain : ∀ d ∈ w, d ≠ ' ' ∧ isTight d = false := fun d hd =>
    ⟨fun he => (Qualifier.isName_of_ofWord? hq).isPiece.space_notMem (he ▸ hd),
      isTight_of_isIdentChar ((Qualifier.isName_of_ofWord? hq).chars d hd)⟩
  rw [List.append_cons] at hw
  obtain ⟨b, hb, hname⟩ := exists_of_canonicalName_eq_append hw hplain
  obtain ⟨b', e, rfl, he⟩ := exists_of_canonicalName_eq_concat hname hc
  rw [h b' e w (by rw [hb, ← List.append_cons]) he] at hq
  cases hq

theorem endsPlain_concat_star (t : Text) : EndsPlain (t ++ ['*']) := by
  intro a c w hw _
  rcases List.eq_nil_or_concat w with rfl | ⟨w, d, rfl⟩
  · exact ofWord?_nil
  · have hd : '*' = d := by
      have h := congrArg List.getLast? hw
      rwa [List.getLast?_concat, List.concat_eq_append, ← List.cons_append, ← List.append_assoc,
        List.getLast?_concat, Option.some.injEq] at h
    exact Qualifier.ofWord?_eq_none_of_mem (c := d) (by simp) (Or.inr hd.symm)

/-! ### Taking qualifiers off -/

/-- The words behind the qualifiers: the first is no qualifier, or it is the only one. -/
theorem leadingQualifiers_words (ws : List Text) :
    (leadingQualifiers ws).2 <:+ ws ∧ (ws ≠ [] → (leadingQualifiers ws).2 ≠ []) ∧
      ∀ w v r, (leadingQualifiers ws).2 = w :: v :: r → Qualifier.ofWord? w = none := by
  fun_induction leadingQualifiers ws with
  | case1 word next rest q hq qs words hrest ih =>
    rw [hrest] at ih
    exact ⟨ih.1.trans (List.suffix_cons _ _), fun _ => ih.2.1 (by simp), ih.2.2⟩
  | case2 word next rest hnone =>
    refine ⟨List.suffix_rfl, id, fun w v r h => ?_⟩
    rw [← (List.cons.inj h).1]
    exact hnone
  | case3 words hshort =>
    exact ⟨List.suffix_rfl, id, fun w v r h => absurd h (hshort w v r)⟩

theorem leadingQualifiers_cons {w : Text} {q : Qualifier} (h : Qualifier.ofWord? w = some q)
    {ws : List Text} (hne : ws ≠ []) :
    leadingQualifiers (w :: ws) = (q :: (leadingQualifiers ws).1, (leadingQualifiers ws).2) := by
  obtain ⟨next, rest, rfl⟩ := List.exists_cons_of_ne_nil hne
  simp only [leadingQualifiers, h]

theorem leadingQualifiers_of_first {ws : List Text}
    (h : ∀ w v r, ws = w :: v :: r → Qualifier.ofWord? w = none) :
    leadingQualifiers ws = ([], ws) := by
  match ws with
  | [] => rfl
  | [w] => rfl
  | w :: v :: r => simp only [leadingQualifiers, h w v r rfl]

/-- **Qualifiers in front of other words** are taken off. -/
theorem leadingQualifiers_append {α : Type} {word : α → Text} {qualifier : α → Qualifier}
    (h : ∀ a, Qualifier.ofWord? (word a) = some (qualifier a)) (l : List α) {ws : List Text}
    (hne : ws ≠ []) :
    leadingQualifiers (l.map word ++ ws) =
      (l.map qualifier ++ (leadingQualifiers ws).1, (leadingQualifiers ws).2) := by
  induction l with
  | nil => rfl
  | cons a rest ih =>
    rw [List.map_cons, List.cons_append, leadingQualifiers_cons (h a)
      (List.append_ne_nil_of_right_ne_nil _ hne), ih]
    rfl

theorem not_isTokenChar {c : Char} (h : c = ' ' ∨ c = '*') : isTokenChar c = false := by
  rcases h with rfl | rfl <;> decide

/-- The last word is what stands behind the last space or star. -/
theorem lastToken_append {a w : Text} {c : Char} (hc : c = ' ' ∨ c = '*')
    (hw : ∀ d ∈ w, isTokenChar d = true) : lastToken (a ++ c :: w) = w := by
  rw [lastToken, List.reverse_append, List.reverse_cons, List.append_assoc,
    List.takeWhile_append_of_pos (by simpa using hw), List.singleton_append,
    List.takeWhile_cons_of_neg (by simp [not_isTokenChar hc]), List.append_nil,
    List.reverse_reverse]

/-- In front of the last word stands a space or a star. -/
theorem exists_beforeLastToken {t : Text} (h : beforeLastToken t ≠ []) :
    ∃ a c, beforeLastToken t = a ++ [c] ∧ (c = ' ' ∨ c = '*') := by
  obtain ⟨a, c, ha, hc⟩ := exists_concat_of_dropEndWhile h
  refine ⟨a, c, ha, ?_⟩
  simpa [isTokenChar, or_iff_not_imp_left] using hc

/-- A text without a qualifier behind its last space or star, by its last word. -/
theorem endsPlain_iff {t : Text} :
    EndsPlain t ↔ beforeLastToken t = [] ∨ Qualifier.ofWord? (lastToken t) = none := by
  constructor
  · intro h
    by_cases hbefore : beforeLastToken t = []
    · exact Or.inl hbefore
    · obtain ⟨a, c, ha, hc⟩ := exists_beforeLastToken hbefore
      refine Or.inr (h a c (lastToken t) ?_ hc)
      rw [List.append_cons, ← ha, beforeLastToken_append_lastToken]
  · rintro h a c w rfl hc
    by_cases hw : ∀ d ∈ w, isTokenChar d = true
    · rw [lastToken_append hc hw] at h
      refine h.resolve_left fun hbefore => ?_
      have hcut := beforeLastToken_append_lastToken (a ++ c :: w)
      rw [hbefore, lastToken_append hc hw] at hcut
      have hlen := congrArg List.length hcut
      simp only [List.nil_append, List.length_append, List.length_cons] at hlen
      omega
    · simp only [not_forall, Bool.not_eq_true] at hw
      obtain ⟨d, hd, hd'⟩ := hw
      exact Qualifier.ofWord?_eq_none_of_mem hd
        (by simpa [isTokenChar, or_iff_not_imp_left] using hd')

/-- **What is left in front of the qualifiers at the end** has none there any more. -/
theorem endsPlain_trailingQualifiers (t : Text) : EndsPlain (trailingQualifiers t).2 := by
  fun_induction trailingQualifiers t with
  | case1 t hbefore => exact endsPlain_iff.mpr (Or.inl hbefore)
  | case2 t hbefore q hq qs rest hrest ih => rwa [hrest] at ih
  | case3 t hbefore hnone => exact endsPlain_iff.mpr (Or.inr hnone)

/-- What is left in front of them is a beginning of the text, trimmed. -/
theorem exists_trimEnd_of_trailingQualifiers (t : Text) :
    ∃ a b, t = a ++ b ∧ (trailingQualifiers t).2 = trimEnd a := by
  fun_induction trailingQualifiers t with
  | case1 t => exact ⟨t, [], (List.append_nil t).symm, rfl⟩
  | case2 t hbefore q hq qs rest hrest ih =>
    obtain ⟨a, b, hab, ha⟩ := ih
    rw [hrest] at ha
    obtain ⟨x, hx, -⟩ := exists_append_trimEnd t
    obtain ⟨y, hy, -⟩ := exists_append_trimEnd (beforeLastToken (trimEnd t))
    refine ⟨a, b ++ y ++ lastToken (trimEnd t) ++ x, ?_, ha⟩
    calc t = beforeLastToken (trimEnd t) ++ lastToken (trimEnd t) ++ x := by
            rw [beforeLastToken_append_lastToken]
            exact hx
      _ = a ++ b ++ y ++ lastToken (trimEnd t) ++ x := by rw [← hab, ← hy]
      _ = _ := by simp only [List.append_assoc]
  | case3 t => exact ⟨t, [], (List.append_nil t).symm, rfl⟩

/-- Something is left if the text does not begin with a blank. -/
theorem trailingQualifiers_ne_nil {t : Text} (hne : t ≠ []) (h : ∀ c ∈ t.head?, isBlank c = false) :
    (trailingQualifiers t).2 ≠ [] := by
  have htrim {u : Text} (hne : u ≠ []) (h : ∀ c ∈ u.head?, isBlank c = false) :
      trimEnd u ≠ [] ∧ (trimEnd u).head? = u.head? := by
    obtain ⟨b, hb, -⟩ := exists_append_trimEnd u
    have hsome : trimEnd u ≠ [] := fun he => by
      obtain ⟨c, r, rfl⟩ := List.exists_cons_of_ne_nil hne
      have hblank := dropEndWhile_eq_nil_iff.mp he c List.mem_cons_self
      rw [h c rfl] at hblank
      cases hblank
    refine ⟨hsome, ?_⟩
    have hhead : (trimEnd u ++ b).head? = (trimEnd u).head? :=
      List.head?_append_of_ne_nil (trimEnd u) hsome
    rw [← hb] at hhead
    exact hhead.symm
  fun_induction trailingQualifiers t with
  | case1 t => exact (htrim hne h).1
  | case2 t hbefore q hq qs rest hrest ih =>
    rw [hrest] at ih
    have hfirst : (beforeLastToken (trimEnd t)).head? = t.head? := by
      have hcut := congrArg List.head? (beforeLastToken_append_lastToken (trimEnd t))
      rwa [List.head?_append_of_ne_nil _ hbefore, (htrim hne h).2] at hcut
    have hbefore' := htrim hbefore (hfirst ▸ h)
    exact ih hbefore'.1 (by rw [hbefore'.2, hfirst]; exact h)
  | case3 t => exact (htrim hne h).1

/-! ### Types that were read -/

/-- **What is known of a type that was read.** -/
structure Printable (r : TypeRef) : Prop where
  nodup : r.qualifiers.Nodup
  collapsed : collapse r.name = r.name
  canonical : TypeRef.canonicalName r.name = r.name
  opensPlain : OpensPlain r.name
  /-- Without a pointer, nothing can be taken off the end. -/
  endsPlain : r.pointer = false → EndsPlain r.name ∧ r.name.getLast? ≠ some '*'
  /-- Without a pointer, qualifiers have a base name. -/
  named : r.pointer = false → r.name = [] → r.qualifiers = []

/-- A type, by what is taken off its words. -/
theorem parse_eq {t base name : Text} {leading trailing : List Qualifier} {words : List Text}
    {pointer : Bool} (hleading : leadingQualifiers (blankWords t) = (leading, words))
    (htrailing : trailingQualifiers (join [' '] words) = (trailing, base))
    (hpointer : splitPointer base = (name, pointer)) :
    parse t =
      ⟨(leading ++ trailing).foldl Qualifier.addTo [], TypeRef.canonicalName name, pointer⟩ := by
  simp only [parse, hleading, htrailing, hpointer]

/-- The beginning of a text that keeps its qualifiers, trimmed, keeps them too. -/
theorem OpensPlain.trimEnd_of_append {a b : Text} (h : OpensPlain (a ++ b)) :
    OpensPlain (trimEnd a) := by
  obtain ⟨x, hx, -⟩ := exists_append_trimEnd a
  rw [hx, List.append_assoc] at h
  exact h.of_append

/-- The words behind the qualifiers, put together, keep what they begin with. -/
theorem opensPlain_join {words : List Text} (hpieces : ∀ w ∈ words, IsPiece w)
    (hfirst : ∀ w v r, words = w :: v :: r → Qualifier.ofWord? w = none) :
    OpensPlain (join [' '] words) := by
  intro w r hr
  refine Option.eq_none_iff_forall_ne_some.mpr fun q hq => ?_
  have hcut := congrArg blankWords hr
  rw [blankWords_join hpieces, blankWords_append_cons isBlank_space,
    blankWords_of_isPiece (Qualifier.isName_of_ofWord? hq).isPiece, List.singleton_append] at hcut
  cases hrest : blankWords r with
  | nil =>
    rw [hcut, hrest] at hr
    have hlen := congrArg List.length hr
    simp [join] at hlen
  | cons v rest =>
    rw [hrest] at hcut
    rw [hfirst w v rest hcut] at hq
    cases hq

/-- Taking off the star of a pointer keeps what a base name begins with. -/
theorem splitPointer_cases {base name : Text} {pointer : Bool}
    (h : splitPointer base = (name, pointer)) (hcollapsed : collapse base = base)
    (hopens : OpensPlain base) :
    collapse name = name ∧ OpensPlain name ∧
      (pointer = false → name = base ∧ base.getLast? ≠ some '*') := by
  unfold splitPointer at h
  split at h
  · rename_i hlast
    obtain ⟨rfl, rfl⟩ := Prod.mk.inj h
    have hcut : base.dropLast ++ ['*'] = base := List.dropLast_append_getLast? '*' hlast
    rw [← hcut] at hcollapsed hopens
    exact ⟨collapse_trimEnd_of_append hcollapsed, hopens.trimEnd_of_append, fun h => by cases h⟩
  · rename_i hlast
    obtain ⟨rfl, rfl⟩ := Prod.mk.inj h
    exact ⟨hcollapsed, hopens, fun _ => ⟨rfl, hlast⟩⟩

/-- A text of which nothing is left is blank. -/
theorem blankWords_eq_nil {t : Text} {leading trailing : List Qualifier} {words : List Text}
    (hleading : leadingQualifiers (blankWords t) = (leading, words))
    (htrailing : trailingQualifiers (join [' '] words) = (trailing, [])) : blankWords t = [] := by
  obtain ⟨hsuffix, hwords, -⟩ := leadingQualifiers_words (blankWords t)
  rw [hleading] at hsuffix hwords
  have hpieces : ∀ w ∈ words, IsPiece w := fun w hw =>
    isPiece_of_mem_blankWords t w (hsuffix.subset hw)
  have hjoin : join [' '] words = [] := by
    by_contra hne
    have hsome := trailingQualifiers_ne_nil hne
      (not_isBlank_ends_of_collapse (collapse_join hpieces)).1
    rw [htrailing] at hsome
    exact hsome rfl
  have hnone : words = [] := by
    have h := congrArg blankWords hjoin
    rwa [blankWords_join hpieces] at h
  by_contra hne
  exact hwords hne hnone

theorem parse_of_blank {t : Text} (h : blankWords t = []) : parse t = ⟨[], [], false⟩ := by
  have hleading : leadingQualifiers (blankWords t) = ([], []) := by
    rw [h]
    rfl
  have htrailing : trailingQualifiers (join [' '] []) = ([], []) := by
    rw [trailingQualifiers]
    rfl
  exact parse_eq hleading htrailing rfl

/-- **What is taken off a text** when a type is read, and what is known of the base name that is
left. -/
theorem exists_of_parse (t : Text) : ∃ leading words trailing base name pointer,
    leadingQualifiers (blankWords t) = (leading, words) ∧
      trailingQualifiers (join [' '] words) = (trailing, base) ∧
      splitPointer base = (name, pointer) ∧ collapse base = base ∧ OpensPlain base := by
  obtain ⟨leading, words, hleading⟩ : ∃ l ws, leadingQualifiers (blankWords t) = (l, ws) :=
    ⟨_, _, rfl⟩
  obtain ⟨trailing, base, htrailing⟩ : ∃ l b, trailingQualifiers (join [' '] words) = (l, b) :=
    ⟨_, _, rfl⟩
  obtain ⟨name, pointer, hpointer⟩ : ∃ n p, splitPointer base = (n, p) := ⟨_, _, rfl⟩
  obtain ⟨hsuffix, -, hfirst⟩ := leadingQualifiers_words (blankWords t)
  rw [hleading] at hsuffix hfirst
  have hpieces : ∀ w ∈ words, IsPiece w := fun w hw =>
    isPiece_of_mem_blankWords t w (hsuffix.subset hw)
  obtain ⟨a, b, hab, hbase⟩ := exists_trimEnd_of_trailingQualifiers (join [' '] words)
  rw [htrailing] at hbase
  obtain rfl : base = trimEnd a := hbase
  refine ⟨leading, words, trailing, trimEnd a, name, pointer, hleading, htrailing, hpointer, ?_, ?_⟩
  · exact collapse_trimEnd_of_append (hab ▸ collapse_join hpieces)
  · exact (hab ▸ opensPlain_join hpieces hfirst).trimEnd_of_append

/-- **Only of a blank text nothing is left**: no base name and no pointer. -/
theorem blankWords_eq_nil_of_parse {t : Text} (hnil : (parse t).name = [])
    (hno : (parse t).pointer = false) : blankWords t = [] := by
  obtain ⟨leading, words, trailing, base, name, pointer, hleading, htrailing, hpointer, hcollapsed,
    hopens⟩ := exists_of_parse t
  rw [parse_eq hleading htrailing hpointer] at hnil hno
  obtain ⟨hcollapsed', -, hplain⟩ := splitPointer_cases hpointer hcollapsed hopens
  obtain ⟨rfl, -⟩ := hplain hno
  rw [canonicalName_eq_nil hcollapsed' hnil] at htrailing
  exact blankWords_eq_nil hleading htrailing

/-- **A type that was read is printable.** -/
theorem printable_parse (t : Text) : (parse t).Printable := by
  have hnamed : (parse t).pointer = false → (parse t).name = [] → (parse t).qualifiers = [] := by
    intro hno hnil
    rw [parse_of_blank (blankWords_eq_nil_of_parse hnil hno)]
  obtain ⟨leading, words, trailing, base, name, pointer, hleading, htrailing, hpointer, hcollapsed,
    hopens⟩ := exists_of_parse t
  obtain ⟨hcollapsed', hopens', hplain⟩ := splitPointer_cases hpointer hcollapsed hopens
  have hends : EndsPlain base := by
    have h := endsPlain_trailingQualifiers (join [' '] words)
    rwa [htrailing] at h
  rw [parse_eq hleading htrailing hpointer] at hnamed ⊢
  exact
    { nodup := Qualifier.nodup_foldl_addTo _ List.nodup_nil
      collapsed := collapse_canonicalName hcollapsed'
      canonical := canonicalName_canonicalName hcollapsed'
      opensPlain := hopens'.canonicalName hcollapsed'
      endsPlain := fun hno => by
        obtain ⟨rfl, hlast⟩ := hplain hno
        exact ⟨hends.canonicalName, by rwa [getLast?_canonicalName hcollapsed']⟩
      named := hnamed }

/-! ### Reading what was printed -/

/-- The words of a type that is printed. -/
theorem blankWords_qualified (qs : List Qualifier) (t : Text) :
    blankWords (qs.flatMap (fun q => q.spelling ++ [' ']) ++ t) =
      qs.map Qualifier.spelling ++ blankWords t := by
  have hspace : ∀ c ∈ [' '], isBlank c = true := by simp
  have hpiece (q : Qualifier) : IsPiece q.spelling :=
    (Qualifier.isName_of_ofWord? (Qualifier.ofWord?_spelling q)).isPiece
  exact blankWords_flatMap_append (fun q _ => ⟨hpiece q, hspace, List.cons_ne_nil _ _⟩) t

theorem trailingQualifiers_of_endsPlain {t : Text} (h : EndsPlain t) (htrim : trimEnd t = t) :
    trailingQualifiers t = ([], t) := by
  rw [trailingQualifiers, htrim]
  rcases endsPlain_iff.mp h with hbefore | hnone
  · rw [if_pos hbefore]
  · split
    · rfl
    · split
      · rename_i q hq
        rw [hnone] at hq
        cases hq
      · rfl

/-- **A type that is printed and read again**, by the words that stand behind its qualifiers. -/
theorem parse_render_eq {r : TypeRef} {ws words : List Text} {qs : List Qualifier} {name : Text}
    {pointer : Bool}
    (hws : blankWords (r.name ++ if r.pointer then " *".toList else []) = ws) (hne : ws ≠ [])
    (hleading : leadingQualifiers ws = (qs, words)) (hends : EndsPlain (join [' '] words))
    (hpointer : splitPointer (join [' '] words) = (name, pointer)) :
    parse r.render =
      ⟨(r.qualifiers ++ qs).foldl Qualifier.addTo [], TypeRef.canonicalName name, pointer⟩ := by
  have hleading' : leadingQualifiers (blankWords r.render) = (r.qualifiers ++ qs, words) := by
    rw [render, List.append_assoc, blankWords_qualified, hws,
      leadingQualifiers_append Qualifier.ofWord?_spelling _ hne, List.map_id', hleading]
  have htrim : trimEnd (join [' '] words) = join [' '] words := by
    refine trimEnd_of_collapse (collapse_join fun w hw => ?_)
    have hsuffix := (leadingQualifiers_words ws).1
    rw [hleading] at hsuffix
    exact isPiece_of_mem_blankWords _ w (hws ▸ hsuffix.subset hw)
  have htrailing := trailingQualifiers_of_endsPlain hends htrim
  rw [parse_eq hleading' htrailing hpointer, List.append_nil]

/-- The star of a pointer is a word of its own. -/
theorem blankWords_star (name : Text) :
    blankWords (name ++ " *".toList) = blankWords name ++ [['*']] := by
  have hstar : " *".toList = [' ', '*'] := by decide
  rw [hstar, blankWords_append_cons isBlank_space]
  exact congrArg _ (by decide)

theorem splitPointer_concat_star {a name : Text} (h : trimEnd a = name) :
    splitPointer (a ++ ['*']) = (name, true) := by
  rw [splitPointer, if_pos (List.getLast?_concat), List.dropLast_concat, h]

/-- **A type that was read is read back from its text** if it is no pointer, -/
theorem Printable.parse_render_plain {r : TypeRef} (h : r.Printable) (hno : r.pointer = false) :
    parse r.render = r := by
  obtain ⟨qualifiers, name, pointer⟩ := r
  obtain rfl : pointer = false := hno
  have hqualifiers := Qualifier.foldl_addTo_of_nodup (List.nil_append qualifiers ▸ h.nodup)
  have hcollapsed : collapse name = name := h.collapsed
  obtain ⟨hends, hlast⟩ : EndsPlain name ∧ name.getLast? ≠ some '*' := h.endsPlain rfl
  by_cases hnil : name = []
  · obtain rfl : name = [] := hnil
    obtain rfl : qualifiers = [] := h.named rfl rfl
    exact parse_of_blank rfl
  · obtain ⟨w, rest, hpieces, hw, hrest⟩ := exists_pieces hcollapsed hnil
    have hwords : blankWords (name ++ []) = w :: rest := by
      rw [List.append_nil, hpieces, blankWords_join (by simpa using ⟨hw, hrest⟩)]
    have hfirst : ∀ w' v r, w :: rest = w' :: v :: r → Qualifier.ofWord? w' = none := by
      intro w' v r hr
      exact h.opensPlain w' (join [' '] (v :: r)) (by rw [hpieces, hr, join_cons_cons])
    have hpointer : splitPointer name = (name, false) := by rw [splitPointer, if_neg hlast]
    rw [parse_render_eq hwords (List.cons_ne_nil _ _) (leadingQualifiers_of_first hfirst)
      (hpieces ▸ hends) (hpieces ▸ hpointer), List.append_nil, hqualifiers, ← hpieces, h.canonical]
    rfl

/-- The words of a pointer, put together again. -/
theorem join_blankWords_star {name : Text} (h : collapse name = name) :
    ∃ a, join [' '] (blankWords name ++ [['*']]) = a ++ ['*'] ∧ trimEnd a = name := by
  have hjoin : join [' '] (blankWords name) = name := h
  by_cases hnone : blankWords name = []
  · rw [hnone] at hjoin ⊢
    exact ⟨[], by simp [join], hjoin⟩
  · refine ⟨name ++ [' '], ?_, ?_⟩
    · rw [join_concat hnone, hjoin, List.append_assoc, List.singleton_append]
    · rw [trimEnd_append_blank name isBlank_space, trimEnd_of_collapse h]

/-- or a pointer whose base name is no qualifier. -/
theorem Printable.parse_render_pointer {r : TypeRef} (h : r.Printable) (hpointer : r.pointer = true)
    (hname : Qualifier.ofWord? r.name = none) : parse r.render = r := by
  obtain ⟨qualifiers, name, pointer⟩ := r
  obtain rfl : pointer = true := hpointer
  have hqualifiers := Qualifier.foldl_addTo_of_nodup (List.nil_append qualifiers ▸ h.nodup)
  have hfirst : ∀ w v rest, blankWords name ++ [['*']] = w :: v :: rest →
      Qualifier.ofWord? w = none := by
    intro w v rest hwords
    have hjoin : join [' '] (blankWords name) = name := h.collapsed
    match hblank : blankWords name with
    | [] =>
      rw [hblank] at hwords
      cases hwords
    | [w'] =>
      rw [hblank] at hwords hjoin
      obtain ⟨rfl, -⟩ := List.cons.inj hwords
      have hw : w' = name := by simpa [join] using hjoin
      rw [hw]
      exact hname
    | w' :: v' :: rest' =>
      rw [hblank] at hwords hjoin
      obtain ⟨rfl, -⟩ := List.cons.inj hwords
      exact h.opensPlain w' _ (by rw [← hjoin, join_cons_cons])
  obtain ⟨a, ha, htrim⟩ := join_blankWords_star h.collapsed
  rw [parse_render_eq (blankWords_star name) (by simp) (leadingQualifiers_of_first hfirst)
    (ha ▸ endsPlain_concat_star a) (ha ▸ splitPointer_concat_star htrim), List.append_nil,
    hqualifiers, h.canonical]
  rfl

/-- **A pointer to a qualifier** loses its base name when it is printed and read. -/
theorem name_parse_render_of_qualifier {r : TypeRef} {q : Qualifier} (hpointer : r.pointer = true)
    (hname : Qualifier.ofWord? r.name = some q) : (parse r.render).name = [] := by
  obtain ⟨qualifiers, name, pointer⟩ := r
  obtain rfl : pointer = true := hpointer
  have hwords := blankWords_star name
  rw [blankWords_of_isPiece (Qualifier.isName_of_ofWord? hname).isPiece] at hwords
  have hleading := leadingQualifiers_cons hname (List.cons_ne_nil ['*'] [])
  rw [parse_render_eq hwords (List.cons_ne_nil _ _) hleading (endsPlain_concat_star [])
    (splitPointer_concat_star (a := []) rfl)]
  rfl

/-- Is it a pointer to a qualifier? -/
def PointsToQualifier (r : TypeRef) : Prop :=
  r.pointer = true ∧ (Qualifier.ofWord? r.name).isSome = true

instance (r : TypeRef) : Decidable r.PointsToQualifier := inferInstanceAs (Decidable (_ ∧ _))

/-- **A type that was read is read back from its text** exactly if it is no pointer to a
qualifier. -/
theorem parse_render_parse_iff (t : Text) :
    parse (parse t).render = parse t ↔ ¬ (parse t).PointsToQualifier := by
  have h := printable_parse t
  constructor
  · rintro heq ⟨hpointer, hsome⟩
    obtain ⟨q, hq⟩ := Option.isSome_iff_exists.mp hsome
    have hnil := name_parse_render_of_qualifier hpointer hq
    rw [heq] at hnil
    rw [hnil, ofWord?_nil] at hq
    cases hq
  · intro hplain
    cases hpointer : (parse t).pointer with
    | false => exact h.parse_render_plain hpointer
    | true =>
      refine h.parse_render_pointer hpointer (Option.eq_none_iff_forall_ne_some.mpr fun q hq => ?_)
      exact hplain ⟨hpointer, Option.isSome_iff_exists.mpr ⟨q, hq⟩⟩

end TypeRef

end CommonHeaders
