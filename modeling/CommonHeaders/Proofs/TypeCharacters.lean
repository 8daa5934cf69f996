import CommonHeaders.Proofs.Groups
import CommonHeaders.Proofs.MacroNames
import CommonHeaders.Proofs.PrintedTypes

/-! # What a type keeps when it is printed

Reading a type takes qualifiers and a star off a text and moves blanks about; printing it writes
qualifiers in front and the star behind. So all characters of other kinds keep their order, and the
only identifiers that come in are the spellings of qualifiers.

* `filter_render_parse`, `mem_render_iff`, `mem_render_parse_iff`: the characters that are kept.
* `encloses_render_parse`: a type from between parentheses is printed as a text that may stand
  there.
* `identifiers_render`, `noMacros_render_parse`: the identifiers of a printed type.
* `blankWords_render_parse_ne_nil`, `collapse_render`: the blanks of a printed type. -/

namespace CommonHeaders.TypeRef

open Text Attribute

/-! ### Characters -/

/-- **A kind of characters that types keep**: none is blank, none stands in an identifier, and the
star is not of this kind. -/
structure IsKept (p : Char → Bool) : Prop where
  blank : ∀ c, isBlank c = true → p c = false
  ident : ∀ c, isIdentChar c = true → p c = false
  star : p '*' = false

section Kept

variable {p : Char → Bool} (hp : IsKept p)
include hp

theorem filter_of_ofWord? {w : Text} {q : Qualifier} (h : Qualifier.ofWord? w = some q) :
    w.filter p = [] := by
  refine List.filter_eq_nil_iff.mpr fun c hc => ?_
  rw [hp.ident c ((Qualifier.isName_of_ofWord? h).chars c hc)]
  exact Bool.false_ne_true

theorem filter_leadingQualifiers (ws : List Text) :
    (leadingQualifiers ws).2.flatMap (List.filter p) = ws.flatMap (List.filter p) := by
  fun_induction leadingQualifiers ws with
  | case1 word next rest q hq qs words hrest ih =>
    rw [hrest] at ih
    rw [List.flatMap_cons, filter_of_ofWord? hp hq]
    exact ih
  | case2 => rfl
  | case3 => rfl

theorem filter_trailingQualifiers (t : Text) :
    (trailingQualifiers t).2.filter p = t.filter p := by
  have htrim (u : Text) : (trimEnd u).filter p = u.filter p := filter_trimEnd hp.blank u
  fun_induction trailingQualifiers t with
  | case1 t => exact htrim t
  | case2 t hbefore q hq qs rest hrest ih =>
    rw [hrest, htrim] at ih
    have hcut := congrArg (List.filter p) (beforeLastToken_append_lastToken (trimEnd t))
    rw [List.filter_append, filter_of_ofWord? hp hq, List.append_nil, htrim] at hcut
    exact ih.trans hcut
  | case3 t => exact htrim t

theorem filter_splitPointer (t : Text) : (splitPointer t).1.filter p = t.filter p := by
  unfold splitPointer
  split
  · rename_i hlast
    have hcut := congrArg (List.filter p) (List.dropLast_append_getLast? '*' hlast)
    rw [List.filter_append, List.filter_cons_of_neg (by simp [hp.star])] at hcut
    exact (filter_trimEnd hp.blank _).trans ((List.append_nil _).symm.trans hcut)
  · rfl

/-- Reading a type keeps them, all of them in its base name, -/
theorem filter_name_parse (t : Text) : (parse t).name.filter p = t.filter p := by
  have hspace : p ' ' = false := hp.blank ' ' isBlank_space
  change (canonicalName (splitPointer (trailingQualifiers (join [' ']
    (leadingQualifiers (blankWords t)).2)).2).1).filter p = _
  rw [filter_canonicalName hspace, filter_splitPointer hp, filter_trailingQualifiers hp,
    filter_join hspace, filter_leadingQualifiers hp, ← filter_join hspace]
  exact filter_collapse hp.blank t

/-- and printing it writes no other ones. -/
theorem filter_render (r : TypeRef) : r.render.filter p = r.name.filter p := by
  have hspace : p ' ' = false := hp.blank ' ' isBlank_space
  have hqualifiers : (r.qualifiers.flatMap fun q => q.spelling ++ [' ']).filter p = [] := by
    rw [List.filter_flatMap]
    refine List.flatMap_eq_nil_iff.mpr fun q _ => ?_
    rw [List.filter_append, filter_of_ofWord? hp (Qualifier.ofWord?_spelling q),
      List.filter_cons_of_neg (by simp [hspace])]
    rfl
  have hstar : (if r.pointer then " *".toList else []).filter p = [] := by
    have hchars : " *".toList = [' ', '*'] := by decide
    split
    · simp [hchars, hspace, hp.star]
    · rfl
  rw [render, List.filter_append, List.filter_append, hqualifiers, hstar, List.append_nil,
    List.nil_append]

/-- **Reading and printing a type keep** the characters of the kind. -/
theorem filter_render_parse (t : Text) : (parse t).render.filter p = t.filter p := by
  rw [filter_render hp, filter_name_parse hp]

end Kept

/-- Characters that are listed are kept. -/
theorem isKept_of_mem {p : Char → Bool} {l : List Char} (hl : ∀ c, p c = true → c ∈ l)
    (hblank : l.any isBlank = false) (hident : l.any isIdentChar = false) (hstar : p '*' = false) :
    IsKept p :=
  ⟨fun _ h => eq_false_of_kind hl hblank h, fun _ h => eq_false_of_kind hl hident h, hstar⟩

/-- Texts with the same characters of a kind hold the same ones. -/
theorem mem_iff_of_filter {c : Char} {s t : Text}
    (h : s.filter (· == c) = t.filter (· == c)) : c ∈ s ↔ c ∈ t := by
  have hmem := congrArg (c ∈ ·) h
  simpa [List.mem_filter] using hmem

/-- **A character that is kept** stands in a printed type exactly if it stands in the base name, -/
theorem mem_render_iff {c : Char} (h : IsKept (· == c)) (r : TypeRef) :
    c ∈ r.render ↔ c ∈ r.name := mem_iff_of_filter (filter_render h r)

/-- and exactly if it stands in the text that was read. -/
theorem mem_render_parse_iff {c : Char} (h : IsKept (· == c)) (t : Text) :
    c ∈ (parse t).render ↔ c ∈ t := mem_iff_of_filter (filter_render_parse h t)

theorem isKept_char {c : Char} (hblank : isBlank c = false) (hident : isIdentChar c = false)
    (hstar : c ≠ '*') : IsKept (· == c) :=
  isKept_of_mem (l := [c]) (fun d hd => by simpa using hd) (by simpa using hblank)
    (by simpa using hident) (by simpa using hstar.symm)

/-- Is it a parenthesis? -/
def isParen (c : Char) : Bool := c == '(' || c == ')'

theorem isKept_isParen : IsKept isParen :=
  isKept_of_mem (l := ['(', ')']) (fun c h => by simpa [isParen] using h) (by decide) (by decide)
    (by decide)

/-- **A type from between parentheses** is printed as a text that may stand there. -/
theorem encloses_render_parse {inner : Text} (h : Encloses '(' ')' inner) :
    Encloses '(' ')' (parse inner).render := by
  rw [← encloses_filter (p := isParen) rfl rfl] at h ⊢
  rwa [filter_render_parse isKept_isParen]

/-! ### Identifiers -/

/-- Of the text in front of the qualifiers at its end, every identifier is one of the text. -/
theorem mem_identifiers_trailingQualifiers {t n : Text}
    (h : n ∈ identifiers (trailingQualifiers t).2) : n ∈ identifiers t := by
  fun_induction trailingQualifiers t with
  | case1 t => rwa [identifiers_trimEnd] at h
  | case2 t hbefore q hq qs rest hrest ih =>
    obtain ⟨a, c, ha, hc⟩ := exists_beforeLastToken hbefore
    have hother : isIdentChar c = false := by rcases hc with rfl | rfl <;> decide
    have hcut := beforeLastToken_append_lastToken (trimEnd t)
    rw [ha, ← List.append_cons] at hcut
    rw [hrest, identifiers_trimEnd, ha, identifiers_concat hother] at ih
    rw [← identifiers_trimEnd, ← hcut, identifiers_append_cons hother]
    exact List.mem_append_left _ (ih h)
  | case3 t => rwa [identifiers_trimEnd] at h

theorem identifiers_splitPointer (t : Text) : identifiers (splitPointer t).1 = identifiers t := by
  unfold splitPointer
  split
  · rename_i hlast
    have hcut := identifiers_concat (c := '*') (by decide) t.dropLast
    rw [List.dropLast_append_getLast? '*' hlast] at hcut
    rw [identifiers_trimEnd, hcut]
  · rfl

/-- Every character of a base name is written behind the identifiers in front of it. -/
theorem identifiers_foldl_tighten (t written : Text) :
    identifiers (t.foldl tighten written).reverse = identifiers (written.reverse ++ t) := by
  induction t generalizing written with
  | nil => rw [List.foldl_nil, List.append_nil]
  | cons c r ih =>
    have hother {d : Char} (hd : isTight d = true) : isIdentChar d = false := by
      cases h : isIdentChar d with
      | false => rfl
      | true =>
        rw [isTight_of_isIdentChar h] at hd
        cases hd
    rw [List.foldl_cons, ih, tighten]
    split
    · rename_i hc
      have hspaces : ∀ d ∈ (written.takeWhile (· == ' ')).reverse, isIdentChar d = false := by
        intro d hd
        have hspace := List.mem_takeWhile_imp (List.mem_reverse.mp hd)
        rw [eq_of_beq hspace]
        decide
      have hskip := identifiers_append_others hspaces (written.dropWhile (· == ' ')).reverse
      rw [← List.reverse_append, List.takeWhile_append_dropWhile] at hskip
      rw [List.reverse_cons, ← List.append_cons, identifiers_append_cons (hother hc),
        identifiers_append_cons (hother hc), hskip]
    · split
      · rename_i hspace
        obtain ⟨rfl, hhead⟩ := hspace
        cases written with
        | nil => cases hhead
        | cons d written =>
          have hd : isIdentChar d = false := hother hhead
          rw [List.reverse_cons, ← List.append_cons, identifiers_append_cons hd,
            identifiers_append_cons (c := ' ') (by decide), identifiers_concat hd]
      · rw [List.reverse_cons, ← List.append_cons]

theorem identifiers_canonicalName (t : Text) : identifiers (canonicalName t) = identifiers t :=
  identifiers_foldl_tighten t []

/-- **The identifiers of a type that was read** are those of the text. -/
theorem mem_identifiers_name_parse {t n : Text} (h : n ∈ identifiers (parse t).name) :
    n ∈ identifiers t := by
  change n ∈ identifiers (canonicalName (splitPointer (trailingQualifiers (join [' ']
    (leadingQualifiers (blankWords t)).2)).2).1) at h
  rw [identifiers_canonicalName, identifiers_splitPointer] at h
  have hwords := mem_identifiers_trailingQualifiers h
  rw [identifiers_join] at hwords
  obtain ⟨w, hw, hn⟩ := List.mem_flatMap.mp hwords
  rw [← flatMap_identifiers_blankWords]
  exact List.mem_flatMap.mpr ⟨w, (leadingQualifiers_words (blankWords t)).1.subset hw, hn⟩

/-- **The identifiers of a printed type**: its qualifiers, and those of its base name. -/
theorem identifiers_render (r : TypeRef) :
    identifiers r.render = r.qualifiers.map Qualifier.spelling ++ identifiers r.name := by
  have hstar : ∀ c ∈ (if r.pointer then " *".toList else []), isIdentChar c = false := by
    have hchars : " *".toList = [' ', '*'] := by decide
    split
    · simp [hchars, isIdentChar]
    · simp
  rw [render, List.append_assoc]
  induction r.qualifiers with
  | nil =>
    rw [List.flatMap_nil, List.nil_append, identifiers_append_others hstar]
    rfl
  | cons q qs ih =>
    have hname := Qualifier.isName_of_ofWord? (Qualifier.ofWord?_spelling q)
    rw [List.flatMap_cons, List.append_assoc, List.append_assoc, List.singleton_append,
      identifiers_append hname (endsName_cons (by decide)), identifiers_cons_other (by decide), ih]
    rfl

theorem isMacroName_spelling (q : Qualifier) : isMacroName q.spelling = false := by
  cases q <;> decide

/-- **A type from a text without macros** is printed without macros. -/
theorem noMacros_render_parse {t : Text} (h : NoMacros t) : NoMacros (parse t).render := by
  intro n hn
  rw [identifiers_render] at hn
  rcases List.mem_append.mp hn with hn | hn
  · obtain ⟨q, -, rfl⟩ := List.mem_map.mp hn
    exact isMacroName_spelling q
  · exact h n (mem_identifiers_name_parse hn)

/-! ### Blanks -/

/-- **Only a blank text** is read as a type that is printed blank. -/
theorem blankWords_render_parse_ne_nil {t : Text} (h : blankWords t ≠ []) :
    blankWords (parse t).render ≠ [] := by
  intro hnone
  rw [render, List.append_assoc, blankWords_qualified] at hnone
  have hwords := (List.append_eq_nil_iff.mp hnone).2
  cases hpointer : (parse t).pointer with
  | true =>
    rw [hpointer, if_pos rfl, blankWords_star] at hwords
    cases (List.append_eq_nil_iff.mp hwords).2
  | false =>
    rw [hpointer, if_neg Bool.false_ne_true, List.append_nil] at hwords
    have hnil : (parse t).name = [] := by
      rw [← (printable_parse t).collapsed, collapse, hwords]
      rfl
    exact h (blankWords_eq_nil_of_parse hnil hpointer)

/-- **A type with a base name** is printed with one space between its words. -/
theorem collapse_render {r : TypeRef} (h : r.Printable) (hne : r.name ≠ []) :
    collapse r.render = r.render := by
  have hwords : blankWords r.name ≠ [] := by
    intro hnone
    have hcollapsed := h.collapsed
    rw [collapse, hnone] at hcollapsed
    exact hne hcollapsed.symm
  have hname : collapse (r.name ++ if r.pointer then " *".toList else []) =
      r.name ++ if r.pointer then " *".toList else [] := by
    have hjoin : join [' '] (blankWords r.name) = r.name := h.collapsed
    have hstar : " *".toList = [' ', '*'] := by decide
    split
    · rw [collapse, blankWords_star, join_concat hwords, hjoin, hstar]
    · rw [List.append_nil, h.collapsed]
  rw [render, List.append_assoc]
  induction r.qualifiers with
  | nil => exact hname
  | cons q qs ih =>
    have hpiece := (Qualifier.isName_of_ofWord? (Qualifier.ofWord?_spelling q)).isPiece
    have hrest : qs.flatMap (fun q => q.spelling ++ [' ']) ++
        (r.name ++ if r.pointer then " *".toList else []) ≠ [] :=
      List.append_ne_nil_of_right_ne_nil _ (List.append_ne_nil_of_left_ne_nil hne _)
    rw [List.flatMap_cons, List.append_assoc, List.append_assoc, List.singleton_append]
    exact collapse_append_cons hpiece ih hrest

end CommonHeaders.TypeRef
