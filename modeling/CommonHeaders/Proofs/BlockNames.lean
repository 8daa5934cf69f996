import CommonHeaders.Property
import CommonHeaders.Proofs.MacroNames
import CommonHeaders.Proofs.Recognisers
import Mathlib.Data.Fin.VecNotation

/-! # Where a property is named

A property is named by a block name, a word behind a caret in parentheses, or by the last word of its
declaration. A block name is taken out of the type, so the type can be written in front of the name
of every property, and this is read the second way unless there is another block name in it.

* `BlockName`, `blockName?_text`, `exists_blockName`: how a block name is written.
* `search_blockName?_eq_none_iff`: a text with none.
* `isDeclared_of_typeAndName?`: what is known of a type and a name that were read.
* `typeAndName?_append_cons`: a type and a name with a space between them. -/

namespace CommonHeaders.Property

open Text Attribute

/-! ### Block names -/

/-- **A block name** as it is written. -/
structure BlockName where
  name : Text
  /-- The blanks in front of the caret, in front of the name and behind it. -/
  blanks : Fin 3 → Text
  isWord : IsWord name
  isBlank : ∀ k, ∀ c ∈ blanks k, isBlank c = true

namespace BlockName

variable (b : BlockName)

/-- What stands between its parentheses. -/
def inner : Text := b.blanks 0 ++ '^' :: (b.blanks 1 ++ (b.name ++ b.blanks 2))

def text : Text := '(' :: b.inner ++ [')']

theorem text_append (r : Text) : b.text ++ r = '(' :: b.inner ++ ')' :: r := by
  simp only [text, List.append_assoc, List.singleton_append]

theorem text_ne_nil : b.text ≠ [] := List.cons_ne_nil _ _

theorem getLast?_text : b.text.getLast? = some ')' := List.getLast?_concat

theorem identifiers_inner : identifiers b.inner = identifiers b.name := by
  have hother (k : Fin 3) : ∀ c ∈ b.blanks k, isIdentChar c = false := fun c hc =>
    isIdentChar_of_isBlank (b.isBlank k c hc)
  rw [inner, identifiers_append_cons (by decide), identifiers_of_others (hother 0),
    identifiers_others_append (hother 1), identifiers_append_others (hother 2), List.nil_append]

/-- **The identifiers of a text with a block name**: those around it and those of the name. -/
theorem identifiers_append_text (a r : Text) : identifiers (a ++ (b.text ++ r)) =
    identifiers a ++ (identifiers b.name ++ identifiers r) := by
  rw [b.text_append, List.cons_append, identifiers_append_cons (by decide),
    identifiers_append_cons (by decide), b.identifiers_inner]

end BlockName

/-- **A block name is read**, whatever stands behind it. -/
theorem blockName?_text (b : BlockName) (rest : Text) :
    blockName? (b.text ++ rest) = some (b.name, rest) := by
  have htext : b.text ++ rest = '(' :: (b.blanks 0 ++ '^' :: (b.blanks 1 ++ (b.name ++
      (b.blanks 2 ++ ')' :: rest)))) := by
    simp only [b.text_append, BlockName.inner, List.append_assoc, List.cons_append]
  have hopen := char?_eq_some_iff.mpr htext
  have hcaret := spacedChar?_append (c := '^') (by decide) (b.isBlank 0) (b.isBlank 1)
    (b.name ++ (b.blanks 2 ++ ')' :: rest))
  rw [b.isWord.trimStart_append] at hcaret
  have hword := word?_append b.isWord
    (endsWord_blanks_cons (b.isBlank 2) (c := ')') (by decide) rest)
  have hclose := char?_append (c := ')') (by decide) (b.isBlank 2) rest
  simp only [blockName?, hopen, hcaret, hword, hclose, Option.bind_eq_bind, Option.bind_some]

/-- What is read is a block name. -/
theorem exists_blockName {t name rest : Text} (h : blockName? t = some (name, rest)) :
    ∃ b : BlockName, b.name = name ∧ t = b.text ++ rest := by
  simp only [blockName?, Option.bind_eq_bind, Option.bind_eq_some_iff, Prod.exists,
    Option.some.injEq, Prod.mk.injEq] at h
  obtain ⟨r, hopen, r', hcaret, w, r'', hword, r3, hclose, rfl, rfl⟩ := h
  obtain ⟨b0, b1, hb0, hb1, rfl⟩ := exists_of_spacedChar? hcaret
  obtain ⟨rfl, hw⟩ := exists_of_word? hword
  obtain ⟨b2, hb2, rfl⟩ := exists_of_char? hclose
  refine ⟨⟨w, ![b0, b1, b2], hw, fun k => ?_⟩, rfl, ?_⟩
  · match k with
    | 0 => exact hb0
    | 1 => exact hb1
    | 2 => exact hb2
  · rw [char?_eq_some_iff.mp hopen, BlockName.text_append]
    simp only [BlockName.inner, List.append_assoc, List.cons_append]
    rfl

/-- **The text names a block** somewhere. -/
def NamesBlock (t : Text) : Prop := ∃ (a : Text) (b : BlockName) (r : Text), t = a ++ (b.text ++ r)

theorem search_blockName?_eq_none_iff {t : Text} :
    search blockName? t = none ↔ ¬ NamesBlock t := by
  rw [search_eq_none_iff]
  constructor
  · rintro h ⟨a, b, r, hab⟩
    have hnone := h a (b.text ++ r) hab
    rw [blockName?_text] at hnone
    cases hnone
  · intro h a r hab
    refine Option.eq_none_iff_forall_ne_some.mpr fun ⟨name, rest⟩ hread => h ?_
    obtain ⟨b, -, hr⟩ := exists_blockName hread
    exact ⟨a, b, rest, by rw [hab, hr]⟩

instance (t : Text) : Decidable (NamesBlock t) :=
  decidable_of_iff (¬ search blockName? t = none)
    (by rw [search_blockName?_eq_none_iff, not_not])

theorem NamesBlock.paren_mem {t : Text} (h : NamesBlock t) : '(' ∈ t := by
  obtain ⟨a, b, r, rfl⟩ := h
  simp [BlockName.text]

/-- **A block name in front of a word** stands in the text in front of it. -/
theorem NamesBlock.of_append_cons {t name : Text} (hname : IsWord name)
    (h : NamesBlock (t ++ ' ' :: name)) : NamesBlock t := by
  obtain ⟨a, b, r, hab⟩ := h
  have hclose : ')' ∉ ' ' :: name := by
    intro hmem
    rcases List.mem_cons.mp hmem with he | hmem
    · exact absurd he (by decide)
    · exact absurd (hname.chars ')' hmem) (by decide)
  rw [← List.append_assoc] at hab
  rcases List.append_eq_append_iff.mp hab with ⟨x, hx, hrest⟩ | ⟨x, hx, -⟩
  · -- if it reached beyond the text, its closing parenthesis would stand in the word
    have hnone : x = [] := by
      by_contra hne
      have hlast := congrArg List.getLast? hx
      rw [List.getLast?_append_of_ne_nil _ hne, List.getLast?_append_of_ne_nil _ b.text_ne_nil,
        b.getLast?_text] at hlast
      refine hclose ?_
      rw [hrest]
      exact List.mem_append_left r (List.mem_of_getLast? hlast.symm)
    rw [hnone, List.append_nil] at hx
    exact ⟨a, b, [], by rw [List.append_nil, hx]⟩
  · exact ⟨a, b, x, by rw [hx, List.append_assoc]⟩

/-! ### Types and names -/

/-- **What is known of a type and a name** that are read from a declaration without macros. -/
structure IsDeclared (typeText name : Text) : Prop where
  isWord : IsWord name
  type_noMacros : NoMacros typeText
  name_noMacros : NoMacros name
  semicolon_notMem : ';' ∉ typeText

theorem isDeclared_of_blockName {before after : Text} {b : BlockName}
    (hmacros : NoMacros (before ++ (b.text ++ after)))
    (hsemicolon : ';' ∉ before ++ (b.text ++ after)) :
    IsDeclared (before ++ "(^)".toList ++ after) b.name := by
  have hgroup : "(^)".toList = ['(', '^', ')'] := by decide
  have hwithout : identifiers (before ++ "(^)".toList ++ after) =
      identifiers before ++ identifiers after := by
    have hothers : ∀ c ∈ ['^', ')'], isIdentChar c = false := by simp [isIdentChar]
    rw [hgroup, List.append_assoc, List.cons_append, identifiers_append_cons (by decide),
      identifiers_others_append hothers]
  rw [NoMacros, b.identifiers_append_text] at hmacros
  refine ⟨b.isWord, fun n hn => ?_, fun n hn => ?_, fun hmem => hsemicolon ?_⟩
  · rw [hwithout] at hn
    rcases List.mem_append.mp hn with hn | hn
    · exact hmacros n (List.mem_append_left _ hn)
    · exact hmacros n (List.mem_append_right _ (List.mem_append_right _ hn))
  · exact hmacros n (List.mem_append_right _ (List.mem_append_left _ hn))
  · rw [hgroup] at hmem
    simp only [List.mem_append, List.mem_cons, List.not_mem_nil, or_false] at hmem
    rcases hmem with (hmem | hmem) | hmem
    · exact List.mem_append_left _ hmem
    · exact absurd hmem (by decide)
    · exact List.mem_append_right _ (List.mem_append_right _ hmem)

/-- The identifiers of a text in front of its last word and in that word. -/
theorem identifiers_dropEndWhile (t : Text) :
    identifiers t = identifiers (dropEndWhile isWordChar t) ++
      identifiers (t.reverse.takeWhile isWordChar).reverse := by
  have hsplit := dropEndWhile_append isWordChar t
  by_cases hnone : dropEndWhile isWordChar t = []
  · rw [hnone, List.nil_append] at hsplit
    rw [hnone, identifiers_nil, List.nil_append, hsplit]
  · obtain ⟨a, c, ha, hc⟩ := exists_concat_of_dropEndWhile hnone
    have hother : isIdentChar c = false := by
      cases h : isIdentChar c with
      | false => rfl
      | true =>
        rw [isWordChar_of_isIdentChar h] at hc
        cases hc
    rw [ha, ← List.append_cons] at hsplit
    rw [ha, identifiers_concat hother, ← identifiers_append_cons hother, hsplit]

theorem isDeclared_of_lastWord {t : Text} (hmacros : NoMacros t) (hsemicolon : ';' ∉ t)
    (hne : (t.reverse.takeWhile isWordChar).reverse ≠ []) :
    IsDeclared (dropEndWhile isWordChar t) (t.reverse.takeWhile isWordChar).reverse := by
  have hword : IsWord (t.reverse.takeWhile isWordChar).reverse :=
    ⟨hne, fun c hc => List.mem_takeWhile_imp (List.mem_reverse.mp hc)⟩
  rw [NoMacros, identifiers_dropEndWhile t] at hmacros
  refine ⟨hword, fun n hn => hmacros n (List.mem_append_left _ hn),
    fun n hn => hmacros n (List.mem_append_right _ hn), fun hmem => hsemicolon ?_⟩
  obtain ⟨b, hb, -⟩ := exists_append_dropEndWhile isWordChar t
  rw [hb]
  exact List.mem_append_left b hmem

/-- **What is read from a declaration** without macros has none either. -/
theorem isDeclared_of_typeAndName? {t typeText name : Text} (hmacros : NoMacros t)
    (hsemicolon : ';' ∉ t) (h : typeAndName? t = some (typeText, name)) :
    IsDeclared typeText name := by
  unfold typeAndName? at h
  split at h
  · rename_i before name' after hfound
    obtain ⟨rfl, rfl⟩ := Prod.mk.inj (Option.some.inj h)
    obtain ⟨rest, hread, rfl⟩ := search_append hfound
    obtain ⟨b, rfl, rfl⟩ := exists_blockName hread
    exact isDeclared_of_blockName hmacros hsemicolon
  · simp only at h
    split at h
    · cases h
    · rename_i hne
      obtain ⟨rfl, rfl⟩ := Prod.mk.inj (Option.some.inj h)
      have hmacros' : NoMacros (trimEnd t) := by rwa [NoMacros, identifiers_trimEnd]
      have hsemicolon' : ';' ∉ trimEnd t := by
        obtain ⟨b, hb, -⟩ := exists_append_trimEnd t
        rw [hb] at hsemicolon
        exact fun hmem => hsemicolon (List.mem_append_left b hmem)
      exact isDeclared_of_lastWord hmacros' hsemicolon' (by simpa using hne)

/-- **A type and a name with a space between them** are read as they are, unless they name a
block. -/
theorem typeAndName?_append_cons {t name : Text} (hname : IsWord name)
    (hblock : ¬ NamesBlock (t ++ ' ' :: name)) :
    typeAndName? (t ++ ' ' :: name) = some (t ++ [' '], name) := by
  have hend : trimEnd (t ++ ' ' :: name) = t ++ ' ' :: name := by
    refine trimEnd_eq_self fun c hc => ?_
    rw [List.append_cons, List.getLast?_append_of_ne_nil _ hname.ne_nil] at hc
    exact hname.isPiece.chars c (List.mem_of_mem_getLast? hc)
  have hreverse : (t ++ ' ' :: name).reverse = name.reverse ++ ' ' :: t.reverse := by simp
  have hchars : ∀ c ∈ name.reverse, isWordChar c = true := fun c hc =>
    hname.chars c (List.mem_reverse.mp hc)
  have hspace : isWordChar ' ' = false := by decide
  have hlast : (t ++ ' ' :: name).reverse.takeWhile isWordChar = name.reverse := by
    rw [hreverse, List.takeWhile_append_of_pos hchars, List.takeWhile_cons, hspace]
    simp
  have hfirst : dropEndWhile isWordChar (t ++ ' ' :: name) = t ++ [' '] := by
    rw [dropEndWhile, hreverse, List.dropWhile_append_of_pos hchars, List.dropWhile_cons, hspace]
    simp
  unfold typeAndName?
  rw [search_blockName?_eq_none_iff.mpr hblock]
  simp only [hend, hlast, hfirst, List.reverse_reverse]
  rw [if_neg (by simpa using hname.ne_nil)]

end CommonHeaders.Property
