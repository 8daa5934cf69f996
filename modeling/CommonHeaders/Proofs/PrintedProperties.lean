import CommonHeaders.Proofs.BlockNames
import CommonHeaders.Proofs.Brackets
import CommonHeaders.Proofs.TypeCharacters

/-! # Properties that are printed can be read

A printed property is its attributes in parentheses, its type and its name, with a space in front of
the last two. The attributes have no commas, brackets or blanks of their own, so the list is cut
where it was put together. What stands behind it has no macros, since the declaration that was read
had none any more, and no semicolon. So it is read with the same type and the same name, also for a
property that was named in its type, unless the type has another block name in it.

* `foldl_renderedAttributes`: the attributes say what they were printed for.
* `typeAndName?_declaration`: the type and the name behind them.
* `parse_render_eq_some`: a property that was read is read back from its text. -/

namespace CommonHeaders.Property

open Text Attribute

/-! ### Attributes -/

/-- May the character stand in the name of an accessor? Identifier characters and colons may. -/
def isAccessorChar (c : Char) : Bool := isIdentChar c || c == ':'

/-- May the character stand in an attribute that is printed? -/
def isAttributeChar (c : Char) : Bool := isAccessorChar c || c == '='

/-- **An attribute** as it is printed. -/
structure IsAttribute (a : Text) : Prop where
  ne_nil : a ≠ []
  chars : ∀ c ∈ a, isAttributeChar c = true

namespace IsAttribute

variable {a : Text} (h : IsAttribute a)
include h

theorem isPiece : IsPiece a := by
  refine ⟨h.ne_nil, fun c hc => ?_⟩
  have hchar := h.chars c hc
  simp only [isAttributeChar, isAccessorChar, Bool.or_eq_true, beq_iff_eq] at hchar
  rcases hchar with (hchar | rfl) | rfl
  · exact isBlank_of_isIdentChar hchar
  · decide
  · decide

theorem nests : Nests (· != ',') a := nests_of_kind (by decide) (by decide) h.chars

theorem noBraces : ∀ c ∈ a, c ≠ '\x7b' ∧ c ≠ '\x7d' := fun c hc =>
  ⟨ne_of_kind (h.chars c hc) (by decide), ne_of_kind (h.chars c hc) (by decide)⟩

end IsAttribute

/-- **A list of attributes** is cut between them, -/
theorem splitItems_join {first : Text} {rest : List Text}
    (h : ∀ a ∈ first :: rest, Nests (· != ',') a ∧ ∀ c ∈ a, c ≠ '\x7b' ∧ c ≠ '\x7d') :
    splitItems ',' (join ", ".toList (first :: rest)) = first :: rest.map (' ' :: ·) := by
  induction rest generalizing first with
  | nil =>
    obtain ⟨hnests, hbraces⟩ := h first List.mem_cons_self
    rw [join_cons, List.flatMap_nil, List.append_nil]
    exact splitItems_of_nests rfl hbraces hnests
  | cons next rest ih =>
    obtain ⟨hnests, hbraces⟩ := h first List.mem_cons_self
    have hsep : ", ".toList = [',', ' '] := by decide
    have hjoin : join ", ".toList (first :: next :: rest) =
        first ++ ',' :: join ", ".toList ((' ' :: next) :: rest) := by
      rw [join_cons, join_cons, List.flatMap_cons, hsep]
      rfl
    have hrest : ∀ a ∈ (' ' :: next) :: rest,
        Nests (· != ',') a ∧ ∀ c ∈ a, c ≠ '\x7b' ∧ c ≠ '\x7d' := by
      refine List.forall_mem_cons.mpr ⟨?_, fun a ha => h a (by simp [ha])⟩
      obtain ⟨hnests', hbraces'⟩ := h next (by simp)
      have hspace : Nests (· != ',') [' '] := by decide
      exact ⟨hspace.append hnests', List.forall_mem_cons.mpr ⟨by decide, hbraces'⟩⟩
    rw [hjoin, splitItems_append_cons rfl (by decide) (by decide) hbraces hnests, ih hrest]
    rfl

/-- and the spaces do not count. -/
theorem applyAttribute_space (p : Property) (a : Text) :
    applyAttribute p (' ' :: a) = applyAttribute p a := by
  have hwords : blankWords (' ' :: a) = blankWords a := blankWords_append_cons isBlank_space [] a
  rw [applyAttribute, applyAttribute, hwords]

theorem foldl_applyAttribute_join {l : List Text} (hne : l ≠ []) (h : ∀ a ∈ l, IsAttribute a)
    (p : Property) :
    (splitItems ',' (join ", ".toList l)).foldl applyAttribute p = l.foldl applyAttribute p := by
  obtain ⟨first, rest, rfl⟩ := List.exists_cons_of_ne_nil hne
  rw [splitItems_join fun a ha => ⟨(h a ha).nests, (h a ha).noBraces⟩, List.foldl_cons,
    List.foldl_cons, List.foldl_map]
  simp only [applyAttribute_space]

/-- A list of attributes stands in parentheses. -/
theorem encloses_join {l : List Text} (h : ∀ a ∈ l, IsAttribute a) :
    Encloses '(' ')' (join ", ".toList l) := by
  have hplain : ∀ c ∈ join ", ".toList l, isBracket c = false := by
    intro c hc
    rcases mem_join hc with hc | ⟨a, ha, hc⟩
    · have hsep : ", ".toList = [',', ' '] := by decide
      have hothers : ∀ c ∈ [',', ' '], isBracket c = false := by simp [isBracket]
      exact hothers c (hsep ▸ hc)
    · exact eq_false_of_kind mem_brackets (by decide) ((h a ha).chars c hc)
  have hnests : Nests (fun _ => true) (join ", ".toList l) :=
    nest?_of_not_isBracket hplain (Or.inr fun _ _ => rfl)
  exact encloses_of_nests hnests

/-- What an attribute says changes neither the type nor the name, nor whether the property is
required. -/
theorem foldl_applyAttribute_keeps (l : List Text) (p : Property) :
    (l.foldl applyAttribute p).type = p.type ∧ (l.foldl applyAttribute p).name = p.name ∧
      (l.foldl applyAttribute p).required = p.required := by
  induction l generalizing p with
  | nil => exact ⟨rfl, rfl, rfl⟩
  | cons a rest ih =>
    have hstep : (applyAttribute p a).type = p.type ∧ (applyAttribute p a).name = p.name ∧
        (applyAttribute p a).required = p.required := by
      unfold applyAttribute
      simp only
      (repeat' split) <;> exact ⟨rfl, rfl, rfl⟩
    obtain ⟨htype, hname, hrequired⟩ := ih (applyAttribute p a)
    exact ⟨htype.trans hstep.1, hname.trans hstep.2.1, hrequired.trans hstep.2.2⟩

/-! ### What printed attributes say -/

theorem IsAttribute.flatten_blankWords {a : Text} (h : IsAttribute a) :
    (blankWords a).flatten = a := by
  rw [blankWords_of_isPiece h.isPiece, List.flatten_singleton]

/-- An attribute that begins with another letter is none of the keywords. -/
theorem ne_keywords {a : Text} (hn : a.head? ≠ some 'n') (hr : a.head? ≠ some 'r') :
    a ≠ "nullable".toList ∧ a ≠ "null_resettable".toList ∧ a ≠ "readonly".toList ∧
      a ≠ "readwrite".toList := by
  have hne {w : Text} (hw : w.head? = some 'n' ∨ w.head? = some 'r') : a ≠ w := by
    rintro rfl
    exact hw.elim hn hr
  exact ⟨hne (by decide), hne (by decide), hne (by decide), hne (by decide)⟩

theorem applyAttribute_getter {g : Text} (h : IsAttribute ("getter=".toList ++ g)) (p : Property) :
    applyAttribute p ("getter=".toList ++ g) = { p with getter := some g } := by
  obtain ⟨hnullable, hresettable, hreadonly, hreadwrite⟩ :=
    ne_keywords (a := "getter=".toList ++ g) (by simp) (by simp)
  have hgetter : after? "getter=".toList ("getter=".toList ++ g) = some g :=
    Naming.after?_eq_some_iff.mpr rfl
  have hsetter : after? "setter=".toList ("getter=".toList ++ g) = none := rfl
  unfold applyAttribute
  simp only [h.flatten_blankWords]
  rw [if_neg hnullable, if_neg hresettable, if_neg hreadonly, if_neg hreadwrite, hsetter, hgetter]

theorem applyAttribute_setter {s : Text} (h : IsAttribute ("setter=".toList ++ s)) (p : Property) :
    applyAttribute p ("setter=".toList ++ s) = { p with setter := some s } := by
  obtain ⟨hnullable, hresettable, hreadonly, hreadwrite⟩ :=
    ne_keywords (a := "setter=".toList ++ s) (by simp) (by simp)
  have hsetter : after? "setter=".toList ("setter=".toList ++ s) = some s :=
    Naming.after?_eq_some_iff.mpr rfl
  unfold applyAttribute
  simp only [h.flatten_blankWords]
  rw [if_neg hnullable, if_neg hresettable, if_neg hreadonly, if_neg hreadwrite, hsetter]

/-- **The accessors of a property are plain**, those that are named in it. -/
structure HasPlainAccessors (p : Property) : Prop where
  getter : ∀ g ∈ p.getter, ∀ c ∈ g, isAccessorChar c = true
  setter : ∀ s ∈ p.setter, ∀ c ∈ s, isAccessorChar c = true

theorem isAttribute_append {tag a : Text} (htag : IsAttribute tag)
    (h : ∀ c ∈ a, isAccessorChar c = true) : IsAttribute (tag ++ a) := by
  refine ⟨List.append_ne_nil_of_left_ne_nil htag.ne_nil a, fun c hc => ?_⟩
  rcases List.mem_append.mp hc with hc | hc
  · exact htag.chars c hc
  · rw [isAttributeChar, h c hc, Bool.true_or]

theorem isAttribute_getter {p : Property} (h : p.HasPlainAccessors) :
    ∀ g ∈ p.getter, IsAttribute ("getter=".toList ++ g) := fun g hg =>
  isAttribute_append ⟨by decide, List.all_eq_true.mp rfl⟩ (h.getter g hg)

theorem isAttribute_setter {p : Property} (h : p.HasPlainAccessors) :
    ∀ s ∈ p.setter, IsAttribute ("setter=".toList ++ s) := fun s hs =>
  isAttribute_append ⟨by decide, List.all_eq_true.mp rfl⟩ (h.setter s hs)

/-- The attributes that name no accessor. -/
def keywords (p : Property) : List Text :=
  ["nonatomic".toList, if p.readOnly then "readonly".toList else "readwrite".toList] ++
    match p.nullability with
    | .absent => []
    | .nullable => ["nullable".toList]
    | .nullResettable => ["null_resettable".toList]

theorem renderedAttributes_eq (p : Property) : p.renderedAttributes =
    p.keywords ++ (p.getter.map ("getter=".toList ++ ·)).toList ++
      (p.setter.map ("setter=".toList ++ ·)).toList := rfl

theorem isAttribute_keywords (p : Property) : ∀ a ∈ p.keywords, IsAttribute a := by
  have hall : ∀ a ∈ p.keywords, a ≠ [] ∧ a.all isAttributeChar = true := by
    unfold keywords
    cases p.readOnly <;> cases p.nullability <;> decide
  exact fun a ha => ⟨(hall a ha).1, List.all_eq_true.mp (hall a ha).2⟩

theorem isAttribute_renderedAttributes {p : Property} (h : p.HasPlainAccessors) :
    ∀ a ∈ p.renderedAttributes, IsAttribute a := by
  intro a ha
  simp only [renderedAttributes_eq, List.mem_append, Option.mem_toList,
    Option.map_eq_some_iff] at ha
  rcases ha with (ha | ⟨g, hg, rfl⟩) | ⟨s, hs, rfl⟩
  · exact isAttribute_keywords p a ha
  · exact isAttribute_getter h g hg
  · exact isAttribute_setter h s hs

/-- **The attributes say what they were printed for.** -/
theorem foldl_renderedAttributes {p : Property} (h : p.HasPlainAccessors) :
    p.renderedAttributes.foldl applyAttribute { type := p.type, name := p.name } =
      { p with required := false } := by
  obtain ⟨type, name, nullability, readOnly, getter, setter, required⟩ := p
  have hkeywords : (keywords ⟨type, name, nullability, readOnly, getter, setter, required⟩).foldl
      applyAttribute ⟨type, name, .absent, false, none, none, false⟩ =
        ⟨type, name, nullability, readOnly, none, none, false⟩ := by
    unfold keywords
    cases readOnly <;> cases nullability <;> rfl
  have hgetter : (getter.map ("getter=".toList ++ ·)).toList.foldl applyAttribute
      ⟨type, name, nullability, readOnly, none, none, false⟩ =
        ⟨type, name, nullability, readOnly, getter, none, false⟩ := by
    cases getter with
    | none => rfl
    | some g => exact applyAttribute_getter (isAttribute_getter h g rfl) _
  have hsetter : (setter.map ("setter=".toList ++ ·)).toList.foldl applyAttribute
      ⟨type, name, nullability, readOnly, getter, none, false⟩ =
        ⟨type, name, nullability, readOnly, getter, setter, false⟩ := by
    cases setter with
    | none => rfl
    | some s => exact applyAttribute_setter (isAttribute_setter h s rfl) _
  rw [renderedAttributes_eq, List.foldl_append, List.foldl_append, hkeywords, hgetter, hsetter]

/-! ### The declaration behind the attributes -/

/-- **What is known of a property that was read**, by the text of its type. -/
structure IsReadFrom (p : Property) (typeText : Text) : Prop where
  declared : IsDeclared typeText p.name
  ne_nil : blankWords typeText ≠ []
  type : p.type = TypeRef.parse typeText
  required : p.required = false

theorem exists_isReadFrom {t : Text} {p : Property} (h : parse t = some p) :
    ∃ typeText, p.IsReadFrom typeText := by
  simp only [parse, Option.bind_eq_bind, Option.bind_eq_some_iff, Prod.exists] at h
  obtain ⟨r, -, attributes, rest, -, typeText, name, hdeclared, h⟩ := h
  split at h
  · cases h
  · rename_i hne
    have hp := Option.some.inj h
    have hsemicolon : ';' ∉ rest.takeWhile (· != ';') := fun hmem =>
      absurd (List.mem_takeWhile_imp hmem) (by decide)
    obtain ⟨htype, hname, hrequired⟩ := foldl_applyAttribute_keeps (splitItems ',' attributes)
      { type := TypeRef.parse typeText, name := name }
    rw [hp] at htype hname hrequired
    refine ⟨typeText, ?_, ?_, htype, hrequired⟩
    · rw [hname]
      exact isDeclared_of_typeAndName? (noMacros_strip _) (notMem_strip (by decide) hsemicolon)
        hdeclared
    · rw [List.isEmpty_iff, trim_eq_nil_iff] at hne
      exact hne

/-- What is printed behind the attributes. -/
def declaration (p : Property) : Text := ' ' :: p.type.render ++ ' ' :: p.name

/-- Blanks behind a type do not count. -/
theorem blankWords_collapse_space (t : Text) :
    blankWords (collapse t ++ [' ']) = blankWords t := by
  rw [blankWords_append_cons isBlank_space, blankWords_nil, List.append_nil, collapse,
    blankWords_join (isPiece_of_mem_blankWords t)]

namespace IsReadFrom

variable {p : Property} {typeText : Text} (h : p.IsReadFrom typeText)
include h

/-- **A property that was read** is printed without semicolons -/
theorem semicolon_notMem_declaration : ';' ∉ p.declaration := by
  have htype : ';' ∉ p.type.render := by
    rw [h.type, TypeRef.mem_render_parse_iff
      (TypeRef.isKept_char (by decide) (by decide) (by decide))]
    exact h.declared.semicolon_notMem
  have hname : ';' ∉ p.name := fun hmem =>
    absurd (h.declared.isWord.chars ';' hmem) (by decide)
  simp [declaration, htype, hname]

/-- and without macros. -/
theorem noMacros_declaration : NoMacros p.declaration := by
  have htype : NoMacros p.type.render := by
    rw [h.type]
    exact TypeRef.noMacros_render_parse h.declared.type_noMacros
  intro n hn
  rw [declaration, List.cons_append, identifiers_cons_other (by decide),
    identifiers_append_cons (by decide)] at hn
  exact (List.mem_append.mp hn).elim (htype n) (h.declared.name_noMacros n)

theorem strip_declaration :
    strip .all p.declaration = collapse p.type.render ++ ' ' :: p.name := by
  have hne : blankWords p.type.render ≠ [] := by
    rw [h.type]
    exact TypeRef.blankWords_render_parse_ne_nil h.ne_nil
  have hwords : blankWords p.declaration = blankWords p.type.render ++ [p.name] := by
    have hspace : blankWords p.declaration = blankWords (p.type.render ++ ' ' :: p.name) :=
      blankWords_append_cons isBlank_space [] _
    rw [hspace, blankWords_append_cons isBlank_space,
      blankWords_of_isPiece h.declared.isWord.isPiece]
  rw [strip_of_noMacros h.noMacros_declaration, collapse, hwords, join_concat hne]
  rfl

/-- A block name in the words of its type stands in the type as it is printed. -/
theorem namesBlock_of_collapse (hblock : NamesBlock (collapse p.type.render)) :
    NamesBlock p.type.render := by
  have hprintable : p.type.Printable := by
    rw [h.type]
    exact TypeRef.printable_parse typeText
  have hname : p.type.name ≠ [] := by
    intro hnil
    have hparen := hblock.paren_mem
    rw [mem_collapse_iff (by decide), TypeRef.mem_render_iff
      (TypeRef.isKept_char (by decide) (by decide) (by decide)), hnil] at hparen
    cases hparen
  rwa [TypeRef.collapse_render hprintable hname] at hblock

/-- **Its type and its name are read** from what is printed, if the type names no block. -/
theorem typeAndName?_declaration (hblock : ¬ NamesBlock p.type.render) :
    typeAndName? (strip .all p.declaration) = some (collapse p.type.render ++ [' '], p.name) := by
  rw [h.strip_declaration]
  refine typeAndName?_append_cons h.declared.isWord fun hnames => hblock ?_
  exact h.namesBlock_of_collapse (hnames.of_append_cons h.declared.isWord)

/-- The type is not read as blank, -/
theorem trim_type_ne_nil : trim (collapse p.type.render ++ [' ']) ≠ [] := by
  rw [Ne, trim_eq_nil_iff, blankWords_collapse_space, h.type]
  exact TypeRef.blankWords_render_parse_ne_nil h.ne_nil

/-- but as what it was, if it is no pointer to a qualifier. -/
theorem parse_type (hplain : ¬ p.type.PointsToQualifier) :
    TypeRef.parse (collapse p.type.render ++ [' ']) = p.type := by
  rw [TypeRef.parse, blankWords_collapse_space, ← TypeRef.parse]
  rw [h.type] at hplain ⊢
  exact (TypeRef.parse_render_parse_iff typeText).mpr hplain

end IsReadFrom

/-! ### Reading what was printed -/

/-- **A property whose text can be read back**: its accessors are plain, its type is no pointer to a
qualifier, and no block name is left in its type. -/
structure Reprintable (p : Property) : Prop where
  plainAccessors : p.HasPlainAccessors
  plainType : ¬ p.type.PointsToQualifier
  namesNoBlock : ¬ NamesBlock p.type.render

theorem render_eq_append (p : Property) : p.render =
    "@property".toList ++
      ('(' :: join ", ".toList p.renderedAttributes ++ ')' :: p.declaration) := by
  have hopen : "@property(".toList = "@property".toList ++ ['('] := by decide
  have hclose : ") ".toList = [')', ' '] := by decide
  unfold render declaration
  simp only [hopen, hclose, List.append_assoc, List.cons_append, List.nil_append]

/-- A printed property has no blanks at its ends. -/
theorem trim_render {p : Property} (hname : IsWord p.name) : trim p.render = p.render := by
  refine trim_eq_self (fun c hc => ?_) fun c hc => ?_
  · have hsign : "@property".toList = '@' :: "property".toList := by decide
    rw [render_eq_append, hsign, List.cons_append, List.head?_cons] at hc
    rw [← Option.some.inj hc]
    decide
  · have hlast : p.render.getLast? = p.name.getLast? := by
      unfold render
      rw [List.getLast?_append_of_ne_nil _ (List.cons_ne_nil _ _),
        List.getLast?_cons_of_ne_nil hname.ne_nil]
    rw [hlast] at hc
    exact hname.isPiece.chars c (List.mem_of_mem_getLast? hc)

/-- **A property that was read is read back from its text**, in all its parts. -/
theorem parse_render_eq_some {t : Text} {p : Property} (h : parse t = some p)
    (hp : p.Reprintable) : parse p.render = some p := by
  obtain ⟨typeText, hread⟩ := exists_isReadFrom h
  have hattributes := isAttribute_renderedAttributes hp.plainAccessors
  have hafter : after? "@property".toList (trim p.render) =
      some ('(' :: join ", ".toList p.renderedAttributes ++ ')' :: p.declaration) := by
    rw [trim_render hread.declared.isWord]
    exact Naming.after?_eq_some_iff.mpr p.render_eq_append
  have hlist : attributes? (trimStart
      ('(' :: join ", ".toList p.renderedAttributes ++ ')' :: p.declaration)) =
        some (join ", ".toList p.renderedAttributes, p.declaration) := by
    have hopen : trimStart ('(' :: join ", ".toList p.renderedAttributes ++ ')' :: p.declaration) =
        '(' :: join ", ".toList p.renderedAttributes ++ ')' :: p.declaration := rfl
    rw [hopen, attributes?, List.cons_append, List.head?_cons, if_pos rfl,
      group?_eq_some_iff (by decide)]
    exact ⟨rfl, encloses_join hattributes⟩
  have hdeclaration : p.declaration.takeWhile (· != ';') = p.declaration := by
    refine List.takeWhile_eq_self_iff.mpr fun c hc => bne_iff_ne.mpr fun he => ?_
    exact hread.semicolon_notMem_declaration (he ▸ hc)
  have hsaid : (splitItems ',' (join ", ".toList p.renderedAttributes)).foldl applyAttribute
      { type := p.type, name := p.name } = p := by
    have hne : p.renderedAttributes ≠ [] := List.cons_ne_nil _ _
    rw [foldl_applyAttribute_join hne hattributes, foldl_renderedAttributes hp.plainAccessors,
      ← hread.required]
  have hparts := hread.typeAndName?_declaration hp.namesNoBlock
  simp only [parse, hafter, hlist, hdeclaration, hparts, Option.bind_eq_bind, Option.bind_some,
    hread.parse_type hp.plainType, hsaid]
  rw [if_neg (by simpa using hread.trim_type_ne_nil)]

/-- A property that is named in its type, with macros and accessors of its own, -/
def taskText : Text :=
  "@property (getter = running, setter=run:, nullable) BOOL (^ NS_NOESCAPE task)(id *) UI_ON;".toList

/-- as it is read. -/
def taskProperty : Property where
  type := TypeRef.named "BOOL (^)(id*)".toList
  name := "task".toList
  nullability := .nullable
  getter := some "running".toList
  setter := some "run:".toList

theorem parse_render_task :
    parse taskText = some taskProperty ∧ taskProperty.Reprintable ∧
      taskProperty.render = ("@property(nonatomic, readwrite, nullable, getter=running, " ++
        "setter=run:) BOOL (^)(id*) task").toList ∧
      parse taskProperty.render = some taskProperty := by
  have hread : parse taskText = some taskProperty := by decide +kernel
  have haccessors : taskProperty.HasPlainAccessors := by
    refine ⟨fun g hg => ?_, fun s hs => ?_⟩
    · rw [← Option.some.inj hg]
      exact List.all_eq_true.mp rfl
    · rw [← Option.some.inj hs]
      exact List.all_eq_true.mp rfl
  have hback : taskProperty.Reprintable := ⟨haccessors, by decide +kernel, by decide +kernel⟩
  exact ⟨hread, hback, by decide +kernel, parse_render_eq_some hread hback⟩

end CommonHeaders.Property
