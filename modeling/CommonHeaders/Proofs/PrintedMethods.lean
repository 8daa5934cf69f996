import CommonHeaders.Proofs.SelectorArity
import CommonHeaders.Proofs.TypeCharacters

/-! # Methods that are printed can be read

A printed method is its sign, its return type in parentheses and either its one word or its words
with their arguments. The types of a method that was read stood in parentheses, or are `id`, so
each of them is printed as a text that closes the parentheses it opens. This is what makes the
printed text fall into the same parts again.

* `optionalType?_render`: a type that was read in a method is read again in its parentheses.
* `groups?_printed`: the groups of a printed method are read one by one.
* `parse_render_of_parse`: a method that was read is read back from its text. -/

namespace CommonHeaders

open Text

namespace Method

/-! ### What a method is read from -/

/-- A type as it is read in a method: from a text that may stand in parentheses. -/
def IsEnclosed (r : TypeRef) : Prop := ∃ inner, Encloses '(' ')' inner ∧ r = TypeRef.parse inner

/-- **A type that was read in a method is read again** in its parentheses. -/
theorem optionalType?_render {r : TypeRef} (h : IsEnclosed r) (hplain : ¬ r.PointsToQualifier)
    (rest : Text) : optionalType? ('(' :: r.render ++ ')' :: rest) = some (r, rest) := by
  obtain ⟨inner, hinner, rfl⟩ := h
  have hgroup : group? '(' ')' ('(' :: (TypeRef.parse inner).render ++ ')' :: rest) =
      some ((TypeRef.parse inner).render, rest) :=
    (group?_eq_some_iff (by decide)).mpr ⟨rfl, TypeRef.encloses_render_parse hinner⟩
  have hopen : ('(' :: (TypeRef.parse inner).render ++ ')' :: rest).head? = some '(' := rfl
  rw [optionalType?, if_pos hopen, hgroup]
  exact congrArg (fun r => some (r, rest)) ((TypeRef.parse_render_parse_iff inner).mpr hplain)

theorem isEnclosed_of_optionalType? {t rest : Text} {r : TypeRef}
    (h : optionalType? t = some (r, rest)) : IsEnclosed r := by
  unfold optionalType? at h
  split at h
  · obtain ⟨⟨inner, rest'⟩, hgroup, heq⟩ := Option.map_eq_some_iff.mp h
    exact ⟨inner, ((group?_eq_some_iff (by decide)).mp hgroup).2, (Prod.mk.inj heq).1.symm⟩
  · refine ⟨"id".toList, by decide, ?_⟩
    rw [← (Prod.mk.inj (Option.some.inj h)).1]
    decide +kernel

/-- What is known of a group that was read. -/
structure IsGroup (g : Text × Argument) : Prop where
  word : IsName g.1
  name : IsName g.2.name
  type : IsEnclosed g.2.type

theorem isGroup_of_mem_groups {word t : Text} {groups : List (Text × Argument)}
    (hword : IsName word) (h : groups? word t = some groups) : ∀ g ∈ groups, IsGroup g := by
  have hargument {r rest : Text} {a : Argument} (h : argument? r = some (a, rest)) :
      IsName a.name ∧ IsEnclosed a.type := by
    simp only [argument?, bind, Option.bind_eq_some_iff, Prod.exists, Option.some.injEq,
      Prod.mk.injEq] at h
    obtain ⟨type, r', htype, name, r'', hname, rfl, -⟩ := h
    exact ⟨(isName_of_identifier? hname).1, isEnclosed_of_optionalType? htype⟩
  fun_induction groups? word t generalizing groups with
  | case1 => cases h
  | case2 word t r _ argument rest ha _ =>
    obtain ⟨hname, htype⟩ := hargument ha
    intro g hg
    rw [← Option.some.inj h, List.mem_singleton] at hg
    rw [hg]
    exact ⟨hword, hname, htype⟩
  | case3 word t r _ argument rest ha next rest' hnext ih =>
    obtain ⟨hname, htype⟩ := hargument ha
    obtain ⟨later, hlater, rfl⟩ := Option.map_eq_some_iff.mp h
    have hrest := ih (isName_of_identifier? hnext).1 hlater
    intro g hg
    rcases List.mem_cons.mp hg with rfl | hg
    · exact ⟨hword, hname, htype⟩
    · exact hrest g hg
  | case4 =>
    intro g hg
    rw [← Option.some.inj h] at hg
    cases hg

/-- **The parts of a method that was read.** -/
theorem exists_parts_of_parse {t : Text} {m : Method} (h : parse t = some m) :
    ∃ first groups, IsName first ∧ (∀ g ∈ groups, IsGroup g) ∧ IsEnclosed m.returnType ∧
      m.key = selector first groups ∧ m.arguments = groups.map Prod.snd := by
  unfold parse at h
  split at h
  · cases h
  simp only [Option.bind_eq_bind, Option.bind_eq_some_iff] at h
  obtain ⟨scope, -, ⟨returnType, r⟩, htype, ⟨first, r'⟩, hfirst, groups, hgroups, hm⟩ := h
  have hword := (isName_of_identifier? hfirst).1
  have hm := Option.some.inj hm
  exact ⟨first, groups, hword, isGroup_of_mem_groups hword hgroups,
    by rw [← hm]; exact isEnclosed_of_optionalType? htype, by rw [← hm], by rw [← hm]⟩

/-! ### Reading what was printed -/

/-- A group as it is printed. -/
def printedGroup (g : Text × Argument) : Text :=
  g.1 ++ ":(".toList ++ g.2.type.render ++ [')'] ++ g.2.name

theorem printedGroup_append (g : Text × Argument) (later : Text) :
    printedGroup g ++ later =
      g.1 ++ ':' :: ('(' :: g.2.type.render ++ ')' :: (g.2.name ++ later)) := by
  have hopen : ":(".toList = [':', '('] := by decide
  simp only [printedGroup, hopen, List.append_assoc, List.cons_append, List.nil_append]

/-- A printed argument is read up to the end of its name. -/
theorem argument?_printed {g : Text × Argument} (h : IsGroup g)
    (hplain : ¬ g.2.type.PointsToQualifier) {later : Text} (hlater : EndsName later) :
    argument? ('(' :: g.2.type.render ++ ')' :: (g.2.name ++ later)) = some (g.2, later) := by
  have hopen : trimStart ('(' :: g.2.type.render ++ ')' :: (g.2.name ++ later)) =
      '(' :: g.2.type.render ++ ')' :: (g.2.name ++ later) := rfl
  simp only [argument?, hopen, optionalType?_render h.type hplain, Option.bind_eq_bind,
    Option.bind_some, h.name.trimStart_append, identifier?_append_of_isName h.name hlater]

/-- One group is read, and the next one begins with its word. -/
theorem groups?_of_argument? {word t r rest : Text} {a : Argument} (hcolon : trimStart t = ':' :: r)
    (ha : argument? r = some (a, rest)) :
    groups? word t = match identifier? (trimStart rest) with
      | none => some [(word, a)]
      | some (next, rest') => (groups? next rest').map ((word, a) :: ·) := by
  rw [groups?]
  split
  · rename_i r' hr'
    obtain ⟨-, rfl⟩ := List.cons.inj (hcolon.symm.trans hr')
    split
    · rename_i hnone
      rw [ha] at hnone
      cases hnone
    · rename_i a' rest' ha'
      obtain ⟨rfl, rfl⟩ := Prod.mk.inj (Option.some.inj (ha.symm.trans ha'))
      split <;> rename_i hnext <;> rw [hnext]
  · rename_i hno
    exact absurd hcolon (hno r)

/-- **The groups of a printed method** are read one by one. -/
theorem groups?_printed {g : Text × Argument} {later : List (Text × Argument)}
    (h : ∀ g' ∈ g :: later, IsGroup g' ∧ ¬ g'.2.type.PointsToQualifier) :
    groups? g.1 (':' :: ('(' :: g.2.type.render ++ ')' :: (g.2.name ++
      later.flatMap fun g' => ' ' :: printedGroup g'))) = some (g :: later) := by
  obtain ⟨hgroup, hplain⟩ := h g List.mem_cons_self
  induction later generalizing g with
  | nil =>
    rw [groups?_of_argument? rfl (argument?_printed hgroup hplain endsName_nil)]
    rfl
  | cons g' later ih =>
    have hlater := fun g'' hg'' => h g'' (List.mem_cons_of_mem g hg'')
    obtain ⟨hgroup', hplain'⟩ := hlater g' List.mem_cons_self
    have hends : EndsName ((g' :: later).flatMap fun g' => ' ' :: printedGroup g') :=
      endsName_cons (by decide)
    have hnext : trimStart ((g' :: later).flatMap fun g' => ' ' :: printedGroup g') =
        g'.1 ++ ':' :: ('(' :: g'.2.type.render ++ ')' :: (g'.2.name ++
          later.flatMap fun g' => ' ' :: printedGroup g')) := by
      rw [List.flatMap_cons, List.cons_append, printedGroup_append]
      exact hgroup'.word.trimStart_append _
    rw [groups?_of_argument? rfl (argument?_printed hgroup hplain hends), hnext,
      identifier?_append_of_isName hgroup'.word (endsName_cons (by decide))]
    exact congrArg (Option.map _) (ih hlater hgroup' hplain')

/-- What stands behind the return type of a printed method. -/
def printedGroups (first : Text) (groups : List (Text × Argument)) : Text :=
  if groups.isEmpty then first else join [' '] (groups.map printedGroup)

/-- The printed text of a method, by its parts. -/
theorem render_eq {m : Method} {first : Text} {groups : List (Text × Argument)}
    (hfirst : IsName first) (h : ∀ g ∈ groups, IsGroup g) (hkey : m.key = selector first groups)
    (harguments : m.arguments = groups.map Prod.snd) :
    m.render =
      m.scope.sign :: ('(' :: m.returnType.render ++ ')' :: printedGroups first groups) := by
  have hwords : ∀ g ∈ groups, IsIdentifier g.1 := fun g hg =>
    ⟨(h g hg).word.ne_nil, (h g hg).word.chars⟩
  by_cases hnone : groups = []
  · have hbare : m.key = first := by rw [hkey, hnone]; rfl
    have htakes : m.takesArguments = false :=
      takesArguments_of_isIdentifier ⟨hbare ▸ hfirst.ne_nil, hbare ▸ hfirst.chars⟩
    simp only [render, htakes, Bool.false_eq_true, if_false, printedGroups, hnone, hbare,
      List.isEmpty_nil, if_true, List.cons_append, List.append_assoc, List.nil_append]
  · have hflat : m.key = groups.flatMap fun g => g.1 ++ [':'] := by
      rw [hkey, selector, if_neg (by simpa using hnone)]
    have htakes : m.takesArguments = true := by
      rw [takesArguments, hflat, getLast?_flatMap_colon hnone]
      rfl
    have hzip : (groups.map Prod.fst).zip (groups.map Prod.snd) = groups := by
      rw [List.zip_map', List.map_id']
    rw [render, if_pos htakes, components_selector hflat hwords, harguments, hzip, printedGroups,
      if_neg (by simpa using hnone)]
    change m.scope.sign :: '(' :: m.returnType.render ++ [')'] ++
      join [' '] (groups.map printedGroup) = _
    simp only [List.cons_append, List.append_assoc, List.nil_append]

/-- A printed method ends with a name. -/
theorem not_isBlank_getLast?_printedGroups {first : Text} {groups : List (Text × Argument)}
    (hfirst : IsName first) (h : ∀ g ∈ groups, IsGroup g) :
    printedGroups first groups ≠ [] ∧
      ∀ c ∈ (printedGroups first groups).getLast?, isBlank c = false := by
  have hname {t : Text} (ht : IsName t) : ∀ c ∈ t.getLast?, isBlank c = false := fun c hc =>
    ht.isPiece.chars c (List.mem_of_getLast? hc)
  rcases List.eq_nil_or_concat groups with rfl | ⟨init, g, rfl⟩
  · exact ⟨hfirst.ne_nil, hname hfirst⟩
  · have hg := (h g (by simp)).name
    have hlast : (printedGroup g).getLast? = g.2.name.getLast? :=
      List.getLast?_append_of_ne_nil _ hg.ne_nil
    have hne : printedGroup g ≠ [] := fun he => hg.ne_nil (List.append_eq_nil_iff.mp he).2
    have hjoin : printedGroups first (init.concat g) =
        join [' '] (init.map printedGroup ++ [printedGroup g]) := by
      simp [printedGroups]
    have hend := getLast?_join_concat (init.map printedGroup) hne
    rw [hjoin, hend, hlast]
    refine ⟨fun he => ?_, hname hg⟩
    rw [he, hlast, List.getLast?_nil] at hend
    exact hg.ne_nil (List.getLast?_eq_none_iff.mp hend.symm)

/-- The words of a printed method are read one by one. -/
theorem exists_identifier?_printedGroups {first : Text} {groups : List (Text × Argument)}
    (hfirst : IsName first)
    (h : ∀ g ∈ groups, IsGroup g ∧ ¬ g.2.type.PointsToQualifier) :
    ∃ word rest, identifier? (trimStart (printedGroups first groups)) = some (word, rest) ∧
      groups? word rest = some groups ∧ selector word groups = selector first groups := by
  cases groups with
  | nil =>
    have hstart : trimStart first = first := by simpa using hfirst.trimStart_append []
    have hread : identifier? (trimStart first) = some (first, []) := hstart.symm ▸ hfirst
    exact ⟨first, [], hread, by rw [groups?]; rfl, rfl⟩
  | cons g later =>
    have hword := (h g List.mem_cons_self).1.word
    have hjoin : printedGroups first (g :: later) =
        printedGroup g ++ later.flatMap fun g' => ' ' :: printedGroup g' := by
      have hrest : (later.map printedGroup).flatMap ([' '] ++ ·) =
          later.flatMap fun g' => ' ' :: printedGroup g' := List.flatMap_map ..
      rw [← hrest]
      exact join_cons [' '] (printedGroup g) (later.map printedGroup)
    rw [hjoin, printedGroup_append, hword.trimStart_append]
    exact ⟨g.1, _, identifier?_append_of_isName hword (endsName_cons (by decide)),
      groups?_printed h, rfl⟩

/-- Does the method name no pointer to a qualifier? -/
def HasPlainTypes (m : Method) : Prop :=
  ¬ m.returnType.PointsToQualifier ∧ ∀ a ∈ m.arguments, ¬ a.type.PointsToQualifier

instance (m : Method) : Decidable m.HasPlainTypes := inferInstanceAs (Decidable (_ ∧ _))

/-- **A method that was read is read back from its text**, all but its macros. -/
theorem parse_render_of_parse {t : Text} {m : Method} (h : parse t = some m)
    (hplain : m.HasPlainTypes) : parse m.render = some { m with flags := flagsOf m.render } := by
  obtain ⟨first, groups, hfirst, hgroups, htype, hkey, harguments⟩ := exists_parts_of_parse h
  obtain ⟨hreturn, htypes⟩ := hplain
  have hgroups' : ∀ g ∈ groups, IsGroup g ∧ ¬ g.2.type.PointsToQualifier := fun g hg =>
    ⟨hgroups g hg, htypes g.2 (by rw [harguments]; exact List.mem_map_of_mem hg)⟩
  obtain ⟨word, rest, hword, hread, hselector⟩ := exists_identifier?_printedGroups hfirst hgroups'
  obtain ⟨hne, hlast⟩ := not_isBlank_getLast?_printedGroups hfirst hgroups
  have hrender := render_eq hfirst hgroups hkey harguments
  have htrim : trim m.render =
      m.scope.sign :: ('(' :: m.returnType.render ++ ')' :: printedGroups first groups) := by
    rw [hrender]
    refine trim_eq_self (fun c hc => ?_) fun c hc => hlast c ?_
    · have hsign : c = m.scope.sign := (Option.some.inj hc).symm
      rw [hsign]
      cases m.scope <;> decide
    · rw [← List.cons_append, List.append_cons,
        List.getLast?_append_of_ne_nil _ hne] at hc
      exact hc
  have hsign : MethodScope.ofSign? m.scope.sign = some m.scope := by cases m.scope <;> rfl
  have hopen : trimStart ('(' :: m.returnType.render ++ ')' :: printedGroups first groups) =
      '(' :: m.returnType.render ++ ')' :: printedGroups first groups := rfl
  unfold parse
  rw [htrim]
  simp only [hsign, hopen, optionalType?_render htype hreturn, hword, hread, Option.bind_eq_bind,
    Option.bind_some, hselector, ← hkey, ← harguments]

end Method

/-- **Printing and reading again**: a type that was read comes back exactly if it is no pointer to
a qualifier, and a method that names no such type comes back with its scope, its selector and all
its types and argument names. -/
theorem parse_render :
    (∀ t, TypeRef.parse (TypeRef.parse t).render = TypeRef.parse t ↔
      ¬ (TypeRef.parse t).PointsToQualifier) ∧
    ∀ t m, Method.parse t = some m → m.HasPlainTypes →
      Method.parse m.render = some { m with flags := Method.flagsOf m.render } :=
  ⟨TypeRef.parse_render_parse_iff, fun _ _ => Method.parse_render_of_parse⟩

/-- A method with an argument without a type, one that takes a block, and a macro, -/
def viewsText : Text :=
  ("- ( NSArray <UIView *> * _Nullable)viewsIn:rect " ++
    "using: (void (^ _Nullable)(BOOL done) const)block NS_UNAVAILABLE").toList

/-- as it is read. -/
def viewsMethod : Method where
  scope := .onInstance
  key := "viewsIn:using:".toList
  returnType := ⟨[.nullable], "NSArray<UIView*>".toList, true⟩
  arguments := [⟨TypeRef.named "id".toList, "rect".toList⟩,
    ⟨⟨[.const], "void (^ _Nullable)(BOOL done)".toList, false⟩, "block".toList⟩]
  flags := { unavailable := true }

theorem parse_render_views :
    Method.parse viewsText = some viewsMethod ∧ viewsMethod.HasPlainTypes ∧
      viewsMethod.render = ("-(nullable NSArray<UIView*> *)viewsIn:(id)rect " ++
        "using:(const void (^ _Nullable)(BOOL done))block").toList ∧
      Method.parse viewsMethod.render = some { viewsMethod with flags := {} } := by
  have hread : Method.parse viewsText = some viewsMethod := by decide +kernel
  have hplain : viewsMethod.HasPlainTypes := by decide +kernel
  have hback := parse_render.2 viewsText viewsMethod hread hplain
  exact ⟨hread, hplain, by decide +kernel, hback⟩

end CommonHeaders
