import CommonHeaders.Method

/-! # Selectors ask for their arguments

A method declaration is read group by group, a word with its colon and then its argument. So the
words of a selector, counted in the key alone, are as many as the arguments that were read, and a
bare word asks for none. This is what makes a call possible: it puts the arguments behind the words.

* `components_selector`: the words of a selector are those it was put together from.
* `arguments_length_of_parse`: a method that is read has the arguments its selector asks for.
* `exists_invocation`: a method that has them can be called. -/

namespace CommonHeaders

/-! ### Identifiers -/

namespace Text

/-- **An identifier**: characters of identifiers and nothing else, at least one. -/
structure IsIdentifier (t : Text) : Prop where
  ne_nil : t ≠ []
  chars : ∀ c ∈ t, isIdentChar c = true

theorem isIdentifier_of_identifier? {t name rest : Text} (h : identifier? t = some (name, rest)) :
    IsIdentifier name := by
  cases t with
  | nil => simp [identifier?] at h
  | cons c r =>
    simp only [identifier?] at h
    split at h
    · rename_i hc
      have hname : c :: r.takeWhile isIdentChar = name := (Prod.mk.inj (Option.some.inj h)).1
      rw [← hname]
      refine ⟨List.cons_ne_nil _ _, fun d hd => ?_⟩
      rcases List.mem_cons.mp hd with rfl | hd
      · exact isIdentChar_of_isIdentStart hc
      · exact List.all_eq_true.mp List.all_takeWhile d hd
    · simp at h

theorem IsIdentifier.colon_notMem {t : Text} (h : IsIdentifier t) : ':' ∉ t := fun hmem => by
  have hcolon : isIdentChar ':' = true := h.chars _ hmem
  exact absurd hcolon (by decide)

end Text

namespace Method

open Text

/-! ### The words of a selector -/

/-- **How many arguments a selector asks for**: one for each of its words, and none if it is a bare
word. -/
def arity (m : Method) : Nat := if m.takesArguments then m.components.length else 0

/-- All the words in front of arguments are identifiers, if the first one is. -/
theorem isIdentifier_of_mem_groups {word t : Text} {groups : List (Text × Argument)}
    (hword : IsIdentifier word) (h : groups? word t = some groups) :
    ∀ g ∈ groups, IsIdentifier g.1 := by
  fun_induction groups? word t generalizing groups with
  | case1 => simp at h
  | case2 word t r _ argument rest _ _ =>
    intro g hg
    rw [← Option.some.inj h, List.mem_singleton] at hg
    rw [hg]
    exact hword
  | case3 word t r _ argument rest _ next rest' hnext ih =>
    obtain ⟨later, hlater, rfl⟩ := Option.map_eq_some_iff.mp h
    have hrest := ih (isIdentifier_of_identifier? hnext) hlater
    intro g hg
    rcases List.mem_cons.mp hg with rfl | hg
    · exact hword
    · exact hrest g hg
  | case4 =>
    intro g hg
    rw [← Option.some.inj h] at hg
    simp at hg

/-- Words with their colons, cut at the colons, are the words again, and nothing behind the last
colon. -/
theorem splitOn_flatMap_colon {groups : List (Text × Argument)}
    (h : ∀ g ∈ groups, IsIdentifier g.1) :
    (groups.flatMap fun g => g.1 ++ [':']).splitOn ':' = groups.map Prod.fst ++ [[]] := by
  induction groups with
  | nil => rfl
  | cons g rest ih =>
    have hrest := ih fun g' hg' => h g' (List.mem_cons_of_mem _ hg')
    have hfirst : ∀ c ∈ g.1, (c == ':') = false := fun c hc => by
      refine beq_eq_false_iff_ne.mpr fun he => ?_
      exact (h g List.mem_cons_self).colon_notMem (he ▸ hc)
    rw [List.splitOn_eq_splitOnP] at hrest ⊢
    rw [List.flatMap_cons, List.append_assoc, List.singleton_append,
      List.splitOnP_append_cons_of_forall_mem hfirst _ (by decide), hrest]
    rfl

/-- **The words of a selector** are those it was put together from. -/
theorem components_selector {m : Method} {groups : List (Text × Argument)}
    (hkey : m.key = groups.flatMap fun g => g.1 ++ [':']) (h : ∀ g ∈ groups, IsIdentifier g.1) :
    m.components = groups.map Prod.fst := by
  have hwords : ∀ w ∈ groups.map Prod.fst, (!w.isEmpty) = true := by
    intro w hw
    obtain ⟨g, hg, rfl⟩ := List.mem_map.mp hw
    have hne := (h g hg).ne_nil
    simpa using hne
  rw [components, hkey, splitOn_flatMap_colon h, List.filter_append,
    List.filter_eq_self.mpr hwords]
  simp

/-- A selector of at least one group ends with a colon. -/
theorem getLast?_flatMap_colon {groups : List (Text × Argument)} (h : groups ≠ []) :
    (groups.flatMap fun g => g.1 ++ [':']).getLast? = some ':' := by
  obtain ⟨init, last, rfl⟩ := List.eq_nil_or_concat groups |>.resolve_left h
  rw [List.concat_eq_append, List.flatMap_append, List.flatMap_singleton, ← List.append_assoc,
    List.getLast?_concat]

/-- An identifier does not end with a colon. -/
theorem takesArguments_of_isIdentifier {m : Method} (h : IsIdentifier m.key) :
    m.takesArguments = false := by
  refine beq_eq_false_iff_ne.mpr fun hlast => ?_
  exact h.colon_notMem (List.mem_of_getLast? hlast)

/-- A selector has one colon for each group. -/
theorem count_colon_selector {first : Text} {groups : List (Text × Argument)}
    (hfirst : IsIdentifier first) (h : ∀ g ∈ groups, IsIdentifier g.1) :
    (selector first groups).count ':' = groups.length := by
  have hcount : (groups.flatMap fun g => g.1 ++ [':']).count ':' = groups.length := by
    induction groups with
    | nil => rfl
    | cons g rest ih =>
      have hrest := ih fun g' hg' => h g' (List.mem_cons_of_mem _ hg')
      have hword := List.count_eq_zero.mpr (h g List.mem_cons_self).colon_notMem
      rw [List.flatMap_cons, List.count_append, List.count_append, hword, hrest,
        List.count_singleton_self, List.length_cons]
      omega
  unfold selector
  split
  · rename_i hnone
    rw [List.isEmpty_iff.mp hnone]
    exact List.count_eq_zero.mpr hfirst.colon_notMem
  · exact hcount

/-! ### Methods that are read -/

/-- **What a method is read from**: a first word, and groups of a word and an argument. -/
theorem exists_groups_of_parse {t : Text} {m : Method} (h : parse t = some m) :
    ∃ first groups, IsIdentifier first ∧ (∀ g ∈ groups, IsIdentifier g.1) ∧
      m.key = selector first groups ∧ m.arguments = groups.map Prod.snd := by
  unfold parse at h
  split at h
  · simp at h
  simp only [Option.bind_eq_bind, Option.bind_eq_some_iff] at h
  obtain ⟨scope, -, ⟨returnType, r⟩, -, ⟨first, r'⟩, hfirst, groups, hgroups, hm⟩ := h
  have hword : IsIdentifier first := isIdentifier_of_identifier? hfirst
  have hwords := isIdentifier_of_mem_groups hword hgroups
  have hm := Option.some.inj hm
  exact ⟨first, groups, hword, hwords, by rw [← hm], by rw [← hm]⟩

/-- A method that is read has one argument for each colon of its selector. -/
theorem arguments_length_eq_count_of_parse {t : Text} {m : Method} (h : parse t = some m) :
    m.arguments.length = m.key.count ':' := by
  obtain ⟨first, groups, hfirst, hwords, hkey, harguments⟩ := exists_groups_of_parse h
  rw [harguments, hkey, count_colon_selector hfirst hwords, List.length_map]

/-- **A method that is read has the arguments its selector asks for.** -/
theorem arguments_length_of_parse {t : Text} {m : Method} (h : parse t = some m) :
    m.arguments.length = m.arity := by
  obtain ⟨first, groups, hfirst, hwords, hkey, harguments⟩ := exists_groups_of_parse h
  by_cases hnone : groups = []
  · -- a bare word
    have hbare : m.takesArguments = false := by
      refine takesArguments_of_isIdentifier ?_
      rw [hkey, hnone]
      exact hfirst
    rw [harguments, hnone, arity, hbare]
    rfl
  · have hflat : m.key = groups.flatMap fun g => g.1 ++ [':'] := by
      rw [hkey, selector, if_neg (by simpa using hnone)]
    have htakes : m.takesArguments = true := by
      rw [takesArguments, hflat, getLast?_flatMap_colon hnone]
      rfl
    rw [harguments, arity, if_pos htakes, components_selector hflat hwords, List.length_map,
      List.length_map]

/-- **A method that has the arguments its selector asks for can be called.** -/
theorem exists_invocation {m : Method} (h : m.arguments.length = m.arity) :
    ∃ call, m.invocation = .ok call := by
  unfold invocation
  cases htakes : m.takesArguments with
  | false => exact ⟨_, rfl⟩
  | true =>
    have hlength : m.components.length = m.arguments.length := by
      rw [h, arity, if_pos htakes]
    rw [if_neg (by simp), if_neg fun hne => hne hlength]
    exact ⟨_, rfl⟩

end Method

end CommonHeaders
