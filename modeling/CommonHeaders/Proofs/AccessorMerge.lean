import CommonHeaders.Accessors

/-! # What a merge of accessors does to its tables

A merge runs through the properties of one side. Each of them takes its accessors out of the method
table, and at most puts itself into the target, in place of the property of the same name. So after
the whole run the methods left are those that no property names as an accessor, and every property
of the target stood there before or comes from the source under the same name. The latter is the
case exactly if the source property finds its accessors among the methods that the properties of
earlier names have left.

* `get?_merge_methods`: exactly which methods are left.
* `get?_merge_target`: where the properties of the target come from.
* `get?_merge_target_of_source`: exactly which properties are replaced.
* `registered_foldl_absorb`, `merge_exact`: how many, and the whole effect of a merge.
* `isAccessor_mergeFlags`: equivalent properties have the same accessors, also with joined flags. -/

namespace CommonHeaders

/-- **The accessors of a property**: its getter, and its setter if it may be written. -/
def Property.isAccessor (p : Property) (key : Text) : Prop :=
  key = p.effectiveGetter ∨ p.effectiveSetter = some key

instance (p : Property) (key : Text) : Decidable (p.isAccessor key) := by
  unfold Property.isAccessor; infer_instance

/-- Joining the flags of two equivalent properties leaves the accessors as they are, since both may
be written or neither. -/
theorem Property.isAccessor_mergeFlags {a b : Property} (h : a.equivalent b = true) (key : Text) :
    (a.mergeFlags b).isAccessor key ↔ a.isAccessor key := by
  have hr : a.readOnly = b.readOnly := by
    simp only [Property.equivalent, Bool.and_eq_true, beq_iff_eq] at h
    exact h.1.1.2
  have hg : (a.mergeFlags b).effectiveGetter = a.effectiveGetter := rfl
  have hs : (a.mergeFlags b).effectiveSetter = a.effectiveSetter := by
    simp [Property.effectiveSetter, Property.mergeFlags, ← hr]
  unfold Property.isAccessor
  rw [hg, hs]

namespace Accessors

/-- **Claimed selectors**: those that some property of the table has as an accessor. -/
def ClaimedIn (properties : Table Property) (key : Text) : Prop :=
  ∃ name p, properties.get? name = some p ∧ p.isAccessor key

/-! ### The methods -/

/-- The methods left by a run over some properties are those that none of them claims. -/
theorem get?_foldl_absorb_methods {l : List (Text × Property)} {s : State} {key : Text}
    {m : Method} :
    (l.foldl (fun s e => absorb s e.1 e.2) s).methods.get? key = some m ↔
      s.methods.get? key = some m ∧ ∀ e ∈ l, ¬ e.2.isAccessor key := by
  induction l generalizing s with
  | nil => simp
  | cons e rest ih =>
    rw [List.foldl_cons, ih, absorb_methods]
    by_cases h : key = e.2.effectiveGetter ∨ e.2.effectiveSetter = some key
    · rw [if_pos h]
      constructor
      · rintro ⟨hm, -⟩
        simp at hm
      · rintro ⟨-, hl⟩
        exact absurd h (hl e List.mem_cons_self)
    · rw [if_neg h]
      simp only [List.mem_cons, forall_eq_or_imp]
      exact ⟨fun ⟨hm, hl⟩ => ⟨hm, h, hl⟩, fun ⟨hm, _, hl⟩ => ⟨hm, hl⟩⟩

/-- **The methods left by a merge**: those whose selector no source property claims. -/
theorem get?_merge_methods {methods : Table Method} {source target : Table Property} {key : Text}
    {m : Method} :
    (merge methods source target).methods.get? key = some m ↔
      methods.get? key = some m ∧ ¬ ClaimedIn source key := by
  unfold merge ClaimedIn
  rw [get?_foldl_absorb_methods]
  simp only [Table.get?_eq_some_iff, Prod.forall, not_exists, not_and]

/-! ### The target -/

/-- Does a property find its accessors among the methods, complete and fitting? -/
def finds (methods : Table Method) (p : Property) : Bool :=
  (methods.get? p.effectiveGetter).any fun getter =>
    fits p getter (p.effectiveSetter.bind (methods.erase p.effectiveGetter).get?)

/-- A property that finds its accessors takes the place of the property of its name. -/
theorem absorb_target_eq (s : State) (name : Text) (p : Property) :
    (absorb s name p).target =
      if finds s.methods p && s.target.contains name then s.target.insert name p
      else s.target := by
  unfold absorb finds take
  cases s.methods.get? p.effectiveGetter with
  | none => cases p.effectiveSetter <;> rfl
  | some getter =>
    cases p.effectiveSetter <;> simp only [Option.any_some, Option.bind_none, Option.bind_some] <;>
      split <;> rfl

/-- A property leaves the target as it is or takes the place of the property of its name. -/
theorem absorb_target (s : State) (name : Text) (p : Property) :
    (absorb s name p).target = s.target ∨ (absorb s name p).target = s.target.insert name p := by
  rw [absorb_target_eq]
  split
  · exact Or.inr rfl
  · exact Or.inl rfl

theorem get?_foldl_absorb_target {l : List (Text × Property)} {s : State} {name : Text}
    {p : Property}
    (h : (l.foldl (fun s e => absorb s e.1 e.2) s).target.get? name = some p) :
    s.target.get? name = some p ∨ (name, p) ∈ l := by
  induction l generalizing s with
  | nil => exact Or.inl h
  | cons e rest ih =>
    rw [List.foldl_cons] at h
    rcases ih h with h | h
    · rcases absorb_target s e.1 e.2 with ht | ht
      · exact Or.inl (ht ▸ h)
      · rw [ht, Table.get?_insert] at h
        split at h
        · rename_i he
          have hp : e.2 = p := Option.some.inj h
          exact Or.inr (by rw [← he, ← hp]; exact List.mem_cons_self)
        · exact Or.inl h
    · exact Or.inr (List.mem_cons_of_mem _ h)

/-- **The target after a merge** holds properties of the target before, and source properties under
their own names. -/
theorem get?_merge_target {methods : Table Method} {source target : Table Property} {name : Text}
    {p : Property} (h : (merge methods source target).target.get? name = some p) :
    target.get? name = some p ∨ source.get? name = some p := by
  rcases get?_foldl_absorb_target h with h | h
  · exact Or.inl h
  · exact Or.inr (Table.get?_eq_some_iff.mpr h)

/-! ### Which properties are replaced -/

/-- Properties of other names leave the target alone. -/
theorem get?_foldl_absorb_target_of_ne {l : List (Text × Property)} {s : State} {name : Text}
    (h : ∀ e ∈ l, e.1 ≠ name) :
    (l.foldl (fun s e => absorb s e.1 e.2) s).target.get? name = s.target.get? name := by
  induction l generalizing s with
  | nil => rfl
  | cons e rest ih =>
    have he : e.1 ≠ name := h e List.mem_cons_self
    have hrest := ih (s := absorb s e.1 e.2) fun e' he' => h e' (List.mem_cons_of_mem _ he')
    rw [List.foldl_cons, hrest]
    rcases absorb_target s e.1 e.2 with ht | ht
    · rw [ht]
    · rw [ht, Table.get?_insert, if_neg he]

/-- **The methods left for a name**: those that no property of an earlier name claims. -/
def leftFor (methods : Table Method) (source : Table Property) (name : Text) : Table Method :=
  methods.filter fun key _ =>
    decide (∀ e ∈ source.entries, e.1 < name → ¬ e.2.isAccessor key)

theorem get?_leftFor {methods : Table Method} {source : Table Property} {name key : Text}
    {m : Method} :
    (leftFor methods source name).get? key = some m ↔ methods.get? key = some m ∧
      ∀ n p, source.get? n = some p → n < name → ¬ p.isAccessor key := by
  rw [leftFor, Table.get?_filter, Option.filter_eq_some_iff, decide_eq_true_iff]
  simp only [Table.get?_eq_some_iff, Prod.forall]

/-- When the turn of a name has come, the methods left are those left for it. -/
theorem methods_foldl_absorb_eq_leftFor {methods : Table Method} {source : Table Property}
    {s : State} {name : Text} {before : List (Text × Property)} (hs : s.methods = methods)
    (hbefore : ∀ n p, (n, p) ∈ before ↔ source.get? n = some p ∧ n < name) :
    (before.foldl (fun s e => absorb s e.1 e.2) s).methods = leftFor methods source name := by
  ext1 key
  ext m
  rw [get?_foldl_absorb_methods, get?_leftFor, hs]
  refine and_congr_right fun _ => ?_
  simp only [Prod.forall, hbefore, and_imp]

/-- **Which properties are replaced**: those of whose name the source has a property that finds its
accessors among the methods left for it. -/
theorem get?_merge_target_of_source {methods : Table Method} {source target : Table Property}
    {name : Text} {p : Property} (h : source.get? name = some p) :
    (merge methods source target).target.get? name =
      (target.get? name).map fun q => if finds (leftFor methods source name) p then p else q := by
  obtain ⟨before, after, hsplit, hbefore, hafter⟩ := Table.exists_split_of_get? h
  have hearlier : ∀ e ∈ before, e.1 ≠ name := by
    intro e he hne
    exact absurd (hne ▸ ((hbefore e.1 e.2).mp he).2) (List.lt_irrefl _)
  have hmethods := methods_foldl_absorb_eq_leftFor (s := { methods, target }) rfl hbefore
  have htarget := get?_foldl_absorb_target_of_ne (s := { methods, target }) hearlier
  rw [merge, hsplit, List.foldl_append, List.foldl_cons, get?_foldl_absorb_target_of_ne hafter,
    absorb_target_eq, hmethods, Table.contains, htarget]
  cases hq : target.get? name with
  | none => simpa [hq] using htarget
  | some q =>
    by_cases hfinds : finds (leftFor methods source name) p = true
    · simp [hfinds]
    · simpa [hfinds, hq] using htarget

/-- A property of whose name the source has none is not replaced. -/
theorem get?_merge_target_of_not_source {methods : Table Method} {source target : Table Property}
    {name : Text} (h : source.get? name = none) :
    (merge methods source target).target.get? name = target.get? name := by
  have hne : ∀ e ∈ source.entries, e.1 ≠ name := by
    intro e he hname
    have hsome : source.get? name = some e.2 := Table.get?_eq_some_iff.mpr (hname ▸ he)
    rw [h] at hsome
    simp at hsome
  exact get?_foldl_absorb_target_of_ne hne

/-! ### The replacements as a whole -/

/-- **A method still available** when the turn of a name has come: it is in the method table, and
no source property of an earlier name has its selector as an accessor. -/
def Available (methods : Table Method) (source : Table Property) (name key : Text) (m : Method) :
    Prop :=
  methods.get? key = some m ∧ ∀ n q, source.get? n = some q → n < name → ¬ q.isAccessor key

/-- **A replacement**: source and target have a property of the name, its getter is available and
returns its type, and unless it is read-only its setter is another available method, the first
argument of which has its type. -/
structure Replaces (methods : Table Method) (source target : Table Property) (name : Text)
    (p : Property) : Prop where
  inSource : source.get? name = some p
  inTarget : name ∈ target.keys
  getter : ∃ m, Available methods source name p.effectiveGetter m ∧
    m.returnType.equivalent p.type = true
  setter : p.readOnly = true ∨ ∃ key m a, p.effectiveSetter = some key ∧
    key ≠ p.effectiveGetter ∧ Available methods source name key m ∧
    m.arguments.head? = some a ∧ a.type.equivalent p.type = true

/-- What a property finds. A setter that is also the getter is gone with it. -/
theorem finds_iff {methods : Table Method} {p : Property} :
    finds methods p = true ↔
      (∃ m, methods.get? p.effectiveGetter = some m ∧ m.returnType.equivalent p.type = true) ∧
      (p.readOnly = true ∨ ∃ key m a, p.effectiveSetter = some key ∧ key ≠ p.effectiveGetter ∧
        methods.get? key = some m ∧ m.arguments.head? = some a ∧
        a.type.equivalent p.type = true) := by
  have hsetter : (p.effectiveSetter.bind (methods.erase p.effectiveGetter).get?).any
      (fun s => s.arguments.head?.any fun a => a.type.equivalent p.type) = true ↔
      ∃ key m a, p.effectiveSetter = some key ∧ key ≠ p.effectiveGetter ∧
        methods.get? key = some m ∧ m.arguments.head? = some a ∧
        a.type.equivalent p.type = true := by
    simp only [Option.any_eq_true, Option.bind_eq_some_iff, Table.get?_erase,
      Option.ite_none_left_eq_some]
    constructor
    · rintro ⟨m, ⟨key, hkey, hne, hm⟩, a, ha, htype⟩
      exact ⟨key, m, a, hkey, hne, hm, ha, htype⟩
    · rintro ⟨key, m, a, hkey, hne, hm, ha, htype⟩
      exact ⟨m, ⟨key, hkey, hne, hm⟩, a, ha, htype⟩
  simp only [finds, fits, Option.any_eq_true, Bool.and_eq_true, Bool.or_eq_true] at hsetter ⊢
  rw [hsetter, ← exists_and_right]
  exact exists_congr fun m => and_assoc.symm

/-- **The replacements of a merge**: the source properties that find their accessors among the
methods left for them, of names that the target has. -/
def replacements (methods : Table Method) (source target : Table Property) : Table Property :=
  source.filter fun name p => finds (leftFor methods source name) p && target.contains name

theorem get?_replacements {methods : Table Method} {source target : Table Property} {name : Text}
    {p : Property} :
    (replacements methods source target).get? name = some p ↔
      Replaces methods source target name p := by
  have havailable : ∀ key m, (leftFor methods source name).get? key = some m ↔
      Available methods source name key m := fun _ _ => get?_leftFor
  rw [replacements, Table.get?_filter, Option.filter_eq_some_iff, Bool.and_eq_true, finds_iff,
    Table.contains_iff]
  simp only [havailable]
  constructor
  · rintro ⟨hsource, ⟨hgetter, hsetter⟩, htarget⟩
    exact ⟨hsource, htarget, hgetter, hsetter⟩
  · rintro ⟨hsource, htarget, hgetter, hsetter⟩
    exact ⟨hsource, ⟨hgetter, hsetter⟩, htarget⟩

/-- The target has the replacements in place of its own properties, and no other names. -/
theorem get?_merge_target_eq (methods : Table Method) (source target : Table Property)
    (name : Text) :
    (merge methods source target).target.get? name =
      ((replacements methods source target).get? name).or (target.get? name) := by
  rw [replacements, Table.get?_filter]
  cases hp : source.get? name with
  | none => exact get?_merge_target_of_not_source hp
  | some p =>
    rw [get?_merge_target_of_source hp, Option.filter_some, Table.contains]
    cases target.get? name with
    | none => simp
    | some q => by_cases hfinds : finds (leftFor methods source name) p = true <;> simp [hfinds]

/-- A property makes the target no larger and no smaller. -/
theorem contains_absorb_target (s : State) (name : Text) (p : Property) (n : Text) :
    (absorb s name p).target.contains n = s.target.contains n := by
  rw [absorb_target_eq]
  split
  · rename_i h
    rw [Table.contains, Table.get?_insert]
    split
    · rename_i hn
      exact (hn ▸ (Bool.and_eq_true_iff.mp h).2).symm
    · rfl
  · rfl

theorem contains_foldl_absorb_target (l : List (Text × Property)) (s : State) (n : Text) :
    (l.foldl (fun s e => absorb s e.1 e.2) s).target.contains n = s.target.contains n := by
  induction l generalizing s with
  | nil => rfl
  | cons e rest ih => rw [List.foldl_cons, ih, contains_absorb_target]

/-- A property is counted if it finds its accessors and the target has its name. -/
theorem absorb_registered (s : State) (name : Text) (p : Property) :
    (absorb s name p).registered =
      s.registered + if finds s.methods p && s.target.contains name then 1 else 0 := by
  unfold absorb finds take
  cases s.methods.get? p.effectiveGetter with
  | none => cases p.effectiveSetter <;> rfl
  | some getter =>
    cases p.effectiveSetter <;> simp only [Option.any_some, Option.bind_none, Option.bind_some] <;>
      split <;> rfl

/-- From any point on, a run counts the replacements still to come. -/
theorem registered_foldl_absorb (methods : Table Method) (source target : Table Property)
    (before : List (Text × Property)) {after : List (Text × Property)}
    (hsplit : source.entries = before ++ after) :
    (after.foldl (fun s e => absorb s e.1 e.2)
        (before.foldl (fun s e => absorb s e.1 e.2) { methods, target })).registered =
      (before.foldl (fun s e => absorb s e.1 e.2) { methods, target }).registered +
        (after.filter fun e =>
          finds (leftFor methods source e.1) e.2 && target.contains e.1).length := by
  induction after generalizing before with
  | nil => rfl
  | cons e rest ih =>
    have hmethods := methods_foldl_absorb_eq_leftFor (s := { methods, target }) rfl
      (Table.mem_before_iff hsplit)
    have htarget := contains_foldl_absorb_target before { methods, target } e.1
    have hnext := ih (before ++ [e]) (by rw [hsplit, List.append_assoc]; rfl)
    rw [List.foldl_append, List.foldl_cons, List.foldl_nil, absorb_registered, hmethods,
      htarget] at hnext
    rw [List.foldl_cons, hnext, List.filter_cons]
    split
    · rw [List.length_cons, Nat.add_assoc, Nat.add_comm 1]
    · rfl

theorem merge_registered (methods : Table Method) (source target : Table Property) :
    (merge methods source target).registered = (replacements methods source target).size := by
  have hcount := registered_foldl_absorb methods source target [] rfl
  exact hcount.trans (Nat.zero_add _)

/-- **The exact effect of a merge.** Of the methods it leaves those that no source property has as
an accessor, whatever the order of the names. The target keeps its names; the replacements stand in
it and are counted, and all else in it is as it was. -/
theorem merge_exact (methods : Table Method) (source target : Table Property) :
    let after := merge methods source target
    (∀ key m, after.methods.get? key = some m ↔
      methods.get? key = some m ∧ ¬ ClaimedIn source key) ∧
    after.target.keys = target.keys ∧
    ∃ replaced : Table Property,
      (∀ name p, replaced.get? name = some p ↔ Replaces methods source target name p) ∧
      (∀ name, after.target.get? name = (replaced.get? name).or (target.get? name)) ∧
      after.registered = replaced.size := by
  refine ⟨fun _ _ => get?_merge_methods, ?_, replacements methods source target,
    fun _ _ => get?_replacements, get?_merge_target_eq methods source target,
    merge_registered methods source target⟩
  refine Table.keys_eq_of_mem_iff fun name => ?_
  rw [← Table.contains_iff, ← Table.contains_iff, merge, contains_foldl_absorb_target]

/-- Two properties with one getter: that of the earlier name takes it, and the setter of the other
is gone as well. -/
example :
    let methods : Table Method := .ofList (["- (int)count;", "- (void)setSize:(int)size;"].filterMap
      fun t => (Method.parse t.toList).map fun m => (m.key, m))
    let source : Table Property := .ofList
      (["@property (readonly) int count;", "@property (getter=count) int size;"].filterMap
        fun t => (Property.parse t.toList).map fun p => (p.name, p))
    (replacements methods source source).keys = ["count".toList] ∧
      (merge methods source source).methods.keys = [] := by
  decide +kernel

end Accessors

end CommonHeaders
