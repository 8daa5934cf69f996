import CommonHeaders.Proofs.CommonEnums
import CommonHeaders.Proofs.ScanSteps
import CommonHeaders.Proofs.SelectorArity
import CommonHeaders.Proofs.TypeOccurrences

/-! # Tables stay well-formed

Whatever is put into a table is put there under its own name: an interface and an enumeration under
their names, a method under its selector, a property under its name. Classes and protocols are never
mixed, a method has the arguments its selector asks for, and no member of a class is required, as
only members read inside a protocol are. All of this is kept by everything that is done to a corpus
and carried over to flattened members and to common interfaces.

* `stable_wellFormed`: every step of a scan keeps tables well-formed.
* `wellFormed_of_reached`: so are all corpora reached by scanning, feeding lines and renaming.
* `Flattened.Stands.merged`: merging accessors keeps flattened members so.
* `reached_tables_wellFormed`: the corpora, their flattened members and their common models. -/

namespace CommonHeaders

/-! ### Entries of tables -/

namespace Table

variable {α β : Type} {P : Text → α → Prop} {t : Table α} {key : Text}

/-- Every entry of the table has the property. -/
def Each (P : Text → α → Prop) (t : Table α) : Prop := ∀ key a, t.get? key = some a → P key a

theorem each_empty : (empty : Table α).Each P := fun _ _ h => by simp at h

theorem Each.insert {a : α} (ht : t.Each P) (ha : P key a) : (t.insert key a).Each P := by
  intro key' b hb
  rw [get?_insert] at hb
  split at hb
  · rename_i hkey
    rw [← hkey, ← Option.some.inj hb]
    exact ha
  · exact ht key' b hb

theorem Each.modify {f : α → α} (ht : t.Each P) (hf : ∀ a, P key a → P key (f a)) :
    (t.modify key f).Each P := by
  intro key' b hb
  rw [get?_modify] at hb
  split at hb
  · rename_i hkey
    obtain ⟨a, ha, rfl⟩ := Option.map_eq_some_iff.mp hb
    subst hkey
    exact hf a (ht key a ha)
  · exact ht key' b hb

theorem Each.map {Q : Text → β → Prop} {f : α → β} (ht : t.Each P)
    (hf : ∀ key a, P key a → Q key (f a)) : (t.map f).Each Q := by
  intro key b hb
  rw [get?_map] at hb
  obtain ⟨a, ha, rfl⟩ := Option.map_eq_some_iff.mp hb
  exact hf key a (ht key a ha)

/-- What a table holds, or what stands for it, has the property. -/
theorem Each.getD {d : α} (ht : t.Each P) (hd : P key d) : P key ((t.get? key).getD d) := by
  cases h : t.get? key with
  | none => exact hd
  | some a => exact ht key a h

end Table

/-! ### Members and interfaces -/

/-- **A method as it stands in a table**: under its selector, with the arguments that the selector
asks for, one for each colon; and not required, if it is a member of a class. -/
structure Method.Stands (inClass : Bool) (key : Text) (m : Method) : Prop where
  key_eq : m.key = key
  arity : m.arguments.length = m.arity
  colons : m.arguments.length = m.key.count ':'
  optional : inClass = true → m.flags.required = false

/-- **A property as it stands in a table**: under its name, and not required in a class. -/
structure Property.Stands (inClass : Bool) (name : Text) (p : Property) : Prop where
  name_eq : p.name = name
  optional : inClass = true → p.required = false

/-- **An interface as it stands in a table**: under its name, a class among classes or a protocol
among protocols, with members that stand in their tables. -/
structure Interface.Stands (inClass : Bool) (name : Text) (i : Interface) : Prop where
  name_eq : i.name = name
  isClass : i.isClass = inClass
  methods : i.methods.Each (Method.Stands inClass)
  properties : i.properties.Each (Property.Stands inClass)

/-- **Flattened members as they stand in their tables.** -/
structure Flattened.Stands (inClass : Bool) (f : Flattened) : Prop where
  methods : f.methods.Each (Method.Stands inClass)
  properties : f.properties.Each (Property.Stands inClass)

/-- A member that may stand in a class may stand anywhere. -/
theorem Method.Stands.anywhere {key : Text} {m : Method} (h : m.Stands true key) (inClass : Bool) :
    m.Stands inClass key := ⟨h.key_eq, h.arity, h.colons, fun _ => h.optional rfl⟩

theorem Property.Stands.anywhere {name : Text} {p : Property} (h : p.Stands true name)
    (inClass : Bool) : p.Stands inClass name := ⟨h.name_eq, fun _ => h.optional rfl⟩

namespace Interface

variable {inClass : Bool} {name : Text} {i : Interface}

theorem stands_newClass (name : Text) (superclass : Option Text) :
    (newClass name superclass).Stands true name :=
  ⟨rfl, rfl, Table.each_empty, Table.each_empty⟩

theorem stands_newProtocol (name : Text) : (newProtocol name).Stands false name :=
  ⟨rfl, rfl, Table.each_empty, Table.each_empty⟩

theorem Stands.addMethod {m : Method} (hi : i.Stands inClass name) (hm : m.Stands inClass m.key) :
    (i.addMethod m).Stands inClass name := { hi with methods := hi.methods.insert hm }

theorem Stands.addProperty {p : Property} (hi : i.Stands inClass name)
    (hp : p.Stands inClass p.name) : (i.addProperty p).Stands inClass name :=
  { hi with properties := hi.properties.insert hp }

theorem Stands.adoptAll (hi : i.Stands inClass name) (names : List Text) :
    (i.adoptAll names).Stands inClass name :=
  ⟨hi.name_eq, hi.isClass, hi.methods, hi.properties⟩

theorem Stands.setSuperclass (hi : i.Stands inClass name) (superclass : Text) :
    (i.setSuperclass superclass).Stands inClass name := by
  have hkind := hi.isClass
  unfold Interface.setSuperclass
  unfold Interface.isClass at hkind
  split
  · rename_i h
    rw [h] at hkind
    exact ⟨hi.name_eq, hkind, hi.methods, hi.properties⟩
  · exact hi

end Interface

/-! ### Scans -/

namespace Corpus

/-- **A corpus with well-formed tables.** -/
structure WellFormed (c : Corpus) : Prop where
  classes : c.classes.Each (Interface.Stands true)
  protocols : c.protocols.Each (Interface.Stands false)
  enums : c.enums.Each fun name e => e.name = name

theorem wellFormed_empty : WellFormed empty :=
  ⟨Table.each_empty, Table.each_empty, Table.each_empty⟩

end Corpus

namespace Scan

variable {settings : Settings} {s : Scan}

/-- A change of the open interface, for which it matters only that members of classes are not
required. -/
theorem wellFormed_modifyPlace (hs : s.corpus.WellFormed) {f : Interface → Interface}
    (hf : ∀ {inClass name i}, (inClass = true → s.requiresMember = false) →
      i.Stands inClass name → (f i).Stands inClass name) :
    (s.modifyPlace f).corpus.WellFormed := by
  unfold modifyPlace
  split
  · rename_i hplace
    have hclass : s.requiresMember = false := by rw [requiresMember, hplace]
    exact { hs with classes := hs.classes.modify fun _ hi => hf (fun _ => hclass) hi }
  · exact { hs with protocols := hs.protocols.modify fun _ hi => hf (fun h => by simp at h) hi }
  · exact hs

theorem wellFormed_addMember (text : Text) (hs : s.corpus.WellFormed) :
    (s.addMember text).corpus.WellFormed := by
  unfold addMember
  split
  · split
    · rename_i p _
      exact wellFormed_modifyPlace hs fun hclass hi => hi.addProperty ⟨rfl, hclass⟩
    · exact hs
  · split
    · rename_i m hm
      have harity := Method.arguments_length_of_parse hm
      have hcolons := Method.arguments_length_eq_count_of_parse hm
      exact wellFormed_modifyPlace hs fun hclass hi => hi.addMethod ⟨rfl, harity, hcolons, hclass⟩
    · exact hs

theorem wellFormed_openCategory (className category : Text) (adopted : Option Text)
    (hs : s.corpus.WellFormed) :
    (s.openCategory settings className category adopted).corpus.WellFormed := by
  unfold openCategory
  split
  · exact hs
  · have hknown := hs.classes.getD (Interface.stands_newClass className none)
    exact { hs with classes := hs.classes.insert (hknown.adoptAll _) }

theorem wellFormed_enumBody (text : Text) (hs : s.corpus.WellFormed) :
    (s.enumBody text).corpus.WellFormed := by
  unfold enumBody
  split
  · exact hs
  · exact { hs with enums := hs.enums.modify fun _ he => he }

/-- **Every step of a scan keeps tables well-formed.** -/
theorem stable_wellFormed (settings : Settings) :
    Stable settings fun s => s.corpus.WellFormed where
  leave hs := hs
  endEnum hs := hs
  note _ _ _ hs := hs
  addMember := wellFormed_addMember
  openClass {s _ name superclass _ _} _ hs := by
    have hknown := hs.classes.getD (Interface.stands_newClass name none)
    have hopened := (hknown.setSuperclass superclass).adoptAll
    exact { hs with classes := hs.classes.insert (hopened _) }
  openCategory _ hs := wellFormed_openCategory _ _ _ hs
  openProtocol {s _ name _} _ hs := by
    have hknown := hs.protocols.getD (Interface.stands_newProtocol name)
    exact { hs with protocols := hs.protocols.insert (hknown.adoptAll _) }
  openEnum _ hs := { hs with enums := hs.enums.insert rfl }
  enumBody := wellFormed_enumBody

end Scan

/-! ### Renaming -/

namespace Renaming

variable (r : Renaming) {inClass : Bool} {name : Text}

theorem stands_renameMethod {m : Method} (h : m.Stands inClass name) :
    (r.renameMethod m).Stands inClass name := by
  have hlength : (r.renameMethod m).arguments.length = m.arguments.length := List.length_map _
  exact ⟨h.key_eq, hlength.trans h.arity, hlength.trans h.colons, h.optional⟩

theorem stands_renameInterface {i : Interface} (h : i.Stands inClass name) :
    (r.renameInterface i).Stands inClass name where
  name_eq := h.name_eq
  isClass := h.isClass
  methods := h.methods.map fun _ _ hm => stands_renameMethod r hm
  properties := h.properties.map fun _ _ hp => ⟨hp.name_eq, hp.optional⟩

theorem wellFormed_renameCorpus {c : Corpus} (h : c.WellFormed) :
    (r.renameCorpus c).WellFormed where
  classes := h.classes.map fun _ _ hi => stands_renameInterface r hi
  protocols := h.protocols.map fun _ _ hi => stands_renameInterface r hi
  enums := h.enums

end Renaming

namespace Corpus

/-- **Reached corpora**: those that come from the empty one by scanning headers, feeding lines and
renaming, in any order, each step with settings and names of its own. -/
inductive Reached : Corpus → Prop where
  | empty : Reached empty
  | scanText {c : Corpus} (settings : Settings) (text : Text) (h : Reached c) :
    Reached (c.scanText settings text)
  | feedLines {c : Corpus} (settings : Settings) (lines : List Text) (h : Reached c) :
    Reached (c.feedLines settings lines)
  | rename {c : Corpus} (names : CommonNames) (settings : Settings) (h : Reached c) :
    Reached ((Renaming.ofNames names settings).renameCorpus c)

theorem wellFormed_feedLines {c : Corpus} (settings : Settings) (lines : List Text)
    (h : c.WellFormed) : (c.feedLines settings lines).WellFormed :=
  (Scan.stable_wellFormed settings).feedAll (s := { corpus := c }) lines h

/-- **Reached corpora have well-formed tables.** -/
theorem wellFormed_of_reached {c : Corpus} (h : c.Reached) : c.WellFormed := by
  induction h with
  | empty => exact wellFormed_empty
  | scanText settings text _ ih => exact wellFormed_feedLines settings _ ih
  | feedLines settings lines _ ih => exact wellFormed_feedLines settings lines ih
  | rename names settings _ ih => exact (Renaming.ofNames names settings).wellFormed_renameCorpus ih

/-! ### Flattened members -/

/-- **Flattened members stand in their tables**: they are own members or members of classes. -/
theorem stands_flatten {c : Corpus} (hc : c.WellFormed) {inClass : Bool} {name : Text}
    {i : Interface} (hi : i.Stands inClass name) : (c.flatten i).Stands inClass where
  methods key m hm := by
    rw [get?_flatten_methods] at hm
    rcases nearest_cases Interface.methods hm with hm | ⟨name', a, ha, hm⟩
    · exact hi.methods key m hm
    · exact ((hc.classes name' a ha).methods key m hm).anywhere inClass
  properties key p hp := by
    rw [get?_flatten_properties] at hp
    rcases nearest_cases Interface.properties hp with hp | ⟨name', a, ha, hp⟩
    · exact hi.properties key p hp
    · exact ((hc.classes name' a ha).properties key p hp).anywhere inClass

end Corpus

/-! ### Members in common -/

section Common

variable {inClass : Bool} {mobile desktop : Flattened}

/-- Merging accessors only takes methods away and hands properties on under their names. -/
theorem Flattened.Stands.merged (hm : mobile.Stands inClass) (hd : desktop.Stands inClass) :
    (mergeAccessors mobile desktop).1.Stands inClass ∧
      (mergeAccessors mobile desktop).2.Stands inClass := by
  have htarget {source target : Table Property} (methods : Table Method)
      (hs : source.Each (Property.Stands inClass)) (ht : target.Each (Property.Stands inClass)) :
      (Accessors.merge methods source target).target.Each (Property.Stands inClass) := by
    intro name p hp
    rcases Accessors.get?_merge_target hp with hp | hp
    · exact ht name p hp
    · exact hs name p hp
  have hmethods {methods : Table Method} (source target : Table Property)
      (h : methods.Each (Method.Stands inClass)) :
      (Accessors.merge methods source target).methods.Each (Method.Stands inClass) :=
    fun key m hkey => h key m (Accessors.get?_merge_methods.mp hkey).1
  have hfirst := htarget desktop.methods hm.properties hd.properties
  exact ⟨⟨hmethods _ _ hm.methods, htarget _ hfirst hm.properties⟩,
    ⟨hmethods _ _ hd.methods, hfirst⟩⟩

/-- What two sides share stands in its tables as it does on the mobile side; it is required if it is
so on either side. -/
theorem stands_intersect (hm : mobile.Stands inClass) (hd : desktop.Stands inClass) {name : Text}
    {kind : InterfaceKind} {m d : Interface}
    (hkind : (intersect name kind mobile desktop m d).isClass = inClass) :
    (intersect name kind mobile desktop m d).Stands inClass name where
  name_eq := rfl
  isClass := hkind
  methods key x hx := by
    obtain ⟨a, b, ha, hb, -, rfl⟩ := get?_shared_methods.mp hx
    have ha := hm.methods key a ha
    have hb := hd.methods key b hb
    refine ⟨ha.key_eq, ha.arity, ha.colons, fun h => ?_⟩
    show (a.flags.required || b.flags.required) = false
    rw [ha.optional h, hb.optional h]
    rfl
  properties name x hx := by
    obtain ⟨a, b, ha, hb, -, rfl⟩ := get?_shared_properties.mp hx
    have ha := hm.properties name a ha
    have hb := hd.properties name b hb
    refine ⟨ha.name_eq, fun h => ?_⟩
    show (a.required || b.required) = false
    rw [ha.optional h, hb.optional h]
    rfl

end Common

/-! ### Common models -/

/-- **A common model with well-formed tables.** -/
structure UnifiedModel.WellFormed (model : UnifiedModel) : Prop where
  classes : model.classes.Each fun name u => u.interface.Stands true name
  protocols : model.protocols.Each fun name u => u.interface.Stands false name
  enums : model.enums.Each fun name e => e.name = name

section Model

variable {mobile desktop : Corpus} {name : Text} {p : Pair} {u : UnifiedInterface}

theorem stands_unifyClass (hm : mobile.WellFormed) (hd : desktop.WellFormed)
    (h : unifyClass mobile desktop name p = some u) : u.interface.Stands true name := by
  simp only [unifyClass, Option.bind_eq_bind, Option.bind_eq_some_iff] at h
  obtain ⟨m, hmobile, d, hdesktop, h⟩ := h
  have hmflat := Corpus.stands_flatten hm (hm.classes _ m hmobile)
  have hdflat := Corpus.stands_flatten hd (hd.classes _ d hdesktop)
  obtain ⟨hmerged, hmerged'⟩ := hmflat.merged hdflat
  rw [← Option.some.inj h]
  exact stands_intersect hmerged hmerged' rfl

theorem stands_unifyProtocol (hm : mobile.WellFormed) (hd : desktop.WellFormed)
    (h : unifyProtocol mobile desktop name p = some u) : u.interface.Stands false name := by
  simp only [unifyProtocol, Option.bind_eq_bind, Option.bind_eq_some_iff] at h
  obtain ⟨m, hmobile, d, hdesktop, h⟩ := h
  have hmflat := Corpus.stands_flatten hm (hm.protocols _ m hmobile)
  have hdflat := Corpus.stands_flatten hd (hd.protocols _ d hdesktop)
  rw [← Option.some.inj h]
  exact stands_intersect hmflat hdflat rfl

theorem each_name_unifyEnums {mobile desktop : Table Enumeration}
    (h : mobile.Each fun name e => e.name = name) :
    (unifyEnums mobile desktop).unified.Each fun name e => e.name = name := by
  intro name e he
  obtain ⟨a, b, ha, -, rfl, -, -⟩ := get?_unifyEnums.mp he
  exact h name a ha

/-- **The common model of well-formed corpora is well-formed.** -/
theorem wellFormed_unify (settings : Settings) (hm : mobile.WellFormed) (hd : desktop.WellFormed) :
    (unify settings mobile desktop).WellFormed where
  classes name u hu := by
    rw [unify, Table.get?_filterMap, Option.bind_eq_some_iff] at hu
    obtain ⟨p, -, hu⟩ := hu
    exact stands_unifyClass (Renaming.wellFormed_renameCorpus _ hm)
      (Renaming.wellFormed_renameCorpus _ hd) hu
  protocols name u hu := by
    rw [unify, Table.get?_filterMap, Option.bind_eq_some_iff] at hu
    obtain ⟨p, -, hu⟩ := hu
    exact stands_unifyProtocol (Renaming.wellFormed_renameCorpus _ hm)
      (Renaming.wellFormed_renameCorpus _ hd) hu
  enums := each_name_unifyEnums hm.enums

end Model

/-- **Tables stay well-formed.** Every corpus reached by scanning headers, feeding lines and
renaming has well-formed tables, and so have the flattened members of its interfaces and the common
model of any two such corpora. The methods that stand in these tables can all be called. -/
theorem reached_tables_wellFormed :
    (∀ {c : Corpus}, c.Reached → c.WellFormed ∧
      (∀ name i, c.classes.get? name = some i → (c.flatten i).Stands true) ∧
      ∀ name i, c.protocols.get? name = some i → (c.flatten i).Stands false) ∧
    (∀ (settings : Settings) {mobile desktop : Corpus}, mobile.Reached → desktop.Reached →
      (unify settings mobile desktop).WellFormed) ∧
    ∀ {inClass : Bool} {key : Text} {m : Method}, m.Stands inClass key →
      ∃ call, m.invocation = .ok call := by
  refine ⟨fun {c} hc => ?_, fun settings {mobile desktop} hm hd => ?_, fun {inClass key m} hm => ?_⟩
  · have hwell := Corpus.wellFormed_of_reached hc
    refine ⟨hwell, fun name i hi => ?_, fun name i hi => ?_⟩
    · exact Corpus.stands_flatten hwell (hwell.classes name i hi)
    · exact Corpus.stands_flatten hwell (hwell.protocols name i hi)
  · exact wellFormed_unify settings (Corpus.wellFormed_of_reached hm)
      (Corpus.wellFormed_of_reached hd)
  · exact Method.exists_invocation hm.arity

/-- A mobile class with a method of two arguments. -/
def boxMobile : Corpus :=
  Corpus.empty.scanText .default "@interface UIBox : A\n-(void)put:(id)x at:(int)i;".toList

/-- The same for the desktop. -/
def boxDesktop : Corpus :=
  Corpus.empty.scanText .default "@interface NSBox : A\n-(void)put:(id)x at:(int)i;".toList

/-- The common class of two boxes has the method, and it can be called. -/
theorem reached_tables_wellFormed_boxes :
    boxMobile.WellFormed ∧ (unify .default boxMobile boxDesktop).WellFormed ∧
      ∃ u m call, (unify .default boxMobile boxDesktop).classes.get? "MAIBox".toList = some u ∧
        u.interface.methods.get? "put:at:".toList = some m ∧ m.arguments.length = 2 ∧
        m.invocation = .ok call := by
  obtain ⟨hcorpora, hmodels, hcalls⟩ := reached_tables_wellFormed
  have hmobile : boxMobile.Reached := .scanText _ _ .empty
  have hdesktop : boxDesktop.Reached := .scanText _ _ .empty
  have hmodel := hmodels .default hmobile hdesktop
  have h : ((unify .default boxMobile boxDesktop).classes.get? "MAIBox".toList).any (fun u =>
      (u.interface.methods.get? "put:at:".toList).isSome) = true := by decide +kernel
  obtain ⟨u, hu, hmethod⟩ := (Option.any_eq_true _ _).mp h
  obtain ⟨m, hm⟩ := Option.isSome_iff_exists.mp hmethod
  have hstands := (hmodel.classes _ u hu).methods _ m hm
  obtain ⟨call, hcall⟩ := hcalls hstands
  have htwo : m.arguments.length = 2 := by
    rw [hstands.colons, hstands.key_eq]
    decide
  exact ⟨(hcorpora hmobile).1, hmodel, u, m, call, hu, hm, htwo, hcall⟩

end CommonHeaders
