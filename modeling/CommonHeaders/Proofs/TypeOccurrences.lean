import CommonHeaders.Proofs.CommonMembers

/-! # Where types come from

A type reference *occurs* among members if it is the return type of a method, the type of one of
its arguments, or the type of a property. On the way to a common interface types are only renamed
and handed on: flattening takes them from superclasses, the merges of accessors from the properties
of the other side, and what both sides share has the types of the mobile side.

* `occurs_renameCorpus`: what occurs in a renamed corpus is the renaming of what occurs in it.
* `occurs_flatten`: what occurs among flattened members occurs in the corpus.
* `occurs_unify`: what occurs in a common interface is the renaming of what occurs in a corpus. -/

namespace CommonHeaders

/-! ### Occurrences -/

/-- **The types that occur** among some methods and properties. -/
inductive Occurs (methods : Table Method) (properties : Table Property) : TypeRef → Prop where
  | returnType {key : Text} {m : Method} (h : methods.get? key = some m) :
    Occurs methods properties m.returnType
  | argument {key : Text} {m : Method} {a : Argument} (h : methods.get? key = some m)
    (ha : a ∈ m.arguments) : Occurs methods properties a.type
  | property {name : Text} {p : Property} (h : properties.get? name = some p) :
    Occurs methods properties p.type

/-- The types that occur among the members of an interface. -/
def Interface.Occurs (i : Interface) : TypeRef → Prop :=
  CommonHeaders.Occurs i.methods i.properties

/-- **The types that occur in a corpus**, in its classes and its protocols. -/
inductive Corpus.Occurs (c : Corpus) : TypeRef → Prop where
  | inClass {name : Text} {i : Interface} {t : TypeRef} (h : c.classes.get? name = some i)
    (ht : i.Occurs t) : Occurs c t
  | inProtocol {name : Text} {i : Interface} {t : TypeRef} (h : c.protocols.get? name = some i)
    (ht : i.Occurs t) : Occurs c t

/-! ### Renaming -/

section Renaming

variable {r : Renaming} {t : TypeRef}

theorem occurs_renameInterface {i : Interface} (h : (r.renameInterface i).Occurs t) :
    ∃ t', i.Occurs t' ∧ t = r.renameType t' := by
  unfold Interface.Occurs Renaming.renameInterface at h
  cases h with
  | returnType h =>
    rw [Table.get?_map, Option.map_eq_some_iff] at h
    obtain ⟨m, hm, rfl⟩ := h
    exact ⟨m.returnType, .returnType hm, rfl⟩
  | argument h ha =>
    rw [Table.get?_map, Option.map_eq_some_iff] at h
    obtain ⟨m, hm, rfl⟩ := h
    obtain ⟨a', ha', rfl⟩ := List.mem_map.mp ha
    exact ⟨a'.type, .argument hm ha', rfl⟩
  | property h =>
    rw [Table.get?_map, Option.map_eq_some_iff] at h
    obtain ⟨p, hp, rfl⟩ := h
    exact ⟨p.type, .property hp, rfl⟩

/-- **What occurs in a renamed corpus** is the renaming of what occurs in the corpus. -/
theorem occurs_renameCorpus {c : Corpus} (h : (r.renameCorpus c).Occurs t) :
    ∃ t', c.Occurs t' ∧ t = r.renameType t' := by
  unfold Renaming.renameCorpus at h
  cases h with
  | inClass h ht =>
    rw [Table.get?_map, Option.map_eq_some_iff] at h
    obtain ⟨i, hi, rfl⟩ := h
    obtain ⟨t', ht', rfl⟩ := occurs_renameInterface ht
    exact ⟨t', .inClass hi ht', rfl⟩
  | inProtocol h ht =>
    rw [Table.get?_map, Option.map_eq_some_iff] at h
    obtain ⟨i, hi, rfl⟩ := h
    obtain ⟨t', ht', rfl⟩ := occurs_renameInterface ht
    exact ⟨t', .inProtocol hi ht', rfl⟩

end Renaming

/-! ### Flattening -/

namespace Corpus

theorem get?_of_mem_ancestors {known : Text → Bool} {unmet : Table Interface}
    {next : Option Text} {a : Interface}
    (h : a ∈ (lineageFrom known unmet next).ancestors) : ∃ name, unmet.get? name = some a := by
  induction unmet, next using lineageFrom.induct known with
  | case1 unmet =>
    rw [lineageFrom_none] at h
    exact absurd h List.not_mem_nil
  | case2 unmet =>
    rw [lineageFrom_root] at h
    exact absurd h List.not_mem_nil
  | case3 unmet name hroot ancestor hancestor ih =>
    rw [lineageFrom_ancestor hroot hancestor] at h
    rcases List.mem_cons.mp h with rfl | h
    · exact ⟨name, hancestor⟩
    · obtain ⟨name', hname'⟩ := ih h
      rw [Table.get?_erase] at hname'
      split at hname'
      · simp at hname'
      · exact ⟨name', hname'⟩
  | case4 unmet name hroot hnone =>
    rw [lineageFrom_unmet hroot hnone] at h
    exact absurd h List.not_mem_nil

/-- The ancestors of an interface are classes of the corpus. -/
theorem get?_of_mem_lineage {c : Corpus} {i a : Interface} (h : a ∈ (c.lineage i).ancestors) :
    ∃ name, c.classes.get? name = some a := by
  obtain ⟨name, hname⟩ := get?_of_mem_ancestors h
  rw [Table.get?_erase] at hname
  split at hname
  · simp at hname
  · exact ⟨name, hname⟩

/-- The first member found along the chain of an interface is its own or one of a class. -/
theorem nearest_cases {α : Type} (members : Interface → Table α) {c : Corpus} {i : Interface}
    {key : Text} {x : α}
    (h : ((members i).get? key).or
      ((c.lineage i).ancestors.findSome? fun a => (members a).get? key) = some x) :
    (members i).get? key = some x ∨
      ∃ name a, c.classes.get? name = some a ∧ (members a).get? key = some x := by
  rcases Option.or_eq_some_iff.mp h with h | ⟨-, h⟩
  · exact Or.inl h
  · obtain ⟨a, ha, hx⟩ := List.exists_of_findSome?_eq_some h
    obtain ⟨name, hname⟩ := get?_of_mem_lineage ha
    exact Or.inr ⟨name, a, hname, hx⟩

/-- **What occurs among flattened members** occurs in the corpus. -/
theorem occurs_flatten {c : Corpus} {i : Interface} {t : TypeRef}
    (hi : ∀ t, i.Occurs t → c.Occurs t)
    (h : CommonHeaders.Occurs (c.flatten i).methods (c.flatten i).properties t) : c.Occurs t := by
  cases h with
  | returnType h =>
    rw [get?_flatten_methods] at h
    rcases nearest_cases Interface.methods h with h | ⟨name, a, ha, h⟩
    · exact hi _ (.returnType h)
    · exact .inClass ha (.returnType h)
  | argument h harg =>
    rw [get?_flatten_methods] at h
    rcases nearest_cases Interface.methods h with h | ⟨name, a, ha, h⟩
    · exact hi _ (.argument h harg)
    · exact .inClass ha (.argument h harg)
  | property h =>
    rw [get?_flatten_properties] at h
    rcases nearest_cases Interface.properties h with h | ⟨name, a, ha, h⟩
    · exact hi _ (.property h)
    · exact .inClass ha (.property h)

end Corpus

/-! ### Common interfaces -/

theorem SharedMethod.types_eq {mobile desktop : Table Method} {key : Text} {x : Method}
    (h : SharedMethod mobile desktop key x) :
    ∃ a, mobile.get? key = some a ∧ x.returnType = a.returnType ∧ x.arguments = a.arguments := by
  obtain ⟨a, b, ha, -, -, rfl⟩ := h
  exact ⟨a, ha, rfl, rfl⟩

theorem SharedProperty.type_eq {mobile desktop : Table Property} {name : Text} {x : Property}
    (h : SharedProperty mobile desktop name x) :
    ∃ a, mobile.get? name = some a ∧ x.type = a.type := by
  obtain ⟨a, b, ha, -, -, rfl⟩ := h
  exact ⟨a, ha, rfl⟩

/-- What the members of an interface have from the shared members of some tables occurs in them. -/
theorem occurs_of_shared {u : Interface} {methods methods' : Table Method}
    {properties properties' : Table Property}
    (hmethods : ∀ key x, u.methods.get? key = some x → SharedMethod methods methods' key x)
    (hproperties : ∀ name x, u.properties.get? name = some x →
      SharedProperty properties properties' name x)
    {t : TypeRef} (h : u.Occurs t) : Occurs methods properties t := by
  cases h with
  | returnType h =>
    obtain ⟨a, ha, hreturn, -⟩ := (hmethods _ _ h).types_eq
    rw [hreturn]
    exact .returnType ha
  | argument h harg =>
    obtain ⟨a, ha, -, harguments⟩ := (hmethods _ _ h).types_eq
    exact .argument ha (harguments ▸ harg)
  | property h =>
    obtain ⟨a, ha, htype⟩ := (hproperties _ _ h).type_eq
    rw [htype]
    exact .property ha

/-- The types of a common protocol occur on the mobile side. -/
theorem occurs_of_protocolMembers {mobile desktop : Corpus} {m d u : Interface} {name : Text}
    (hm : mobile.protocols.get? name = some m) (hu : ProtocolMembers mobile desktop m d u)
    {t : TypeRef} (h : u.Occurs t) : mobile.Occurs t := by
  have hflat := occurs_of_shared (fun key x => (hu.methods key x).mp)
    (fun name x => (hu.properties name x).mp) h
  exact Corpus.occurs_flatten (fun _ ht => .inProtocol hm ht) hflat

/-- A property in the mobile table after both merges is one of either side. -/
theorem mobileMerge_target_cases {mobile desktop : Flattened} {name : Text} {p : Property}
    (h : (mobileMerge mobile desktop).target.get? name = some p) :
    mobile.properties.get? name = some p ∨ desktop.properties.get? name = some p := by
  rcases Accessors.get?_merge_target h with h | h
  · exact Or.inl h
  · exact (Accessors.get?_merge_target h).symm

/-- The types of a common class occur on one of the sides. -/
theorem occurs_of_classMembers {mobile desktop : Corpus} {m d u : Interface} {name name' : Text}
    (hm : mobile.classes.get? name = some m) (hd : desktop.classes.get? name' = some d)
    (hu : ClassMembers mobile desktop m d u) {t : TypeRef} (h : u.Occurs t) :
    mobile.Occurs t ∨ desktop.Occurs t := by
  have hmobile {t : TypeRef} := Corpus.occurs_flatten (t := t) fun _ ht => .inClass hm ht
  have hdesktop {t : TypeRef} := Corpus.occurs_flatten (t := t) fun _ ht => .inClass hd ht
  have hmerged := occurs_of_shared (fun key x hx => ((hu.methods key x).mp hx).1)
    (fun name x => (hu.properties name x).mp) h
  cases hmerged with
  | returnType hx => exact Or.inl (hmobile (.returnType hx))
  | argument hx ha => exact Or.inl (hmobile (.argument hx ha))
  | property hx =>
    rcases mobileMerge_target_cases hx with hx | hx
    · exact Or.inl (hmobile (.property hx))
    · exact Or.inr (hdesktop (.property hx))

/-- The common interfaces of a model. -/
inductive UnifiedModel.Has (model : UnifiedModel) : UnifiedInterface → Prop where
  | inClass {name : Text} {u : UnifiedInterface} (h : model.classes.get? name = some u) :
    Has model u
  | inProtocol {name : Text} {u : UnifiedInterface} (h : model.protocols.get? name = some u) :
    Has model u

/-- **The types of a common interface** are renamings of types that occur in one of the corpora. -/
theorem occurs_unify {settings : Settings} {mobile desktop : Corpus} {u : UnifiedInterface}
    (hu : (unify settings mobile desktop).Has u) {t : TypeRef} (h : u.interface.Occurs t) :
    ∃ t', (mobile.Occurs t' ∨ desktop.Occurs t') ∧
      t = (commonRenaming settings mobile desktop).renameType t' := by
  have hsides : (mobileSide settings mobile desktop).Occurs t ∨
      (desktopSide settings mobile desktop).Occurs t := by
    cases hu with
    | inClass hu =>
      obtain ⟨p, m, d, hm, hd, hmembers⟩ := classMembers_of_get? hu
      exact occurs_of_classMembers hm hd hmembers h
    | inProtocol hu =>
      obtain ⟨p, m, d, hm, -, hmembers⟩ := protocolMembers_of_get? hu
      exact Or.inl (occurs_of_protocolMembers hm hmembers h)
  rcases hsides with h | h
  · obtain ⟨t', ht', rfl⟩ := occurs_renameCorpus h
    exact ⟨t', Or.inl ht', rfl⟩
  · obtain ⟨t', ht', rfl⟩ := occurs_renameCorpus h
    exact ⟨t', Or.inr ht', rfl⟩

end CommonHeaders
