import CommonHeaders.Inheritance
import CommonHeaders.Proofs.Overlay
import CommonHeaders.Renaming
import Mathlib.Data.List.Induction

/-! # Renamed corpora

Renaming a corpus changes the base names of its types and the names of adopted protocols, and
nothing else. What must stay is the *outline* of an interface: the interface with no base names and
no adopted protocols in it. What changes is read off in the order of the tables: the base names of
an interface become their images, one by one, and so do the names it adopts, of which later repeats
are dropped, as two platform names may have one common name.

Superclasses are in the outline. So from a renamed class one walks up to the renamed classes that
one met before, also around a circle, and it does not matter whether members are flattened first
or renamed first.

* `outline_renameInterface`, `baseNames_renameInterface`: what stays and what changes.
* `names_ofList`: dropping later repeats.
* `flatten_renameCorpus`: flattening and renaming commute.
* `renameCorpus_exact`: all this for the interfaces of a corpus. -/

namespace CommonHeaders

/-! ### What stays -/

/-- A type without its base name. -/
def TypeRef.outline (t : TypeRef) : TypeRef := { t with name := [] }

/-- A method without base names in it. -/
def Method.outline (m : Method) : Method :=
  { m with
    returnType := m.returnType.outline
    arguments := m.arguments.map fun a => { a with type := a.type.outline } }

/-- A property without a base name in it. -/
def Property.outline (p : Property) : Property := { p with type := p.type.outline }

/-- **The outline of an interface**: what it declares, without base names and adopted protocols. -/
def Interface.outline (i : Interface) : Interface :=
  { i with
    methods := i.methods.map Method.outline
    properties := i.properties.map Property.outline
    protocols := .empty }

/-! ### What changes -/

/-- The base names in a method: that of what it returns, then those of its arguments. -/
def Method.baseNames (m : Method) : List Text :=
  m.returnType.name :: m.arguments.map fun a => a.type.name

/-- **The base names in an interface**, methods before properties, both in the order of their
tables. -/
def Interface.baseNames (i : Interface) : List Text :=
  (i.methods.entries.flatMap fun e => e.2.baseNames) ++
    i.properties.entries.map fun e => e.2.type.name

/-- **The names of a list, later repeats dropped.** -/
theorem Adoptions.names_ofList (names : List Text) : (ofList names).names = names.eraseDups := by
  induction names using List.reverseRecOn with
  | nil => rfl
  | append_singleton names name ih =>
    have hlast : ofList (names ++ [name]) = (ofList names).adopt name := adoptAll_append ..
    rw [hlast, List.eraseDups_append, List.cons_removeAll, List.nil_removeAll]
    by_cases h : name ∈ names
    · have hmem : name ∈ (ofList names).names := ih ▸ List.mem_eraseDups.mpr h
      rw [adopt_of_mem hmem, ih]
      simp [h]
    · have hmem : name ∉ (ofList names).names := fun hmem => h (List.mem_eraseDups.mp (ih ▸ hmem))
      rw [names_adopt_of_not_mem hmem, ih]
      simp [h, List.eraseDups_cons]

namespace Renaming

variable (r : Renaming)

theorem outline_renameType (t : TypeRef) : (r.renameType t).outline = t.outline := rfl

theorem outline_renameMethod (m : Method) : (r.renameMethod m).outline = m.outline := by
  simp only [renameMethod, Method.outline, outline_renameType, List.map_map, Function.comp_def]

theorem outline_renameProperty (p : Property) : (r.renameProperty p).outline = p.outline := rfl

/-- **Nothing changes in the outline of an interface.** -/
theorem outline_renameInterface (i : Interface) : (r.renameInterface i).outline = i.outline := by
  have hmethods : Method.outline ∘ r.renameMethod = Method.outline :=
    funext r.outline_renameMethod
  have hproperties : Property.outline ∘ r.renameProperty = Property.outline :=
    funext r.outline_renameProperty
  simp only [renameInterface, Interface.outline, Table.map_map, hmethods, hproperties]

theorem baseNames_renameMethod (m : Method) :
    (r.renameMethod m).baseNames = m.baseNames.map r.renameBase := by
  simp only [renameMethod, Method.baseNames, renameType, List.map_cons, List.map_map,
    Function.comp_def]

/-- **Every base name in an interface becomes its image.** -/
theorem baseNames_renameInterface (i : Interface) :
    (r.renameInterface i).baseNames = i.baseNames.map r.renameBase := by
  simp only [renameInterface, Interface.baseNames, Table.map, Table.mapEntries, List.flatMap_map,
    baseNames_renameMethod, List.map_append, List.map_flatMap, List.map_map, Function.comp_def]
  rfl

end Renaming

/-! ### Flattening -/

namespace Table

theorem erase_map {α β : Type} (f : α → β) (t : Table α) (key : Text) :
    (t.map f).erase key = (t.erase key).map f := by
  ext1 key'
  rw [get?_erase, get?_map, get?_map, get?_erase]
  split <;> rfl

theorem contains_map {α β : Type} (f : α → β) (t : Table α) (key : Text) :
    (t.map f).contains key = t.contains key := by
  rw [contains, contains, get?_map, Option.isSome_map]

theorem map_union {α β : Type} (f : α → β) (t u : Table α) :
    (t.union u).map f = (t.map f).union (u.map f) := by
  ext1 key
  rw [get?_map, get?_union, get?_union, get?_map, get?_map, Option.map_or]

/-- The members of some interfaces laid under a table, all of them changed alike. -/
theorem foldl_union_map {α β : Type} (members : β → Table α) {f : β → β} {g : α → α}
    (h : ∀ b, members (f b) = (members b).map g) (l : List β) (t : Table α) :
    (l.map f).foldl (fun t b => t.union (members b)) (t.map g) =
      (l.foldl (fun t b => t.union (members b)) t).map g := by
  induction l generalizing t with
  | nil => rfl
  | cons b rest ih =>
    rw [List.map_cons, List.foldl_cons, List.foldl_cons, h, ← map_union, ih]

end Table

namespace Corpus

/-- A chain of superclasses does not depend on what else is changed in the classes. -/
theorem lineageFrom_map {f : Interface → Interface} (hf : ∀ i, (f i).superclass = i.superclass)
    (known : Text → Bool) (unmet : Table Interface) (next : Option Text) :
    lineageFrom known (unmet.map f) next =
      ⟨(lineageFrom known unmet next).ancestors.map f,
        (lineageFrom known unmet next).foreignRoot⟩ := by
  induction unmet, next using lineageFrom.induct known with
  | case1 unmet =>
    rw [lineageFrom_none, lineageFrom_none]
    rfl
  | case2 unmet =>
    rw [lineageFrom_root, lineageFrom_root]
    rfl
  | case3 unmet name hroot ancestor hancestor ih =>
    have hmapped : (unmet.map f).get? name = some (f ancestor) := by
      rw [Table.get?_map, hancestor]
      rfl
    rw [lineageFrom_ancestor hroot hancestor, lineageFrom_ancestor hroot hmapped, hf,
      Table.erase_map, ih, List.map_cons]
  | case4 unmet name hroot hnone =>
    have hmapped : (unmet.map f).get? name = none := by
      rw [Table.get?_map, hnone]
      rfl
    rw [lineageFrom_unmet hroot hnone, lineageFrom_unmet hroot hmapped]
    rfl

end Corpus

namespace Renaming

/-- Flattened members, renamed. -/
def renameFlattened (r : Renaming) (f : Flattened) : Flattened :=
  { f with
    methods := f.methods.map r.renameMethod
    properties := f.properties.map r.renameProperty }

variable (r : Renaming) (c : Corpus) (i : Interface)

theorem lineage_renameCorpus :
    (r.renameCorpus c).lineage (r.renameInterface i) =
      ⟨(c.lineage i).ancestors.map r.renameInterface, (c.lineage i).foreignRoot⟩ := by
  have hmap := Corpus.lineageFrom_map (f := r.renameInterface) (fun _ => rfl)
    (fun name => name == i.name || c.classes.contains name) (c.classes.erase i.name) i.superclass
  have hknown : (fun name => name == i.name || (c.classes.map r.renameInterface).contains name) =
      fun name => name == i.name || c.classes.contains name :=
    funext fun name => by rw [Table.contains_map]
  rw [Corpus.lineage, Corpus.lineage, ← hmap, ← Table.erase_map, ← hknown]
  rfl

/-- **Flattening and renaming commute.** -/
theorem flatten_renameCorpus :
    (r.renameCorpus c).flatten (r.renameInterface i) = r.renameFlattened (c.flatten i) := by
  have hmethods := Table.foldl_union_map Interface.methods (f := r.renameInterface)
    (g := r.renameMethod) (fun _ => rfl) (c.lineage i).ancestors i.methods
  have hproperties := Table.foldl_union_map Interface.properties (f := r.renameInterface)
    (g := r.renameProperty) (fun _ => rfl) (c.lineage i).ancestors i.properties
  unfold Corpus.flatten renameFlattened
  rw [lineage_renameCorpus, ← hmethods, ← hproperties]
  rfl

end Renaming

/-! ### The whole -/

/-- **An interface of a corpus and what it is renamed to.** -/
structure IsRenamed (r : Renaming) (c : Corpus) (i i' : Interface) : Prop where
  /-- Nothing else changes than base names and adopted protocols. -/
  outline : i'.outline = i.outline
  baseNames : i'.baseNames = i.baseNames.map r.renameBase
  adopted : i'.protocols.names = (i.protocols.names.map r.renameProtocol).eraseDups
  /-- In the renamed corpus the members are flattened to the flattened members, renamed. -/
  flatten : (r.renameCorpus c).flatten i' = r.renameFlattened (c.flatten i)
  methodKeys : ((r.renameCorpus c).flatten i').methods.keys = (c.flatten i).methods.keys
  propertyKeys : ((r.renameCorpus c).flatten i').properties.keys = (c.flatten i).properties.keys
  foreignRoot : ((r.renameCorpus c).flatten i').foreignRoot = (c.flatten i).foreignRoot

theorem isRenamed_renameInterface (r : Renaming) (c : Corpus) (i : Interface) :
    IsRenamed r c i (r.renameInterface i) where
  outline := r.outline_renameInterface i
  baseNames := r.baseNames_renameInterface i
  adopted := Adoptions.names_ofList _
  flatten := r.flatten_renameCorpus c i
  methodKeys := by
    rw [r.flatten_renameCorpus c i]
    exact Table.keys_map _ _
  propertyKeys := by
    rw [r.flatten_renameCorpus c i]
    exact Table.keys_map _ _
  foreignRoot := by
    rw [r.flatten_renameCorpus c i]
    rfl

/-- **What renaming does to a corpus**, whatever is renamed and whatever the corpus declares. Under
every name stands what the interface there is renamed to, and enumerations are left alone. -/
theorem renameCorpus_exact (r : Renaming) (c : Corpus) :
    c.classes.Alike (IsRenamed r c) (r.renameCorpus c).classes ∧
      c.protocols.Alike (IsRenamed r c) (r.renameCorpus c).protocols ∧
      (r.renameCorpus c).enums = c.enums :=
  ⟨Table.alike_map (isRenamed_renameInterface r c) c.classes,
    Table.alike_map (isRenamed_renameInterface r c) c.protocols, rfl⟩

end CommonHeaders
