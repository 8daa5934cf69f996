import CommonHeaders.Proofs.WellFormedTables
import Mathlib.Data.List.Perm.Subperm

/-! # The nearest declaration counts

From a class one can walk up: to its superclass, to the superclass of that, and so on. The walk
comes to rest before the root class, before a name that it has met, before a name that no class
has, and at a class whose superclass is not known. As no name is met twice, it always comes to rest,
whatever the superclasses are, also where they lead in a circle.

The members of a class are those that the classes of this walk declare, the class itself first, and
the first declaration counts. The lineage by which they are flattened takes each class met out of
the table; it is the walk, although that looks back at the names met.

* `Ascent.unique`: there is only one walk.
* `Ascent.nodup`: it meets no class twice.
* `exists_ascent_lineageFrom`: the lineage is the walk.
* `flatten_nearest`: what flattening gives for every class and every protocol. -/

namespace CommonHeaders

open Naming

namespace Corpus

/-! ### Walks -/

/-- A walk that has met the names `visited` comes to rest before the next name. -/
def Rests (classes : Table Interface) (visited : List Text) : Option Text → Prop
  | none => True
  | some name => name = rootClass ∨ name ∈ visited ∨ name ∉ classes.keys

/-- **The walk up**: it has met the names `visited`, goes on at the name `next`, meets the classes
`chain` in turn and comes to rest before the name `stop`. -/
inductive Ascent (classes : Table Interface) :
    List Text → Option Text → List Interface → Option Text → Prop where
  | rest {visited : List Text} {next : Option Text} (h : Rests classes visited next) :
    Ascent classes visited next [] next
  | climb {visited : List Text} {name : Text} {a : Interface} {chain : List Interface}
    {stop : Option Text} (hroot : name ≠ rootClass) (hnew : name ∉ visited)
    (ha : classes.get? name = some a)
    (h : Ascent classes (name :: visited) a.superclass chain stop) :
    Ascent classes visited (some name) (a :: chain) stop

section Walks

variable {classes : Table Interface} {visited : List Text} {stop stop' : Option Text}
  {chain chain' : List Interface}

/-- A walk does not go on where it comes to rest. -/
theorem not_rests {name : Text} {a : Interface} (hroot : name ≠ rootClass)
    (hnew : name ∉ visited) (ha : classes.get? name = some a) :
    ¬ Rests classes visited (some name) := by
  rintro (h | h | h)
  · exact hroot h
  · exact hnew h
  · exact h (Table.mem_keys_of_get? ha)

/-- **There is only one walk.** -/
theorem Ascent.unique {next : Option Text} (h : Ascent classes visited next chain stop)
    (h' : Ascent classes visited next chain' stop') : chain' = chain ∧ stop' = stop := by
  induction h generalizing chain' stop' with
  | rest hrest =>
    cases h' with
    | rest => exact ⟨rfl, rfl⟩
    | climb hroot hnew ha => exact absurd hrest (not_rests hroot hnew ha)
  | climb hroot hnew ha _ ih =>
    cases h' with
    | rest hrest => exact absurd hrest (not_rests hroot hnew ha)
    | climb _ _ ha' h' =>
      obtain rfl := Option.some.inj (ha'.symm.trans ha)
      obtain ⟨rfl, rfl⟩ := ih h'
      exact ⟨rfl, rfl⟩

/-- **A walk meets no class twice**, nor one it had met before, if classes stand under their
names. -/
theorem Ascent.nodup {next : Option Text} (hclasses : classes.Each fun name i => i.name = name)
    (h : Ascent classes visited next chain stop) :
    (chain.map Interface.name).Nodup ∧
      ∀ name ∈ chain.map Interface.name, name ∉ visited ∧ name ∈ classes.keys := by
  induction h with
  | rest => exact ⟨List.nodup_nil, fun _ hname => absurd hname List.not_mem_nil⟩
  | @climb visited name a chain stop hroot hnew ha _ ih =>
    obtain ⟨hnodup, hmet⟩ := ih
    have hname : a.name = name := hclasses name a ha
    rw [List.map_cons, hname]
    refine ⟨List.nodup_cons.mpr ⟨fun hmem => ?_, hnodup⟩, fun n hn => ?_⟩
    · exact (hmet name hmem).1 List.mem_cons_self
    · rcases List.mem_cons.mp hn with rfl | hn
      · exact ⟨hnew, Table.mem_keys_of_get? ha⟩
      · exact ⟨fun hvisited => (hmet n hn).1 (List.mem_cons_of_mem _ hvisited), (hmet n hn).2⟩

/-! ### The lineage -/

/-- **The lineage is the walk.** The classes not yet met are those of the table without the names
visited, and the foreign root is the name before which the walk comes to rest for want of a
class. -/
theorem exists_ascent_lineageFrom {known : Text → Bool}
    (hknown : ∀ name, known name = true ↔ name ∈ classes.keys) {unmet : Table Interface}
    (hunmet : ∀ name, unmet.get? name = if name ∈ visited then none else classes.get? name)
    (next : Option Text) :
    ∃ stop, Ascent classes visited next (lineageFrom known unmet next).ancestors stop ∧
      ∀ name, (lineageFrom known unmet next).foreignRoot = some name ↔
        stop = some name ∧ name ≠ rootClass ∧ name ∉ classes.keys := by
  induction unmet, next using lineageFrom.induct known generalizing visited with
  | case1 unmet =>
    rw [lineageFrom_none]
    exact ⟨none, .rest trivial, fun name => by simp⟩
  | case2 unmet =>
    rw [lineageFrom_root]
    refine ⟨some rootClass, .rest (Or.inl rfl), fun name => ?_⟩
    constructor
    · intro h
      simp at h
    · rintro ⟨h, hroot, -⟩
      exact absurd (Option.some.inj h).symm hroot
  | case3 unmet name hroot ancestor hancestor ih =>
    have hname := hunmet name
    rw [hancestor] at hname
    split at hname
    · simp at hname
    · rename_i hnew
      have herase : ∀ n, (unmet.erase name).get? n =
          if n ∈ name :: visited then none else classes.get? n := by
        intro n
        rw [Table.get?_erase, hunmet]
        by_cases hn : n = name <;> simp [hn]
      obtain ⟨stop, hascent, hforeign⟩ := ih herase
      rw [lineageFrom_ancestor hroot hancestor]
      exact ⟨stop, .climb hroot hnew hname.symm hascent, hforeign⟩
  | case4 unmet name hroot hnone =>
    rw [lineageFrom_unmet hroot hnone]
    have hname := hunmet name
    rw [hnone] at hname
    refine ⟨some name, .rest (Or.inr ?_), fun n => ?_⟩
    · -- the name has been met, or there is no such class
      split at hname
      · rename_i hvisited
        exact Or.inl hvisited
      · right
        rw [Table.mem_keys_iff, ← hname]
        simp
    · by_cases hkey : name ∈ classes.keys
      · rw [if_pos ((hknown name).mpr hkey)]
        constructor
        · intro h
          simp at h
        · rintro ⟨h, -, hn⟩
          exact absurd (Option.some.inj h ▸ hkey) hn
      · rw [if_neg (fun h => hkey ((hknown name).mp h))]
        constructor
        · intro h
          obtain rfl := Option.some.inj h
          exact ⟨rfl, hroot, hkey⟩
        · exact And.left

end Walks

/-! ### Flattened members -/

/-- **What flattening gives along a chain** of classes, the flattened one first, that comes to rest
before `stop`: under every name the first declaration, and as a foreign root the name for which
there is no class. The chain is rooted there, or else in the root class. -/
structure FlatAlong (c : Corpus) (i : Interface) (chain : List Interface) (stop : Option Text) :
    Prop where
  methods : ∀ key, (c.flatten i).methods.get? key = chain.findSome? fun a => a.methods.get? key
  properties : ∀ name,
    (c.flatten i).properties.get? name = chain.findSome? fun a => a.properties.get? name
  foreignRoot : ∀ name, (c.flatten i).foreignRoot = some name ↔
    stop = some name ∧ name ≠ rootClass ∧ name ∉ c.classes.keys
  chainRoot : c.chainRoot i = (c.flatten i).foreignRoot.getD rootClass

theorem or_findSome?_eq {α : Type} (members : Interface → Table α) (i : Interface)
    (chain : List Interface) (key : Text) :
    ((members i).get? key).or (chain.findSome? fun a => (members a).get? key) =
      (i :: chain).findSome? fun a => (members a).get? key := by
  rw [List.findSome?_cons]
  cases (members i).get? key <;> rfl

variable {c : Corpus} {name : Text} {i : Interface}

/-- The lineage of a class is the walk from it. -/
theorem exists_ascent_lineage (hi : c.classes.get? i.name = some i) :
    ∃ stop, Ascent c.classes [i.name] i.superclass (c.lineage i).ancestors stop ∧
      FlatAlong c i (i :: (c.lineage i).ancestors) stop := by
  have hknown : ∀ name, (name == i.name || c.classes.contains name) = true ↔
      name ∈ c.classes.keys := by
    intro name
    rw [Bool.or_eq_true, beq_iff_eq, Table.contains_iff]
    exact or_iff_right_of_imp fun hname => hname ▸ Table.mem_keys_of_get? hi
  have hunmet : ∀ name, (c.classes.erase i.name).get? name =
      if name ∈ [i.name] then none else c.classes.get? name := by
    intro name
    rw [Table.get?_erase]
    simp only [List.mem_singleton]
  obtain ⟨stop, hascent, hforeign⟩ := exists_ascent_lineageFrom hknown hunmet i.superclass
  refine ⟨stop, hascent, ⟨fun key => ?_, fun name => ?_, hforeign, rfl⟩⟩
  · rw [get?_flatten_methods]
    exact or_findSome?_eq Interface.methods i _ key
  · rw [get?_flatten_properties]
    exact or_findSome?_eq Interface.properties i _ name

/-- **The nearest declaration counts**, along a walk that always ends. In a corpus whose classes
stand under their names there is one walk up from every class; it meets no class twice, so no more
classes than there are, and flattening goes along it. A protocol has its own members only. -/
theorem flatten_nearest (hclasses : c.classes.Each fun name i => i.name = name) :
    (∀ name i, c.classes.get? name = some i →
      ∃ chain stop, Ascent c.classes [name] i.superclass chain stop ∧
        (∀ chain' stop', Ascent c.classes [name] i.superclass chain' stop' →
          chain' = chain ∧ stop' = stop) ∧
        ((i :: chain).map Interface.name).Nodup ∧ (i :: chain).length ≤ c.classes.size ∧
        FlatAlong c i (i :: chain) stop) ∧
    ∀ i, i.isClass = false → c.flatten i = ⟨i.methods, i.properties, none⟩ := by
  refine ⟨fun name i hi => ?_, fun i => flatten_of_protocol⟩
  obtain rfl := hclasses name i hi
  obtain ⟨stop, hascent, hflat⟩ := exists_ascent_lineage hi
  obtain ⟨hnodup, hmet⟩ := hascent.nodup hclasses
  have hnames : ((i :: (c.lineage i).ancestors).map Interface.name).Nodup := by
    rw [List.map_cons]
    exact List.nodup_cons.mpr ⟨fun hmem => (hmet _ hmem).1 List.mem_cons_self, hnodup⟩
  have hdeclared : (i :: (c.lineage i).ancestors).map Interface.name ⊆ c.classes.keys := by
    intro n hn
    rcases List.mem_cons.mp hn with rfl | hn
    · exact Table.mem_keys_of_get? hi
    · exact (hmet n hn).2
  have hlength := (hnames.subperm hdeclared).length_le
  rw [List.length_map, Table.keys, List.length_map] at hlength
  exact ⟨_, stop, hascent, fun _ _ => hascent.unique, hnames, hlength, hflat⟩

/-- A class below a circle of two classes that both declare `m`. -/
def circleCorpus : Corpus where
  classes := .ofList [
    ("UIA".toList, (Interface.newClass "UIA".toList (some "UIB".toList)).addMethod
      ⟨.onInstance, "m".toList, .named "int".toList, [], {}⟩),
    ("UIB".toList, (Interface.newClass "UIB".toList (some "UIA".toList)).addMethod
      ⟨.onInstance, "m".toList, .named "long".toList, [], {}⟩),
    ("UIC".toList, .newClass "UIC".toList (some "UIA".toList))]

theorem circleCorpus_names : circleCorpus.classes.Each fun name i => i.name = name := by
  intro name i hi
  have hentries : ∀ e ∈ circleCorpus.classes.entries, e.2.name = e.1 := by decide
  exact hentries _ (Table.get?_eq_some_iff.mp hi)

/-- From the class below the circle the walk goes once around, and the nearer `m` counts. -/
theorem flatten_nearest_circle :
    ∃ i chain, circleCorpus.classes.get? "UIC".toList = some i ∧
      Ascent circleCorpus.classes ["UIC".toList] i.superclass chain (some "UIA".toList) ∧
      chain.map Interface.name = ["UIA".toList, "UIB".toList] ∧
      FlatAlong circleCorpus i (i :: chain) (some "UIA".toList) ∧
      circleCorpus.chainRoot i = rootClass ∧
      ((circleCorpus.flatten i).methods.get? "m".toList).map (·.returnType.name) =
        some "int".toList := by
  have hwalk : Ascent circleCorpus.classes ["UIC".toList] (some "UIA".toList) _
      (some "UIA".toList) :=
    .climb (by decide) (by decide) rfl (.climb (by decide) (by decide) rfl
      (.rest (Or.inr (Or.inl (by decide)))))
  obtain ⟨chain, stop, -, hunique, -, -, hflat⟩ :=
    (flatten_nearest circleCorpus_names).1 "UIC".toList _ rfl
  obtain ⟨rfl, rfl⟩ := hunique _ _ hwalk
  refine ⟨_, _, rfl, hwalk, by decide, hflat, ?_, ?_⟩
  · have hnone : ∀ name, (circleCorpus.flatten
        (.newClass "UIC".toList (some "UIA".toList))).foreignRoot ≠ some name := by
      intro name h
      obtain ⟨hname, -, hforeign⟩ := (hflat.foreignRoot name).mp h
      obtain rfl := Option.some.inj hname
      exact hforeign (by decide)
    rw [hflat.chainRoot, Option.eq_none_iff_forall_ne_some.mpr hnone]
    rfl
  · rw [hflat.methods]
    decide

end Corpus

end CommonHeaders
