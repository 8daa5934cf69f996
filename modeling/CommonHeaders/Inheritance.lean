import CommonHeaders.Corpus

/-! # Inheritance

The lineage of an interface is the chain of its known superclasses, nearest first. It ends at the
root class, at a class without a known superclass, at a class met before, or at a name that no
header declares; only in the last case there is a *foreign root*, that name.

The members of an interface together with those of its lineage are its flattened members, the
nearest declaration counting. A protocol has no lineage, and what it adopts adds no members.

* `size_erase_lt` bounds the walk: each step takes a class out of those not yet met.
* `get?_flatten_methods`: a flattened method is the first one along the chain.
* `flatten_of_protocol`: a protocol has no members but its own. -/

namespace CommonHeaders

/-- The chain of superclasses of an interface. -/
structure Lineage where
  /-- The known superclasses, nearest first. -/
  ancestors : List Interface
  /-- The name at which the chain leaves the corpus. -/
  foreignRoot : Option Text

/-- The members of an interface, its own and inherited. -/
structure Flattened where
  methods : Table Method
  properties : Table Property
  foreignRoot : Option Text
deriving DecidableEq

namespace Corpus

/-- The chain from the class called `next` on, over the classes not yet met. A name that is not
among them is foreign unless it is `known`. -/
def lineageFrom (known : Text → Bool) (unmet : Table Interface) (next : Option Text) : Lineage :=
  match next with
  | none => ⟨[], none⟩
  | some name =>
    if name = Naming.rootClass then ⟨[], none⟩
    else
      match _h : unmet.get? name with
      | some ancestor =>
        let chain := lineageFrom known (unmet.erase name) ancestor.superclass
        ⟨ancestor :: chain.ancestors, chain.foreignRoot⟩
      | none => ⟨[], if known name then none else some name⟩
termination_by unmet.size
decreasing_by exact Table.size_erase_lt _h

/-- **The lineage of an interface.** -/
def lineage (c : Corpus) (i : Interface) : Lineage :=
  lineageFrom (fun name => name == i.name || c.classes.contains name) (c.classes.erase i.name)
    i.superclass

/-- **The flattened members of an interface.** -/
def flatten (c : Corpus) (i : Interface) : Flattened :=
  let chain := c.lineage i
  { methods := chain.ancestors.foldl (fun t a => t.union a.methods) i.methods
    properties := chain.ancestors.foldl (fun t a => t.union a.properties) i.properties
    foreignRoot := chain.foreignRoot }

/-- The class at which the chain of an interface ends: its foreign root, or the root class. -/
def chainRoot (c : Corpus) (i : Interface) : Text :=
  (c.lineage i).foreignRoot.getD Naming.rootClass

theorem lineageFrom_none (known : Text → Bool) (unmet : Table Interface) :
    lineageFrom known unmet none = ⟨[], none⟩ := by rw [lineageFrom]

theorem lineageFrom_root (known : Text → Bool) (unmet : Table Interface) :
    lineageFrom known unmet (some Naming.rootClass) = ⟨[], none⟩ := by
  rw [lineageFrom, if_pos rfl]

theorem lineageFrom_ancestor {known : Text → Bool} {unmet : Table Interface} {name : Text}
    {ancestor : Interface} (hroot : name ≠ Naming.rootClass)
    (h : unmet.get? name = some ancestor) :
    lineageFrom known unmet (some name) =
      ⟨ancestor :: (lineageFrom known (unmet.erase name) ancestor.superclass).ancestors,
        (lineageFrom known (unmet.erase name) ancestor.superclass).foreignRoot⟩ := by
  rw [lineageFrom, if_neg hroot]
  split
  · rename_i ancestor' h'
    rw [h, Option.some.injEq] at h'
    rw [h']
  · rename_i h'
    rw [h] at h'
    simp at h'

theorem lineageFrom_unmet {known : Text → Bool} {unmet : Table Interface} {name : Text}
    (hroot : name ≠ Naming.rootClass) (h : unmet.get? name = none) :
    lineageFrom known unmet (some name) = ⟨[], if known name then none else some name⟩ := by
  rw [lineageFrom, if_neg hroot]
  split
  · rename_i ancestor h'
    rw [h] at h'
    simp at h'
  · rfl

theorem get?_foldl_union {α β : Type} (members : β → Table α) (l : List β) (t : Table α)
    (key : Text) : (l.foldl (fun t b => t.union (members b)) t).get? key =
      (t.get? key).or (l.findSome? fun b => (members b).get? key) := by
  induction l generalizing t with
  | nil => cases h : t.get? key <;> simp [h]
  | cons b rest ih =>
    rw [List.foldl_cons, ih, Table.get?_union, List.findSome?_cons]
    cases t.get? key <;> cases (members b).get? key <;> rfl

/-- **The nearest declaration counts**: a flattened method is the first one along the chain. -/
theorem get?_flatten_methods (c : Corpus) (i : Interface) (key : Text) :
    (c.flatten i).methods.get? key =
      (i.methods.get? key).or ((c.lineage i).ancestors.findSome? fun a => a.methods.get? key) :=
  get?_foldl_union Interface.methods _ _ _

theorem get?_flatten_properties (c : Corpus) (i : Interface) (name : Text) :
    (c.flatten i).properties.get? name =
      (i.properties.get? name).or
        ((c.lineage i).ancestors.findSome? fun a => a.properties.get? name) :=
  get?_foldl_union Interface.properties _ _ _

/-- A protocol has no members but its own. -/
theorem flatten_of_protocol {c : Corpus} {i : Interface} (h : i.isClass = false) :
    c.flatten i = ⟨i.methods, i.properties, none⟩ := by
  have hnone : i.superclass = none := by
    unfold Interface.isClass at h
    unfold Interface.superclass
    split at h
    · simp at h
    · rfl
  unfold flatten lineage
  rw [hnone, lineageFrom_none]
  rfl

end Corpus

end CommonHeaders
