import CommonHeaders.Proofs.ScanOverlay
import CommonHeaders.Proofs.WellFormedTables

/-! # Independent headers may be scanned in either order

Scanning a header lays what it declares over the corpus. Two headers are *independent* if what both
of them declare, they declare alike: the members of an interface, its superclass, an enumeration.
Then neither takes anything from the other when it is laid over it, and the corpus is the same in
either order, but for the order in which protocols are adopted.

* `union_left_comm`: tables that agree may be laid over a third one in either order.
* `sameDeclarations_overlay`: so may independent corpora.
* `scanText_independent_comm`: and independent headers may be scanned in either order. -/

namespace CommonHeaders

/-! ### Tables -/

namespace Table

variable {α : Type} {R : α → α → Prop} {t u : Table α}

/-- **Tables that agree may be laid over a third one in either order.** -/
theorem union_left_comm (h : t.Compatible (· = ·) u) (v : Table α) :
    u.union (t.union v) = t.union (u.union v) := by
  ext1 key
  simp only [get?_union]
  cases ht : t.get? key with
  | none => simp
  | some a =>
    cases hu : u.get? key with
    | none => simp
    | some b => simp [h key a b ht hu]

theorem union_empty (t : Table α) : t.union empty = t := by
  ext1 key
  rw [get?_union, get?_empty, Option.or_none]

theorem union_comm (h : t.Compatible (· = ·) u) : u.union t = t.union u := by
  have hempty := union_left_comm h empty
  rwa [union_empty, union_empty] at hempty

/-- What is found under a name once one table has been laid over another: the value above put over
the one below, or the only one there is. -/
def found (put : α → α → α) : Option α → Option α → Option α
  | below, none => below
  | none, some b => some b
  | some a, some b => some (put a b)

theorem get?_overlayWith_eq_found (put : α → α → α) (below above : Table α) (key : Text) :
    (overlayWith put below above).get? key = found put (below.get? key) (above.get? key) := by
  rw [get?_overlayWith]
  unfold putOver
  cases below.get? key <;> cases above.get? key <;> rfl

/-- **Tables may be laid over a third one in either order**, if what they hold under one name may be
put over each other, and over any third value, in either order. -/
theorem alike_overlayWith {put : α → α → α} (hrefl : ∀ a, R a a)
    (hpair : t.Compatible (fun a b => R (put a b) (put b a)) u)
    (hthree : ∀ c, t.Compatible (fun a b => R (put (put c a) b) (put (put c b) a)) u)
    (below : Table α) :
    Alike R (overlayWith put (overlayWith put below t) u)
      (overlayWith put (overlayWith put below u) t) := by
  intro key
  have hsame (x : Option α) : Option.Rel R x x := by
    cases x with
    | none => exact .none
    | some a => exact .some (hrefl a)
  simp only [get?_overlayWith_eq_found]
  cases ht : t.get? key with
  | none => exact hsame _
  | some a =>
    cases hu : u.get? key with
    | none => exact hsame _
    | some b =>
      cases below.get? key with
      | none => exact .some (hpair key a b ht hu)
      | some c => exact .some (hthree c key a b ht hu)

end Table

/-! ### Interfaces -/

namespace Interface

/-- **Independent interfaces**: what both declare, they declare alike. -/
structure Independent (i j : Interface) : Prop where
  methods : i.methods.Compatible (· = ·) j.methods
  properties : i.properties.Compatible (· = ·) j.properties
  superclass : ∀ a ∈ i.superclass, ∀ b ∈ j.superclass, a = b

instance (i j : Interface) : Decidable (i.Independent j) :=
  decidable_of_iff (i.methods.Compatible (· = ·) j.methods ∧
      i.properties.Compatible (· = ·) j.properties ∧
      ∀ a ∈ i.superclass, ∀ b ∈ j.superclass, a = b)
    ⟨fun ⟨hm, hp, hs⟩ => ⟨hm, hp, hs⟩, fun h => ⟨h.methods, h.properties, h.superclass⟩⟩

/-- **One declaration**, but for the order in which it adopts protocols. -/
structure SameDeclaration (i j : Interface) : Prop where
  name : i.name = j.name
  kind : i.kind = j.kind
  methods : i.methods = j.methods
  properties : i.properties = j.properties
  protocols : ∀ p, p ∈ i.protocols.names ↔ p ∈ j.protocols.names

theorem sameDeclaration_refl (i : Interface) : i.SameDeclaration i :=
  ⟨rfl, rfl, rfl, rfl, fun _ => Iff.rfl⟩

variable {i j : Interface}

theorem kind_overlay_comm (hclass : i.isClass = j.isClass) (h : i.Independent j) :
    i.kind.overlay j.kind = j.kind.overlay i.kind := by
  have hsuper := h.superclass
  unfold superclass at hsuper
  unfold isClass at hclass
  cases hi : i.kind with
  | ofProtocol =>
    cases hj : j.kind with
    | ofProtocol => rfl
    | ofClass _ => simp [hi, hj] at hclass
  | ofClass a =>
    cases hj : j.kind with
    | ofProtocol => simp [hi, hj] at hclass
    | ofClass b =>
      rw [hi, hj] at hsuper
      cases a with
      | none => cases b <;> rfl
      | some a =>
        cases b with
        | none => rfl
        | some b => rw [hsuper a rfl b rfl]

/-- Kinds of one sort may be laid over each other first. -/
theorem kind_overlay_assoc (kind : InterfaceKind) (hclass : i.isClass = j.isClass) :
    (kind.overlay i.kind).overlay j.kind = kind.overlay (i.kind.overlay j.kind) := by
  unfold isClass at hclass
  cases kind with
  | ofProtocol => rfl
  | ofClass below =>
    cases hi : i.kind with
    | ofProtocol =>
      cases hj : j.kind with
      | ofProtocol => rfl
      | ofClass _ => simp [hi, hj] at hclass
    | ofClass a =>
      cases j.kind with
      | ofProtocol => rfl
      | ofClass b => exact congrArg InterfaceKind.ofClass Option.or_assoc.symm

theorem kind_overlay_overlay_comm (hclass : i.isClass = j.isClass) (h : i.Independent j)
    (kind : InterfaceKind) :
    (kind.overlay i.kind).overlay j.kind = (kind.overlay j.kind).overlay i.kind := by
  rw [kind_overlay_assoc kind hclass, kind_overlay_assoc kind hclass.symm,
    kind_overlay_comm hclass h]

/-- Independent interfaces of one name may be laid over each other in either order, -/
theorem sameDeclaration_overlay (hname : i.name = j.name) (hclass : i.isClass = j.isClass)
    (h : i.Independent j) : (i.overlay j).SameDeclaration (j.overlay i) where
  name := hname
  kind := kind_overlay_comm hclass h
  methods := Table.union_comm h.methods
  properties := Table.union_comm h.properties
  protocols p := by
    unfold overlay
    simp only [Adoptions.mem_adoptAll]
    exact Or.comm

/-- and so they may over a third one. -/
theorem sameDeclaration_overlay_overlay (hclass : i.isClass = j.isClass) (h : i.Independent j)
    (below : Interface) :
    ((below.overlay i).overlay j).SameDeclaration ((below.overlay j).overlay i) where
  name := rfl
  kind := kind_overlay_overlay_comm hclass h below.kind
  methods := Table.union_left_comm h.methods below.methods
  properties := Table.union_left_comm h.properties below.properties
  protocols p := by
    unfold overlay
    simp only [Adoptions.mem_adoptAll]
    exact or_right_comm

end Interface

/-! ### Corpora -/

namespace Corpus

/-- **Independent corpora**: what both declare, they declare alike. -/
structure Independent (c d : Corpus) : Prop where
  classes : c.classes.Compatible Interface.Independent d.classes
  protocols : c.protocols.Compatible Interface.Independent d.protocols
  enums : c.enums.Compatible (· = ·) d.enums

instance (c d : Corpus) : Decidable (c.Independent d) :=
  decidable_of_iff (c.classes.Compatible Interface.Independent d.classes ∧
      c.protocols.Compatible Interface.Independent d.protocols ∧
      c.enums.Compatible (· = ·) d.enums)
    ⟨fun ⟨hc, hp, he⟩ => ⟨hc, hp, he⟩, fun h => ⟨h.classes, h.protocols, h.enums⟩⟩

/-- **Corpora with the same declarations**, but for the order in which protocols are adopted. -/
structure SameDeclarations (c d : Corpus) : Prop where
  classes : c.classes.Alike Interface.SameDeclaration d.classes
  protocols : c.protocols.Alike Interface.SameDeclaration d.protocols
  enums : c.enums = d.enums

/-- Tables of independent interfaces may be laid over a third one in either order. -/
theorem alike_overlayWith_overlay {inClass : Bool} {t u : Table Interface}
    (ht : t.Each (Interface.Stands inClass)) (hu : u.Each (Interface.Stands inClass))
    (h : t.Compatible Interface.Independent u) (below : Table Interface) :
    Table.Alike Interface.SameDeclaration
      (Table.overlayWith Interface.overlay (Table.overlayWith Interface.overlay below t) u)
      (Table.overlayWith Interface.overlay (Table.overlayWith Interface.overlay below u) t) := by
  refine Table.alike_overlayWith Interface.sameDeclaration_refl (fun key i j hi hj => ?_)
    (fun c key i j hi hj => ?_) below
  all_goals
    have hi' := ht key i hi
    have hj' := hu key j hj
    have hclass : i.isClass = j.isClass := hi'.isClass.trans hj'.isClass.symm
  · have hname : i.name = j.name := hi'.name_eq.trans hj'.name_eq.symm
    exact Interface.sameDeclaration_overlay hname hclass (h key i j hi hj)
  · exact Interface.sameDeclaration_overlay_overlay hclass (h key i j hi hj) c

/-- **Independent corpora may be laid over a third one in either order.** -/
theorem sameDeclarations_overlay {f g : Corpus} (hf : f.WellFormed) (hg : g.WellFormed)
    (h : f.Independent g) (c : Corpus) :
    ((c.overlay f).overlay g).SameDeclarations ((c.overlay g).overlay f) where
  classes := alike_overlayWith_overlay hf.classes hg.classes h.classes c.classes
  protocols := alike_overlayWith_overlay hf.protocols hg.protocols h.protocols c.protocols
  enums := Table.union_left_comm h.enums c.enums

/-- **Independent headers may be scanned in either order**, over any corpus. -/
theorem scanText_independent_comm (settings : Settings) (c : Corpus) {f g : Text}
    (h : (empty.scanText settings f).Independent (empty.scanText settings g)) :
    ((c.scanText settings f).scanText settings g).SameDeclarations
      ((c.scanText settings g).scanText settings f) := by
  have hf := wellFormed_of_reached (.scanText settings f .empty)
  have hg := wellFormed_of_reached (.scanText settings g .empty)
  rw [scanText_eq_overlay settings (c.scanText settings f), scanText_eq_overlay settings c f,
    scanText_eq_overlay settings (c.scanText settings g), scanText_eq_overlay settings c g]
  exact sameDeclarations_overlay hf hg h c

/-- A class and its category, one method in both: the class may be scanned before the category or
after it, and only what is adopted comes in another order. -/
theorem scanText_independent_comm_extras :
    let opening := "@interface UIThing : NSObject <P>\n- (void)a;\n@end".toList
    let category := "@interface UIThing (Extras) <Q>\n- (void)a;\n- (void)b;\n@end".toList
    let one := (empty.scanText .default opening).scanText .default category
    let other := (empty.scanText .default category).scanText .default opening
    one.SameDeclarations other ∧
      (one.classes.get? "UIThing".toList).map (·.protocols.names) =
        some ["P".toList, "Q".toList] ∧
      (other.classes.get? "UIThing".toList).map (·.protocols.names) =
        some ["Q".toList, "P".toList] := by
  refine ⟨scanText_independent_comm .default empty ?_, by decide +kernel, by decide +kernel⟩
  decide +kernel

end Corpus

end CommonHeaders
