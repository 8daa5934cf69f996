import CommonHeaders.Enumeration
import CommonHeaders.Method
import CommonHeaders.Property
import CommonHeaders.Proofs.TypeEquivalence

/-! # Equivalence of declarations

Types, methods, properties and enumerations are each compared for equivalence, and each equivalence
comes down to that of types. All four are tolerances, reflexive and symmetric, on every declaration
that can be written down, whether or not one is ever read: qualifiers may be repeated, and arguments
be any number.

They are no equivalence relations. A small integer stands for every common enumeration, so two
enumerations that are apart have an integer between them; this is the only way in which transitivity
fails.

* `equivalent_trans`, `equivalent_not_trans`: where transitivity holds, and where not.
* `tolerance_equivalent`: the four tolerances, and the comparison of types the other way round. -/

namespace CommonHeaders

open Text

/-- **A tolerance**: a relation that is reflexive and symmetric. -/
structure Tolerance {α : Type} (r : α → α → Bool) : Prop where
  refl : ∀ a, r a a = true
  comm : ∀ a b, r a b = r b a

namespace TypeRef

/-! ### Types -/

theorem Alike.trans {a b c : TypeRef} (hab : a.Alike b) (hbc : b.Alike c) : a.Alike c :=
  ⟨hab.qualifiers.trans hbc.qualifiers, hab.name.trans hbc.name, hab.pointer.trans hbc.pointer⟩

/-- Of types that are alike, one is interchangeable with what the other is. -/
theorem Alike.interchangeable_eq {a b : TypeRef} (h : a.Alike b) (c : TypeRef) :
    interchangeable a c = interchangeable b c := by
  have hempty : a.qualifiers.isEmpty = b.qualifiers.isEmpty := by
    rw [Bool.eq_iff_iff, List.isEmpty_iff, List.isEmpty_iff]
    constructor
    · intro ha
      exact List.nil_perm.mp (ha ▸ h.qualifiers)
    · intro hb
      exact List.perm_nil.mp (hb ▸ h.qualifiers)
  simp only [interchangeable, isSmallInteger, isEnumeration, hempty, h.name, h.pointer]

/-- **Equivalence is transitive**, unless an integer stands between two enumerations or an
enumeration between two integers. -/
theorem equivalent_trans {a b c : TypeRef} (hab : a.equivalent b = true)
    (hbc : b.equivalent c = true)
    (h : interchangeable a b = false ∨ interchangeable b c = false) : a.equivalent c = true := by
  rw [equivalent_iff_perm] at hab hbc ⊢
  rcases hab with hab | hab
  · -- the second pair is alike, so the first is interchangeable with its other half too
    have halike : b.Alike c := hbc.resolve_left fun hinter => by
      rcases h with h | h
      · rw [h] at hab
        cases hab
      · rw [h] at hinter
        cases hinter
    left
    rw [interchangeable_comm, ← halike.interchangeable_eq, interchangeable_comm]
    exact hab
  · rcases hbc with hbc | hbc
    · left
      rw [hab.interchangeable_eq]
      exact hbc
    · exact Or.inr (hab.trans hbc)

/-- Two enumerations with an integer between them. -/
theorem equivalent_not_trans :
    (named "MAIMode".toList).equivalent (named "int".toList) = true ∧
      (named "int".toList).equivalent (named "MAIState".toList) = true ∧
      (named "MAIMode".toList).equivalent (named "MAIState".toList) = false := by decide

end TypeRef

/-! ### The tolerances -/

/-- **Equivalence is a tolerance** for declarations of every kind, whatever they hold, and
comparing types the other way round reverses the order. -/
theorem tolerance_equivalent :
    Tolerance TypeRef.equivalent ∧ Tolerance Method.equivalent ∧ Tolerance Property.equivalent ∧
      Tolerance Enumeration.equivalent ∧
      ∀ a b : TypeRef, TypeRef.compare b a = (TypeRef.compare a b).swap :=
  ⟨⟨TypeRef.equivalent_refl, TypeRef.equivalent_comm⟩,
    ⟨Method.equivalent_refl, Method.equivalent_comm⟩,
    ⟨Property.equivalent_refl, Property.equivalent_comm⟩,
    ⟨Enumeration.equivalent_refl, Enumeration.equivalent_comm⟩, TypeRef.compare_comm⟩

end CommonHeaders
