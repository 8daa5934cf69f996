import CommonHeaders.TypeRef
import Mathlib.Data.List.Perm.Basic

/-! # Equivalent type references

Reading a type reference stores every qualifier once, however it is spelled and wherever it stands.
Comparing the qualifiers as sorted lists is then comparing them as sets, and two references that
were read are equivalent if they have the same qualifiers, the same base name and the same pointer.

Beside that a small integer is to stand for a common enumeration, both without qualifiers and
neither a pointer. The pointer is looked at for the enumeration only: a pointer to a small integer
stands for a common enumeration too, and this is the one way in which a pointer is equivalent to
something that is none.

* `nodup_qualifiers_parse`: a qualifier is stored once.
* `sortedRanks_eq_iff_perm`: sorted qualifiers are the same in any order.
* `equivalent_iff_perm`: what references are equivalent, with qualifiers in any number.
* `equivalent_iff`: what references without repeats are equivalent.
* `equivalent_parse_iff`: for references that were read, and how far this is what is intended. -/

namespace CommonHeaders

open Text

/-! ### Qualifiers are stored once -/

namespace Qualifier

theorem nodup_addTo {qs : List Qualifier} (h : qs.Nodup) (q : Qualifier) :
    (addTo qs q).Nodup := by
  unfold addTo
  split
  · exact h
  · rename_i hq
    rw [List.nodup_append]
    refine ⟨h, List.pairwise_singleton _ q, fun p hp r hr heq => ?_⟩
    rw [heq, List.mem_singleton.mp hr] at hp
    exact hq hp

theorem nodup_foldl_addTo (l : List Qualifier) {qs : List Qualifier} (h : qs.Nodup) :
    (l.foldl addTo qs).Nodup := by
  induction l generalizing qs with
  | nil => exact h
  | cons q rest ih => exact ih (nodup_addTo h q)

theorem getElem?_all_rank (q : Qualifier) : all[q.rank]? = some q := by cases q <;> rfl

theorem mem_all (q : Qualifier) : q ∈ all := List.mem_of_getElem? (getElem?_all_rank q)

/-- Qualifiers of one rank are the same. -/
theorem eq_of_rank_eq {p q : Qualifier} (h : p.rank = q.rank) : p = q := by
  have hp := getElem?_all_rank p
  rw [h, getElem?_all_rank q, Option.some.injEq] at hp
  exact hp.symm

end Qualifier

namespace TypeRef

/-- **Reading stores a qualifier once.** -/
theorem nodup_qualifiers_parse (t : Text) : (parse t).qualifiers.Nodup :=
  Qualifier.nodup_foldl_addTo _ List.nodup_nil

/-! ### Sorted qualifiers -/

theorem insertRank_perm (n : Nat) (l : List Nat) : (insertRank n l).Perm (n :: l) := by
  induction l with
  | nil => exact List.Perm.refl _
  | cons m rest ih =>
    rw [insertRank]
    split
    · exact List.Perm.refl _
    · exact (ih.cons m).trans (List.Perm.swap n m rest)

theorem pairwise_insertRank (n : Nat) {l : List Nat} (h : l.Pairwise (· ≤ ·)) :
    (insertRank n l).Pairwise (· ≤ ·) := by
  induction l with
  | nil => exact List.pairwise_singleton _ _
  | cons m rest ih =>
    obtain ⟨hm, hrest⟩ := List.pairwise_cons.mp h
    rw [insertRank]
    split
    · rename_i hnm
      refine List.pairwise_cons.mpr ⟨fun k hk => ?_, h⟩
      rcases List.mem_cons.mp hk with rfl | hk
      · exact hnm
      · exact Nat.le_trans hnm (hm k hk)
    · rename_i hnm
      refine List.pairwise_cons.mpr ⟨fun k hk => ?_, ih hrest⟩
      rcases List.mem_cons.mp ((insertRank_perm n rest).mem_iff.mp hk) with rfl | hk
      · omega
      · exact hm k hk

theorem sortedRanks_perm (a : TypeRef) :
    a.sortedRanks.Perm (a.qualifiers.map Qualifier.rank) := by
  unfold sortedRanks
  induction a.qualifiers.map Qualifier.rank with
  | nil => exact List.Perm.refl _
  | cons n rest ih => exact (insertRank_perm n _).trans (ih.cons n)

theorem pairwise_sortedRanks (a : TypeRef) : a.sortedRanks.Pairwise (· ≤ ·) := by
  unfold sortedRanks
  induction a.qualifiers.map Qualifier.rank with
  | nil => exact List.Pairwise.nil
  | cons n rest ih => exact pairwise_insertRank n ih

/-- **Sorted qualifiers** are the same in whatever order they were sorted. -/
theorem sortedRanks_eq_iff_perm {a b : TypeRef} :
    a.sortedRanks = b.sortedRanks ↔ a.qualifiers.Perm b.qualifiers := by
  have hinjective : Function.Injective Qualifier.rank := fun _ _ => Qualifier.eq_of_rank_eq
  rw [← List.map_perm_map_iff hinjective]
  constructor
  · intro h
    exact (a.sortedRanks_perm.symm.trans (h ▸ List.Perm.refl _)).trans b.sortedRanks_perm
  · intro h
    have hsorted := (a.sortedRanks_perm.trans h).trans b.sortedRanks_perm.symm
    exact List.Perm.eq_of_pairwise (fun _ _ _ _ => Nat.le_antisymm) a.pairwise_sortedRanks
      b.pairwise_sortedRanks hsorted

/-! ### The relation -/

theorem isSmallInteger_iff {a : TypeRef} :
    a.isSmallInteger = true ↔ a.name ∈ Naming.smallIntegers := by
  rw [isSmallInteger, List.contains_iff_mem]

/-- **Alike**: the same qualifiers, each as often, the same base name and the same pointer. -/
structure Alike (a b : TypeRef) : Prop where
  qualifiers : a.qualifiers.Perm b.qualifiers
  name : a.name = b.name
  pointer : a.pointer = b.pointer

/-- **What types are equivalent**: those that are alike, and an integer and an enumeration. -/
theorem equivalent_iff_perm {a b : TypeRef} :
    a.equivalent b = true ↔ interchangeable a b = true ∨ a.Alike b := by
  rw [equivalent, beq_iff_eq, compare]
  split
  · rename_i h
    exact iff_of_true rfl (Or.inl h)
  · rename_i h
    rw [Ordering.then_eq_eq, Ordering.then_eq_eq, Std.LawfulEqCmp.compare_eq_iff_eq,
      Std.LawfulEqCmp.compare_eq_iff_eq, Std.LawfulEqCmp.compare_eq_iff_eq,
      sortedRanks_eq_iff_perm, or_iff_right h]
    constructor
    · rintro ⟨hqualifiers, hname, hpointer⟩
      exact ⟨hqualifiers, hname, hpointer⟩
    · rintro ⟨hqualifiers, hname, hpointer⟩
      exact ⟨hqualifiers, hname, hpointer⟩

/-- **The same type**: the same qualifiers in any order, base name and pointer. -/
structure Same (a b : TypeRef) : Prop where
  qualifiers : ∀ q, q ∈ a.qualifiers ↔ q ∈ b.qualifiers
  name : a.name = b.name
  pointer : a.pointer = b.pointer

/-- **An integer for an enumeration**: without qualifiers, a base name that is a small integer
beside a common name. -/
structure IntegerFor (a b : TypeRef) : Prop where
  unqualified : a.qualifiers = [] ∧ b.qualifiers = []
  integer : a.name ∈ Naming.smallIntegers
  common : ∃ rest, b.name = Naming.unifiedTag ++ rest

/-- **The intended relation**: the same type, or neither a pointer and either an integer for the
other as an enumeration. -/
def Agrees (a b : TypeRef) : Prop :=
  a.Same b ∨ (a.pointer = false ∧ b.pointer = false ∧ (a.IntegerFor b ∨ b.IntegerFor a))

/-- One is a pointer to an integer, the other no pointer, and the integer is one for it. -/
def Strays (a b : TypeRef) : Prop :=
  (a.pointer = true ∧ b.pointer = false ∧ a.IntegerFor b) ∨
    (b.pointer = true ∧ a.pointer = false ∧ b.IntegerFor a)

instance (a b : TypeRef) : Decidable (a.Same b) :=
  decidable_of_iff ((∀ q ∈ Qualifier.all, q ∈ a.qualifiers ↔ q ∈ b.qualifiers) ∧
      a.name = b.name ∧ a.pointer = b.pointer)
    ⟨fun ⟨hqualifiers, hname, hpointer⟩ =>
        ⟨fun q => hqualifiers q q.mem_all, hname, hpointer⟩,
      fun h => ⟨fun q _ => h.qualifiers q, h.name, h.pointer⟩⟩

instance (a b : TypeRef) : Decidable (a.IntegerFor b) :=
  decidable_of_iff ((a.qualifiers = [] ∧ b.qualifiers = []) ∧ a.isSmallInteger = true ∧
      Naming.isUnified b.name = true)
    ⟨fun ⟨hunqualified, hinteger, hcommon⟩ =>
        ⟨hunqualified, isSmallInteger_iff.mp hinteger, Naming.isUnified_iff.mp hcommon⟩,
      fun h => ⟨h.unqualified, isSmallInteger_iff.mpr h.integer,
        Naming.isUnified_iff.mpr h.common⟩⟩

instance (a b : TypeRef) : Decidable (a.Agrees b) := by unfold Agrees; infer_instance

instance (a b : TypeRef) : Decidable (a.Strays b) := by unfold Strays; infer_instance

theorem isEnumeration_iff {a : TypeRef} : a.isEnumeration = true ↔
    (∃ rest, a.name = Naming.unifiedTag ++ rest) ∧ a.pointer = false := by
  rw [isEnumeration, Bool.and_eq_true, Naming.isUnified_iff, Bool.not_eq_true']

/-- What is interchangeable: of the two only the enumeration is asked to be no pointer. -/
theorem interchangeable_iff {a b : TypeRef} : interchangeable a b = true ↔
    (a.IntegerFor b ∧ b.pointer = false) ∨ (b.IntegerFor a ∧ a.pointer = false) := by
  rw [interchangeable, Bool.and_eq_true, Bool.and_eq_true, Bool.or_eq_true, Bool.and_eq_true,
    Bool.and_eq_true, List.isEmpty_iff, List.isEmpty_iff, isSmallInteger_iff, isEnumeration_iff,
    isSmallInteger_iff, isEnumeration_iff]
  constructor
  · rintro ⟨⟨ha, hb⟩, ⟨hinteger, hcommon, hplain⟩ | ⟨⟨hcommon, hplain⟩, hinteger⟩⟩
    · exact Or.inl ⟨⟨⟨ha, hb⟩, hinteger, hcommon⟩, hplain⟩
    · exact Or.inr ⟨⟨⟨hb, ha⟩, hinteger, hcommon⟩, hplain⟩
  · rintro (⟨⟨⟨ha, hb⟩, hinteger, hcommon⟩, hplain⟩ | ⟨⟨⟨hb, ha⟩, hinteger, hcommon⟩, hplain⟩)
    · exact ⟨⟨ha, hb⟩, Or.inl ⟨hinteger, hcommon, hplain⟩⟩
    · exact ⟨⟨ha, hb⟩, Or.inr ⟨⟨hcommon, hplain⟩, hinteger⟩⟩

/-- What is interchangeable agrees, or strays by a pointer to the integer. -/
theorem interchangeable_cases {a b : TypeRef} (h : interchangeable a b = true) :
    a.Agrees b ∨ a.Strays b := by
  rcases interchangeable_iff.mp h with ⟨hfor, hb⟩ | ⟨hfor, ha⟩
  · cases ha : a.pointer with
    | false => exact Or.inl (Or.inr ⟨ha, hb, Or.inl hfor⟩)
    | true => exact Or.inr (Or.inl ⟨ha, hb, hfor⟩)
  · cases hb : b.pointer with
    | false => exact Or.inl (Or.inr ⟨ha, hb, Or.inr hfor⟩)
    | true => exact Or.inr (Or.inr ⟨hb, ha, hfor⟩)

/-- References without repeats that are alike are the same. -/
theorem alike_iff_same {a b : TypeRef} (ha : a.qualifiers.Nodup) (hb : b.qualifiers.Nodup) :
    a.Alike b ↔ a.Same b := by
  have hqualifiers := List.perm_ext_iff_of_nodup ha hb
  constructor
  · rintro ⟨hperm, hname, hpointer⟩
    exact ⟨hqualifiers.mp hperm, hname, hpointer⟩
  · rintro ⟨hset, hname, hpointer⟩
    exact ⟨hqualifiers.mpr hset, hname, hpointer⟩

/-- **What is equivalent**, of references in which no qualifier is repeated. -/
theorem equivalent_iff {a b : TypeRef} (ha : a.qualifiers.Nodup) (hb : b.qualifiers.Nodup) :
    a.equivalent b = true ↔ a.Agrees b ∨ a.Strays b := by
  rw [equivalent_iff_perm, alike_iff_same ha hb]
  constructor
  · rintro (hinter | hsame)
    · exact interchangeable_cases hinter
    · exact Or.inl (Or.inl hsame)
  · rintro ((hsame | ⟨hplain, hplain', hfor⟩) | (⟨-, hplain, hfor⟩ | ⟨-, hplain, hfor⟩))
    · exact Or.inr hsame
    · exact Or.inl (interchangeable_iff.mpr (hfor.imp (⟨·, hplain'⟩) (⟨·, hplain⟩)))
    · exact Or.inl (interchangeable_iff.mpr (Or.inl ⟨hfor, hplain⟩))
    · exact Or.inl (interchangeable_iff.mpr (Or.inr ⟨hfor, hplain⟩))

theorem Strays.pointer_ne {a b : TypeRef} (h : a.Strays b) : a.pointer ≠ b.pointer := by
  rcases h with ⟨ha, hb, -⟩ | ⟨hb, ha, -⟩
  · simp [ha, hb]
  · simp [ha, hb]

theorem Agrees.pointer_eq {a b : TypeRef} (h : a.Agrees b) : a.pointer = b.pointer := by
  rcases h with hsame | ⟨ha, hb, -⟩
  · exact hsame.pointer
  · exact ha.trans hb.symm

/-- **Equivalence of references that were read** is the intended relation exactly where no pointer
to an integer meets an enumeration: there it holds too, and nowhere else does a pointer count as
equivalent to what is none. -/
theorem equivalent_parse_iff (s t : Text) :
    (((parse s).equivalent (parse t) = true ↔ (parse s).Agrees (parse t)) ↔
      ¬ (parse s).Strays (parse t)) ∧
    ((parse s).equivalent (parse t) = true ↔
      (parse s).Agrees (parse t) ∨ (parse s).Strays (parse t)) ∧
    ((parse s).pointer ≠ (parse t).pointer →
      ((parse s).equivalent (parse t) = true ↔ (parse s).Strays (parse t))) := by
  have hiff := equivalent_iff (nodup_qualifiers_parse s) (nodup_qualifiers_parse t)
  refine ⟨?_, hiff, fun hpointer => ?_⟩
  · rw [hiff]
    constructor
    · intro h hstrays
      exact hstrays.pointer_ne (h.mp (Or.inr hstrays)).pointer_eq
    · intro hstrays
      exact or_iff_left hstrays
  · rw [hiff]
    exact or_iff_right fun h => hpointer h.pointer_eq

/-- Qualifiers may be spelled and placed in any way, but a pointer makes the difference. -/
theorem equivalent_parse_iff_nullable :
    (parse "const NSString * _Nullable".toList).equivalent
        (parse "nullable const __nullable NSString*".toList) = true ∧
      (parse "const NSString * _Nullable".toList).pointer ≠
        (parse "nullable const NSString".toList).pointer ∧
      (parse "const NSString * _Nullable".toList).equivalent
        (parse "nullable const NSString".toList) = false := by
  obtain ⟨-, hsame, -⟩ := equivalent_parse_iff "const NSString * _Nullable".toList
    "nullable const __nullable NSString*".toList
  obtain ⟨-, -, hother⟩ := equivalent_parse_iff "const NSString * _Nullable".toList
    "nullable const NSString".toList
  have hpointer : (parse "const NSString * _Nullable".toList).pointer ≠
      (parse "nullable const NSString".toList).pointer := by decide +kernel
  have hstrays : ¬ (parse "const NSString * _Nullable".toList).Strays
      (parse "nullable const NSString".toList) := by decide +kernel
  refine ⟨hsame.mpr (Or.inl (by decide +kernel)), hpointer, ?_⟩
  rw [Bool.eq_false_iff, ne_eq, hother hpointer]
  exact hstrays

/-- **A pointer to an integer is equivalent to an enumeration**, which is no pointer and not meant
to be. -/
theorem equivalent_parse_pointer :
    (parse "int *".toList).equivalent (parse "MAIMode".toList) = true ∧
      (parse "int *".toList).pointer = true ∧ (parse "MAIMode".toList).pointer = false ∧
      ¬ (parse "int *".toList).Agrees (parse "MAIMode".toList) := by decide +kernel

end TypeRef

end CommonHeaders
