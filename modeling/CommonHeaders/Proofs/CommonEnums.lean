import CommonHeaders.Unification

/-! # Enumerations in common

Of two enumerations under one name each is reduced to the members that the other has too. The
desktop one is reduced by what is left of the mobile one, which comes to the same. They are in
common if they are then equivalent and have members left.

* `get?_unifyEnums`: exactly which enumerations are in common.
* `unifyEnums_exact`: the same said by the names of members alone, and what is left of both tables.
* `alike_unifyEnums_comm`: they have the same members whichever side comes first. -/

namespace CommonHeaders

namespace Enumeration

/-- What is left of one enumeration reduces the other one as the whole of it does. -/
theorem retainShared_retainShared (e other : Enumeration) :
    e.retainShared (other.retainShared e) = e.retainShared other := by
  have hmembers : e.members.filter (fun m => (other.retainShared e).hasMember m.name) =
      e.members.filter fun m => other.hasMember m.name := by
    refine List.filter_congr fun m hm => ?_
    have hname : m.name ∈ e.names := List.mem_map_of_mem hm
    rw [Bool.eq_iff_iff, hasMember_iff, hasMember_iff, names_retainShared, List.mem_filter,
      List.contains_iff_mem]
    exact ⟨And.left, fun h => ⟨h, hname⟩⟩
  unfold retainShared at hmembers ⊢
  rw [hmembers]

theorem isEmpty_eq_isEmpty_names (e : Enumeration) : e.isEmpty = e.names.isEmpty := by
  rw [isEmpty, names, List.isEmpty_map]

theorem isEmpty_eq_of_names {a b : Enumeration} (h : a.names = b.names) :
    a.isEmpty = b.isEmpty := by
  rw [isEmpty_eq_isEmpty_names, isEmpty_eq_isEmpty_names, h]

theorem equivalent_iff {a b : Enumeration} : a.equivalent b = true ↔
    a.underlying.equivalent b.underlying = true ∧ a.name = b.name ∧ a.names = b.names := by
  simp only [equivalent, Bool.and_eq_true, beq_iff_eq, and_assoc]

theorem names_eq_of_equivalent {a b : Enumeration} (h : a.equivalent b = true) :
    a.names = b.names := (equivalent_iff.mp h).2.2

theorem isEmpty_eq_false_iff {e : Enumeration} : e.isEmpty = false ↔ e.names ≠ [] := by
  rw [isEmpty_eq_isEmpty_names, List.isEmpty_eq_false_iff]

/-- **The enumeration with only the members of the given names**, in its own order. -/
def keeping (e : Enumeration) (names : List Text) : Enumeration :=
  { e with members := e.members.filter fun m => names.contains m.name }

/-- What is kept of the names is what stands among the given ones. -/
theorem names_keeping (e : Enumeration) (names : List Text) :
    (e.keeping names).names = e.names.filter (· ∈ names) := by
  have hkept : e.names.filter names.contains = e.names.filter (· ∈ names) :=
    List.filter_congr fun n _ => by
      rw [Bool.eq_iff_iff, List.contains_iff_mem, decide_eq_true_iff]
  rw [← hkept, keeping, Enumeration.names, Enumeration.names, List.filter_map]
  rfl

theorem retainShared_eq_keeping (e other : Enumeration) :
    e.retainShared other = e.keeping other.names := by
  have hmembers : e.members.filter (fun m => other.hasMember m.name) =
      e.members.filter fun m => other.names.contains m.name := by
    refine List.filter_congr fun m _ => ?_
    rw [Bool.eq_iff_iff, hasMember_iff, List.contains_iff_mem]
  unfold retainShared keeping
  rw [hmembers]

end Enumeration

theorem get?_retainShared (enums others : Table Enumeration) (name : Text) :
    (retainShared enums others).get? name = (enums.get? name).map fun e =>
      match others.get? name with
      | some other => e.retainShared other
      | none => e :=
  Table.get?_mapEntries _ enums name

/-- **The enumerations in common**: both tables have one under the name, and reduced to shared
members the two are equivalent and not empty. -/
theorem get?_unifyEnums {mobile desktop : Table Enumeration} {name : Text} {e : Enumeration} :
    (unifyEnums mobile desktop).unified.get? name = some e ↔
      ∃ a b, mobile.get? name = some a ∧ desktop.get? name = some b ∧ a.retainShared b = e ∧
        e.isEmpty = false ∧ e.equivalent (b.retainShared a) = true := by
  rw [unifyEnums, Table.get?_filter, Option.filter_eq_some_iff]
  unfold agreesIn
  simp only [get?_retainShared]
  cases mobile.get? name with
  | none => simp
  | some a =>
    cases desktop.get? name with
    | none => simp
    | some b =>
      simp only [Option.map_some, Option.some.injEq, Option.any_some, Bool.and_eq_true,
        Bool.not_eq_true', Enumeration.retainShared_retainShared, exists_and_left, exists_eq_left']

/-! ### What is left of both tables -/

/-- Tables reduced by each other in turn are reduced as by the tables they were. -/
theorem retainShared_of_reduced (enums others : Table Enumeration) :
    retainShared enums (retainShared others enums) = retainShared enums others := by
  ext1 name
  rw [get?_retainShared, get?_retainShared, get?_retainShared]
  cases enums.get? name with
  | none => rfl
  | some e =>
    cases others.get? name with
    | none => rfl
    | some other => exact congrArg some (e.retainShared_retainShared other)

/-- **A table reduced by another one**: under a name that both have, only the members that the
other one names are kept. An enumeration that the other table has not stays as it is. -/
structure ReducedBy (enums others reduced : Table Enumeration) : Prop where
  keys : reduced.keys = enums.keys
  shared : ∀ name e other, enums.get? name = some e → others.get? name = some other →
    reduced.get? name = some (e.keeping other.names)
  alone : ∀ name, others.get? name = none → reduced.get? name = enums.get? name

theorem reducedBy_retainShared (enums others : Table Enumeration) :
    ReducedBy enums others (retainShared enums others) where
  keys := Table.keys_eq_of_mem_iff fun name => by
    rw [← Table.contains_iff, ← Table.contains_iff, Table.contains, Table.contains,
      get?_retainShared, Option.isSome_map]
  shared name e other he hother := by
    rw [get?_retainShared, he, hother]
    exact congrArg some (e.retainShared_eq_keeping other)
  alone name hother := by
    rw [get?_retainShared, hother, Option.map_id']

/-- **Exactly the enumerations in common.** There is one under a name if both tables have one,
their underlying types are equivalent, they are called alike, and the members of either that the
other names too are the same sequence of names, which is not empty. It is then the mobile one with
these members. What is left of either table is reduced by the other table as it was. -/
theorem unifyEnums_exact (mobile desktop : Table Enumeration) :
    (∀ name e, (unifyEnums mobile desktop).unified.get? name = some e ↔
      ∃ a b, mobile.get? name = some a ∧ desktop.get? name = some b ∧
        a.underlying.equivalent b.underlying = true ∧ a.name = b.name ∧
        a.names.filter (· ∈ b.names) = b.names.filter (· ∈ a.names) ∧
        a.names.filter (· ∈ b.names) ≠ [] ∧ e = a.keeping b.names) ∧
    ReducedBy mobile desktop (unifyEnums mobile desktop).mobile ∧
    ReducedBy desktop mobile (unifyEnums mobile desktop).desktop := by
  refine ⟨fun name e => ?_, reducedBy_retainShared mobile desktop, ?_⟩
  · rw [get?_unifyEnums]
    refine exists_congr fun a => exists_congr fun b => and_congr_right fun _ =>
      and_congr_right fun _ => ?_
    rw [Enumeration.retainShared_eq_keeping, Enumeration.retainShared_eq_keeping]
    constructor
    · rintro ⟨rfl, hmembers, hequiv⟩
      obtain ⟨hunderlying, hname, hnames⟩ := Enumeration.equivalent_iff.mp hequiv
      rw [Enumeration.names_keeping, Enumeration.names_keeping] at hnames
      rw [Enumeration.isEmpty_eq_false_iff, Enumeration.names_keeping] at hmembers
      exact ⟨hunderlying, hname, hnames, hmembers, rfl⟩
    · rintro ⟨hunderlying, hname, hnames, hmembers, rfl⟩
      rw [← Enumeration.names_keeping] at hmembers
      rw [← Enumeration.names_keeping, ← Enumeration.names_keeping] at hnames
      exact ⟨rfl, Enumeration.isEmpty_eq_false_iff.mpr hmembers,
        Enumeration.equivalent_iff.mpr ⟨hunderlying, hname, hnames⟩⟩
  · have hdesktop := reducedBy_retainShared desktop mobile
    rwa [← retainShared_of_reduced] at hdesktop

/-- A mobile enumeration with a repeated member, and one that the desktop has not. -/
def repeatsMobile : Table Enumeration :=
  .ofList [
    ("MAIEdge".toList, ⟨.plain, .named "int".toList, "MAIEdge".toList,
      [⟨"A".toList, some "1".toList⟩, ⟨"B".toList, none⟩, ⟨"A".toList, none⟩]⟩),
    ("MAIOnly".toList, ⟨.plain, .named "int".toList, "MAIOnly".toList, []⟩)]

/-- The desktop enumeration of the same name, with the repeat, another member and other values. -/
def repeatsDesktop : Table Enumeration :=
  .ofList [
    ("MAIEdge".toList, ⟨.options, .named "int".toList, "MAIEdge".toList,
      [⟨"C".toList, none⟩, ⟨"A".toList, none⟩, ⟨"A".toList, some "2".toList⟩]⟩)]

/-- The repeats are in common as the mobile side has them, and either side loses its own member. -/
theorem unifyEnums_exact_repeats :
    (unifyEnums repeatsMobile repeatsDesktop).unified.get? "MAIEdge".toList =
      some ⟨.plain, .named "int".toList, "MAIEdge".toList,
        [⟨"A".toList, some "1".toList⟩, ⟨"A".toList, none⟩]⟩ ∧
    (unifyEnums repeatsMobile repeatsDesktop).desktop.get? "MAIEdge".toList =
      some ⟨.options, .named "int".toList, "MAIEdge".toList,
        [⟨"A".toList, none⟩, ⟨"A".toList, some "2".toList⟩]⟩ ∧
    (unifyEnums repeatsMobile repeatsDesktop).mobile.get? "MAIOnly".toList =
      repeatsMobile.get? "MAIOnly".toList := by
  obtain ⟨hunified, hmobile, hdesktop⟩ := unifyEnums_exact repeatsMobile repeatsDesktop
  have hleft := hdesktop.shared "MAIEdge".toList _ _ rfl rfl
  exact ⟨(hunified _ _).mpr ⟨_, _, rfl, rfl, by decide⟩, hleft.trans (by decide),
    hmobile.alone _ rfl⟩

/-! ### Either side first -/

/-- **Whichever side comes first, the same enumerations are in common**, with the same members. -/
theorem alike_unifyEnums_comm (a b : Table Enumeration) :
    (unifyEnums a b).unified.Alike (fun e e' => e.names = e'.names) (unifyEnums b a).unified := by
  have hswap : ∀ {a b : Table Enumeration} (name : Text) (e : Enumeration),
      (unifyEnums a b).unified.get? name = some e →
        ∃ e', (unifyEnums b a).unified.get? name = some e' ∧ e.names = e'.names := by
    intro a b name e he
    obtain ⟨x, y, hx, hy, rfl, hempty, hequiv⟩ := get?_unifyEnums.mp he
    have hnames := Enumeration.names_eq_of_equivalent hequiv
    have hempty' : (y.retainShared x).isEmpty = false :=
      (Enumeration.isEmpty_eq_of_names hnames).symm.trans hempty
    have hequiv' : (y.retainShared x).equivalent (x.retainShared y) = true :=
      (Enumeration.equivalent_comm _ _).trans hequiv
    exact ⟨y.retainShared x, get?_unifyEnums.mpr ⟨y, x, hy, hx, rfl, hempty', hequiv'⟩, hnames⟩
  refine Table.alike_of_exists hswap fun name e' he' => ?_
  obtain ⟨e, he, -⟩ := hswap name e' he'
  exact ⟨e, he⟩

end CommonHeaders
