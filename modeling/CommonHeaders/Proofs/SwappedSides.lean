import CommonHeaders.Proofs.CommonEnums
import CommonHeaders.Proofs.CommonMembers
import CommonHeaders.Proofs.RenamedWords
import CommonHeaders.Proofs.ScanSteps

/-! # Either corpus on either side

A corpus none of whose names carries the mobile tag may stand on either side. Swapping the two
corpora then changes neither the names in common nor the renaming to them, and the members of common
protocols, adopted protocols and members of enumerations stay the same.

Classes are another matter. The second merge of accessors reads the properties that the first one
has left, and where the first one has put a property in the place of one with other accessors, it
depends on the order which methods and which properties are left. If it replaces properties only by
ones with the same accessors, whichever side comes first, then each merge does what it would do on
its own, and the order makes no difference.

* `pairInterfaces_comm`, `commonRenaming_comm`: pairs and the renaming do not depend on the sides.
* `exists_sharedProperty_merged`: which properties are left if accessors are kept.
* `unify_swap`: what of the common model does not depend on the sides. -/

namespace CommonHeaders

open Naming
open Accessors (ClaimedIn finds leftFor)

/-! ### Names -/

/-- **No mobile names**: no class or protocol carries the mobile tag. -/
structure Corpus.NoMobileNames (c : Corpus) : Prop where
  classes : ∀ name ∈ c.classes.keys, ¬ Carries mobileTag name
  protocols : ∀ name ∈ c.protocols.keys, ¬ Carries mobileTag name

instance (c : Corpus) : Decidable c.NoMobileNames :=
  decidable_of_iff ((∀ name ∈ c.classes.keys, ¬ Carries mobileTag name) ∧
      ∀ name ∈ c.protocols.keys, ¬ Carries mobileTag name)
    ⟨fun ⟨hc, hp⟩ => ⟨hc, hp⟩, fun h => ⟨h.classes, h.protocols⟩⟩

/-- Without mobile names a pair is a name that both tables have. -/
theorem get?_pairInterfaces_of_not_carries {mobile desktop : Table Interface}
    (hmobile : ∀ name ∈ mobile.keys, ¬ Carries mobileTag name) {name : Text} {p : Pair} :
    (pairInterfaces mobile desktop).get? name = some p ↔
      ∃ rest, startsUpper rest = true ∧ name = unifiedTag ++ rest ∧
        p = ⟨desktopTag ++ rest, desktopTag ++ rest⟩ ∧ desktopTag ++ rest ∈ mobile.keys ∧
        desktopTag ++ rest ∈ desktop.keys := by
  rw [get?_pairInterfaces_iff]
  constructor
  · rintro ⟨rest, hupper, hname, hd, hm, hp⟩
    have hboth : desktopTag ++ rest ∈ mobile.keys :=
      hm.resolve_right fun hm => hmobile _ hm ⟨rest, hupper, rfl⟩
    rw [if_pos hboth] at hp
    exact ⟨rest, hupper, hname, hp, hboth, hd⟩
  · rintro ⟨rest, hupper, hname, hp, hm, hd⟩
    refine ⟨rest, hupper, hname, hd, Or.inl hm, ?_⟩
    rw [if_pos hm]
    exact hp

/-- **Pairs do not depend on the sides**, without mobile names. -/
theorem pairInterfaces_comm {t u : Table Interface}
    (ht : ∀ name ∈ t.keys, ¬ Carries mobileTag name)
    (hu : ∀ name ∈ u.keys, ¬ Carries mobileTag name) :
    pairInterfaces t u = pairInterfaces u t := by
  ext1 name
  ext p
  rw [get?_pairInterfaces_of_not_carries ht, get?_pairInterfaces_of_not_carries hu]
  simp only [and_comm (a := desktopTag ++ _ ∈ t.keys)]

/-- The two names of a pair are the same. -/
theorem mobile_eq_desktop_of_pair {t u : Table Interface}
    (ht : ∀ name ∈ t.keys, ¬ Carries mobileTag name) {name : Text} {p : Pair}
    (h : (pairInterfaces t u).get? name = some p) : p.mobile = p.desktop := by
  obtain ⟨rest, -, -, rfl, -, -⟩ := (get?_pairInterfaces_of_not_carries ht).mp h
  rfl

section Sides

variable {settings : Settings} {a b : Corpus} (ha : a.NoMobileNames) (hb : b.NoMobileNames)
include ha hb

/-- **The renaming does not depend on the sides.** -/
theorem commonRenaming_comm : commonRenaming settings a b = commonRenaming settings b a := by
  unfold commonRenaming commonNames
  rw [pairInterfaces_comm ha.classes hb.classes, pairInterfaces_comm ha.protocols hb.protocols,
    (alike_unifyEnums_comm a.enums b.enums).keys_eq]

theorem mobileSide_comm : mobileSide settings b a = desktopSide settings a b := by
  rw [mobileSide, desktopSide, commonRenaming_comm ha hb]

theorem desktopSide_comm : desktopSide settings b a = mobileSide settings a b := by
  rw [mobileSide, desktopSide, commonRenaming_comm ha hb]

end Sides

/-! ### Members in common -/

theorem exists_sharedMethod_iff {mobile desktop : Table Method} {key : Text} :
    (∃ x, SharedMethod mobile desktop key x) ↔
      ∃ a b, mobile.get? key = some a ∧ desktop.get? key = some b ∧ a.equivalent b = true := by
  constructor
  · rintro ⟨x, a, b, ha, hb, hab, -⟩
    exact ⟨a, b, ha, hb, hab⟩
  · rintro ⟨a, b, ha, hb, hab⟩
    exact ⟨_, a, b, ha, hb, hab, rfl⟩

theorem exists_sharedProperty_iff {mobile desktop : Table Property} {name : Text} :
    (∃ x, SharedProperty mobile desktop name x) ↔
      ∃ a b, mobile.get? name = some a ∧ desktop.get? name = some b ∧ a.equivalent b = true := by
  constructor
  · rintro ⟨x, a, b, ha, hb, hab, -⟩
    exact ⟨a, b, ha, hb, hab⟩
  · rintro ⟨a, b, ha, hb, hab⟩
    exact ⟨_, a, b, ha, hb, hab, rfl⟩

/-- Two tables hold values that agree whichever of them comes first. -/
theorem exists_agreeing_comm {α : Type} {agree : α → α → Bool}
    (hcomm : ∀ a b, agree a b = agree b a) {t u : Table α} {key : Text} :
    (∃ a b, t.get? key = some a ∧ u.get? key = some b ∧ agree a b = true) ↔
      ∃ a b, u.get? key = some a ∧ t.get? key = some b ∧ agree a b = true := by
  constructor
  · rintro ⟨a, b, ha, hb, hab⟩
    exact ⟨b, a, hb, ha, (hcomm b a).trans hab⟩
  · rintro ⟨b, a, hb, ha, hba⟩
    exact ⟨a, b, ha, hb, (hcomm a b).trans hba⟩

theorem exists_sharedMethod_comm {mobile desktop : Table Method} {key : Text} :
    (∃ x, SharedMethod mobile desktop key x) ↔ ∃ x, SharedMethod desktop mobile key x := by
  rw [exists_sharedMethod_iff, exists_sharedMethod_iff, exists_agreeing_comm Method.equivalent_comm]

theorem exists_sharedProperty_comm {mobile desktop : Table Property} {name : Text} :
    (∃ x, SharedProperty mobile desktop name x) ↔ ∃ x, SharedProperty desktop mobile name x := by
  rw [exists_sharedProperty_iff, exists_sharedProperty_iff,
    exists_agreeing_comm Property.equivalent_comm]

/-! ### Merges that keep accessors -/

/-- The properties have the same accessors. -/
def Property.SameAccessors (p q : Property) : Prop :=
  p.effectiveGetter = q.effectiveGetter ∧ p.effectiveSetter = q.effectiveSetter

instance (p q : Property) : Decidable (p.SameAccessors q) := by
  unfold Property.SameAccessors; infer_instance

/-- **Merges that keep accessors**: whichever side comes first, the first merge replaces properties
only by ones with the same accessors. -/
structure KeepAccessors (m d : Flattened) : Prop where
  desktop : (desktopMerge m d).target.Compatible Property.SameAccessors d.properties
  mobile : (desktopMerge d m).target.Compatible Property.SameAccessors m.properties

instance (m d : Flattened) : Decidable (KeepAccessors m d) :=
  decidable_of_iff ((desktopMerge m d).target.Compatible Property.SameAccessors d.properties ∧
      (desktopMerge d m).target.Compatible Property.SameAccessors m.properties)
    ⟨fun ⟨hd, hm⟩ => ⟨hd, hm⟩, fun h => ⟨h.desktop, h.mobile⟩⟩

theorem KeepAccessors.symm {m d : Flattened} (h : KeepAccessors m d) : KeepAccessors d m :=
  ⟨h.mobile, h.desktop⟩

theorem Property.SameAccessors.isAccessor_iff {p q : Property} (h : p.SameAccessors q)
    (key : Text) : p.isAccessor key ↔ q.isAccessor key := by
  unfold Property.isAccessor
  rw [h.1, h.2]

namespace Accessors

variable {methods : Table Method} {source source' target : Table Property} {name : Text}

/-- Alike tables of properties claim the same selectors of the same names. -/
theorem claims_of_alike (h : source.Alike Property.SameAccessors source') {key : Text} :
    (∃ p, source.get? name = some p ∧ p.isAccessor key) ↔
      ∃ p, source'.get? name = some p ∧ p.isAccessor key := by
  have hname := h name
  cases hp : source.get? name with
  | none =>
    cases hq : source'.get? name with
    | none => simp
    | some q =>
      rw [hp, hq] at hname
      exact nomatch hname
  | some p =>
    cases hq : source'.get? name with
    | none =>
      rw [hp, hq] at hname
      exact nomatch hname
    | some q =>
      rw [hp, hq] at hname
      cases hname with
      | some hsame => simp only [Option.some.injEq, exists_eq_left', hsame.isAccessor_iff key]

theorem claimedIn_of_alike (h : source.Alike Property.SameAccessors source') {key : Text} :
    ClaimedIn source key ↔ ClaimedIn source' key :=
  exists_congr fun _ => claims_of_alike h

theorem leftFor_of_alike (h : source.Alike Property.SameAccessors source') :
    leftFor methods source name = leftFor methods source' name := by
  have hclaims : ∀ key, (∀ n p, source.get? n = some p → n < name → ¬ p.isAccessor key) ↔
      ∀ n p, source'.get? n = some p → n < name → ¬ p.isAccessor key := by
    intro key
    refine forall_congr' fun n => ?_
    have hn : (∃ p, source.get? n = some p ∧ p.isAccessor key) ↔
        ∃ p, source'.get? n = some p ∧ p.isAccessor key := claims_of_alike h
    constructor
    · intro hnone p hp hlt hkey
      obtain ⟨q, hq, hkey'⟩ := hn.mpr ⟨p, hp, hkey⟩
      exact hnone q hq hlt hkey'
    · intro hnone p hp hlt hkey
      obtain ⟨q, hq, hkey'⟩ := hn.mp ⟨p, hp, hkey⟩
      exact hnone q hq hlt hkey'
  ext1 key
  ext m
  rw [get?_leftFor, get?_leftFor, hclaims key]

/-- If a merge keeps accessors, the target is alike before and after it. -/
theorem alike_merge_target
    (h : (merge methods source target).target.Compatible Property.SameAccessors target) :
    (merge methods source target).target.Alike Property.SameAccessors target := by
  refine Table.alike_of_exists (fun n p hp => ?_) fun n q hq => ?_
  all_goals cases hs : source.get? n
  case refine_1.none =>
    rw [get?_merge_target_of_not_source hs] at hp
    exact ⟨p, hp, rfl, rfl⟩
  case refine_1.some s =>
    have hp' := hp
    rw [get?_merge_target_of_source hs, Option.map_eq_some_iff] at hp'
    obtain ⟨q, hq, -⟩ := hp'
    exact ⟨q, hq, h n p q hp hq⟩
  case refine_2.none =>
    exact ⟨q, (get?_merge_target_of_not_source hs).trans hq⟩
  case refine_2.some s =>
    rw [get?_merge_target_of_source hs, hq]
    exact ⟨_, rfl⟩

end Accessors

/-! ### What the two merges leave -/

section Merges

variable {m d : Flattened} {name key : Text}

/-- **The properties left by both merges**, if accessors are kept: those that both sides have, and
either equivalently or with the accessors of one found on the other side. -/
theorem exists_sharedProperty_merged (h : KeepAccessors m d) :
    (∃ x, SharedProperty (mobileMerge m d).target (desktopMerge m d).target name x) ↔
      ∃ p q, m.properties.get? name = some p ∧ d.properties.get? name = some q ∧
        (p.equivalent q = true ∨ finds (leftFor d.methods m.properties name) p = true ∨
          finds (leftFor m.methods d.properties name) q = true) := by
  have hleft : leftFor m.methods (desktopMerge m d).target name =
      leftFor m.methods d.properties name :=
    Accessors.leftFor_of_alike (Accessors.alike_merge_target h.desktop)
  rw [exists_sharedProperty_iff]
  cases hp : m.properties.get? name with
  | none =>
    have hnone : (mobileMerge m d).target.get? name = none := by
      cases hs : (desktopMerge m d).target.get? name with
      | none => exact (Accessors.get?_merge_target_of_not_source hs).trans hp
      | some s => rw [mobileMerge, Accessors.get?_merge_target_of_source hs, hp]; rfl
    simp [hnone]
  | some p =>
    have hfirst : (desktopMerge m d).target.get? name = (d.properties.get? name).map fun q =>
        if finds (leftFor d.methods m.properties name) p then p else q :=
      Accessors.get?_merge_target_of_source hp
    cases hq : d.properties.get? name with
    | none =>
      rw [hq] at hfirst
      simp [hfirst]
    | some q =>
      rw [hq, Option.map_some] at hfirst
      have hsecond : (mobileMerge m d).target.get? name = _ :=
        Accessors.get?_merge_target_of_source hfirst
      rw [hp, Option.map_some, hleft] at hsecond
      simp only [hfirst, hsecond, Option.some.injEq, exists_eq_left', exists_and_left]
      by_cases hmobile : finds (leftFor d.methods m.properties name) p = true
      · -- the first merge has put the mobile property on both sides
        simp [hmobile, Property.equivalent_refl]
      · by_cases hdesktop : finds (leftFor m.methods d.properties name) q = true
        · simp [hmobile, hdesktop, Property.equivalent_refl]
        · simp [hmobile, hdesktop]

/-- Which properties are left does not depend on the sides, if accessors are kept. -/
theorem exists_sharedProperty_merged_comm (h : KeepAccessors m d) :
    (∃ x, SharedProperty (mobileMerge m d).target (desktopMerge m d).target name x) ↔
      ∃ x, SharedProperty (mobileMerge d m).target (desktopMerge d m).target name x := by
  have hswap : ∀ {m d : Flattened}, KeepAccessors m d →
      (∃ x, SharedProperty (mobileMerge m d).target (desktopMerge m d).target name x) →
        ∃ x, SharedProperty (mobileMerge d m).target (desktopMerge d m).target name x := by
    intro m d h hleft
    obtain ⟨p, q, hp, hq, hpq⟩ := (exists_sharedProperty_merged h).mp hleft
    refine (exists_sharedProperty_merged h.symm).mpr ⟨q, p, hq, hp, ?_⟩
    rcases hpq with hpq | hfound | hfound
    · exact Or.inl ((Property.equivalent_comm q p).trans hpq)
    · exact Or.inr (Or.inr hfound)
    · exact Or.inr (Or.inl hfound)
  exact ⟨hswap h, hswap h.symm⟩

/-- If accessors are kept, the desktop properties claim the same selectors after the first merge. -/
theorem claimedIn_desktopMerge (h : KeepAccessors m d) :
    ClaimedIn (desktopMerge m d).target key ↔ ClaimedIn d.properties key :=
  Accessors.claimedIn_of_alike (Accessors.alike_merge_target h.desktop)

end Merges

/-! ### Common interfaces -/

/-- The interfaces have the same selectors, the same property names and the same adopted
protocols. -/
structure UnifiedInterface.SameMembers (u v : UnifiedInterface) : Prop where
  methods : u.interface.methods.keys = v.interface.methods.keys
  properties : u.interface.properties.keys = v.interface.properties.keys
  protocols : ∀ p, p ∈ u.interface.protocols.names ↔ p ∈ v.interface.protocols.names

section Members

variable {mobile desktop : Corpus} {m d : Interface} {u v : UnifiedInterface}

theorem mem_protocols_comm {l l' names names' : List Text}
    (h : names = l.filter (· ∈ l')) (h' : names' = l'.filter (· ∈ l)) (p : Text) :
    p ∈ names ↔ p ∈ names' := by
  rw [h, h', List.mem_filter, List.mem_filter, decide_eq_true_iff, decide_eq_true_iff]
  exact and_comm

/-- Swapping the sides of a pair of protocols leaves the names of members. -/
theorem sameMembers_of_protocolMembers (hu : ProtocolMembers mobile desktop m d u.interface)
    (hv : ProtocolMembers desktop mobile d m v.interface) : u.SameMembers v where
  methods := Table.keys_eq_of_mem_iff fun key => by
    rw [Table.mem_keys_iff, Table.mem_keys_iff]
    simp only [hu.methods, hv.methods]
    exact exists_sharedMethod_comm
  properties := Table.keys_eq_of_mem_iff fun name => by
    rw [Table.mem_keys_iff, Table.mem_keys_iff]
    simp only [hu.properties, hv.properties]
    exact exists_sharedProperty_comm
  protocols := mem_protocols_comm hu.protocols hv.protocols

/-- Swapping the sides of a pair of classes leaves the names of members if accessors are kept. -/
theorem sameMembers_of_classMembers (hu : ClassMembers mobile desktop m d u.interface)
    (hv : ClassMembers desktop mobile d m v.interface)
    (h : KeepAccessors (mobile.flatten m) (desktop.flatten d)) : u.SameMembers v where
  methods := Table.keys_eq_of_mem_iff fun key => by
    rw [Table.mem_keys_iff, Table.mem_keys_iff]
    simp only [hu.methods, hv.methods, claimedIn_desktopMerge h, claimedIn_desktopMerge h.symm,
      exists_and_right]
    rw [exists_sharedMethod_comm, and_comm (a := ¬ ClaimedIn (mobile.flatten m).properties key)]
  properties := Table.keys_eq_of_mem_iff fun name => by
    rw [Table.mem_keys_iff, Table.mem_keys_iff]
    simp only [hu.properties, hv.properties]
    exact exists_sharedProperty_merged_comm h
  protocols := mem_protocols_comm hu.protocols hv.protocols

end Members

/-! ### The whole -/

/-- **Accessors are kept** in the class of that name, if there is one. -/
def AccessorsKept (settings : Settings) (a b : Corpus) (name : Text) : Prop :=
  ∀ p, (pairInterfaces a.classes b.classes).get? name = some p →
    ∀ m, (mobileSide settings a b).classes.get? p.mobile = some m →
      ∀ d, (desktopSide settings a b).classes.get? p.desktop = some d →
        KeepAccessors ((mobileSide settings a b).flatten m) ((desktopSide settings a b).flatten d)

instance (settings : Settings) (a b : Corpus) (name : Text) :
    Decidable (AccessorsKept settings a b name) := by
  unfold AccessorsKept; infer_instance

section Model

variable {settings : Settings} {a b : Corpus} {name : Text}

theorem get?_classes_of_no_pair (h : (pairInterfaces a.classes b.classes).get? name = none) :
    (unify settings a b).classes.get? name = none := by
  rw [unify, Table.get?_filterMap, h]
  rfl

theorem get?_protocols_of_no_pair (h : (pairInterfaces a.protocols b.protocols).get? name = none) :
    (unify settings a b).protocols.get? name = none := by
  rw [unify, Table.get?_filterMap, h]
  rfl

variable (settings) (ha : a.NoMobileNames) (hb : b.NoMobileNames)
include ha hb

/-- Either order gives common protocols of the same names with the same members. -/
theorem alike_protocols_swap : (unify settings a b).protocols.Alike UnifiedInterface.SameMembers
    (unify settings b a).protocols := by
  intro name
  have hcomm := pairInterfaces_comm ha.protocols hb.protocols
  cases hp : (pairInterfaces a.protocols b.protocols).get? name with
  | none =>
    rw [get?_protocols_of_no_pair hp, get?_protocols_of_no_pair (hcomm ▸ hp)]
    exact .none
  | some p =>
    have hnames := mobile_eq_desktop_of_pair ha.protocols hp
    obtain ⟨m, d, u, hm, hd, hu, hmembers⟩ := protocolMembers_of_pair settings hp
    obtain ⟨d', m', v, hd', hm', hv, hmembers'⟩ := protocolMembers_of_pair settings (hcomm ▸ hp)
    rw [mobileSide_comm ha hb, hnames, hd] at hd'
    rw [desktopSide_comm ha hb, ← hnames, hm] at hm'
    rw [mobileSide_comm ha hb, desktopSide_comm ha hb, ← Option.some.inj hd',
      ← Option.some.inj hm'] at hmembers'
    rw [hu, hv]
    exact .some (sameMembers_of_protocolMembers hmembers hmembers')

/-- Either order gives common classes of the same names, with the members of the same two sides. -/
theorem classes_swap_cases (name : Text) :
    (unify settings a b).classes.get? name = none ∧ (unify settings b a).classes.get? name = none ∨
      ∃ p m d u v, (pairInterfaces a.classes b.classes).get? name = some p ∧
        (mobileSide settings a b).classes.get? p.mobile = some m ∧
        (desktopSide settings a b).classes.get? p.desktop = some d ∧
        (unify settings a b).classes.get? name = some u ∧
        (unify settings b a).classes.get? name = some v ∧
        ClassMembers (mobileSide settings a b) (desktopSide settings a b) m d u.interface ∧
        ClassMembers (desktopSide settings a b) (mobileSide settings a b) d m v.interface := by
  have hcomm := pairInterfaces_comm ha.classes hb.classes
  cases hp : (pairInterfaces a.classes b.classes).get? name with
  | none => exact Or.inl ⟨get?_classes_of_no_pair hp, get?_classes_of_no_pair (hcomm ▸ hp)⟩
  | some p =>
    have hnames := mobile_eq_desktop_of_pair ha.classes hp
    obtain ⟨m, d, u, hm, hd, hu, hmembers⟩ := classMembers_of_pair settings hp
    obtain ⟨d', m', v, hd', hm', hv, hmembers'⟩ := classMembers_of_pair settings (hcomm ▸ hp)
    rw [mobileSide_comm ha hb, hnames, hd] at hd'
    rw [desktopSide_comm ha hb, ← hnames, hm] at hm'
    rw [mobileSide_comm ha hb, desktopSide_comm ha hb, ← Option.some.inj hd',
      ← Option.some.inj hm'] at hmembers'
    exact Or.inr ⟨p, m, d, u, v, rfl, hm, hd, hu, hv, hmembers, hmembers'⟩

/-- **What does not depend on the sides.** If no name of either corpus carries the mobile tag,
either order gives enumerations of the same names with the same members, protocols of the same names
with the same members and adopted protocols, and classes of the same names with the same adopted
protocols; and a class has the same members, too, if accessors are kept in it. -/
theorem unify_swap :
    (unify settings a b).enums.Alike (fun e e' => e.names = e'.names) (unify settings b a).enums ∧
      (unify settings a b).protocols.Alike UnifiedInterface.SameMembers
        (unify settings b a).protocols ∧
      (unify settings a b).classes.Alike (fun u v => ∀ p, p ∈ u.interface.protocols.names ↔
        p ∈ v.interface.protocols.names) (unify settings b a).classes ∧
      ∀ name, AccessorsKept settings a b name → Option.Rel UnifiedInterface.SameMembers
        ((unify settings a b).classes.get? name) ((unify settings b a).classes.get? name) := by
  refine ⟨alike_unifyEnums_comm a.enums b.enums, alike_protocols_swap settings ha hb,
    fun name => ?_, fun name hkept => ?_⟩
  · rcases classes_swap_cases settings ha hb name with
      ⟨hu, hv⟩ | ⟨p, m, d, u, v, hp, hm, hd, hu, hv, hmembers, hmembers'⟩
    · rw [hu, hv]
      exact .none
    · rw [hu, hv]
      exact .some (mem_protocols_comm hmembers.protocols hmembers'.protocols)
  · rcases classes_swap_cases settings ha hb name with
      ⟨hu, hv⟩ | ⟨p, m, d, u, v, hp, hm, hd, hu, hv, hmembers, hmembers'⟩
    · rw [hu, hv]
      exact .none
    · rw [hu, hv]
      exact .some (sameMembers_of_classMembers hmembers hmembers' (hkept p hp m hm d hd))

end Model

/-- A property that is only read, and a method. -/
def valueThing : Corpus :=
  Corpus.empty.scanText .default
    "@interface NSThing : A\n@property (readonly) int v;\n-(int)w;".toList

/-- The same with the getter of the property. -/
def writtenThing : Corpus :=
  Corpus.empty.scanText .default
    "@interface NSThing : A\n@property (readonly) int v;\n-(int)v;\n-(int)w;".toList

/-- The same, but the getter of the property is the other method. -/
def otherThing : Corpus :=
  Corpus.empty.scanText .default
    "@interface NSThing : A\n@property (readonly,getter=w) int v;\n-(int)v;\n-(int)w;".toList

/-- A class with its getter written out on one side has the same members in either order. -/
theorem unify_swap_written :
    valueThing.NoMobileNames ∧ writtenThing.NoMobileNames ∧
      AccessorsKept .default valueThing writtenThing "MAIThing".toList ∧
      Option.Rel UnifiedInterface.SameMembers
        ((unify .default valueThing writtenThing).classes.get? "MAIThing".toList)
        ((unify .default writtenThing valueThing).classes.get? "MAIThing".toList) ∧
      ((unify .default valueThing writtenThing).classes.get? "MAIThing".toList).map
        (·.interface.methods.keys) = some ["w".toList] := by
  have h : valueThing.NoMobileNames ∧ writtenThing.NoMobileNames ∧
      AccessorsKept .default valueThing writtenThing "MAIThing".toList ∧
      ((unify .default valueThing writtenThing).classes.get? "MAIThing".toList).map
        (·.interface.methods.keys) = some ["w".toList] := by decide +kernel
  obtain ⟨ha, hb, hkept, hmethods⟩ := h
  obtain ⟨-, -, -, hclasses⟩ := unify_swap .default ha hb
  exact ⟨ha, hb, hkept, hclasses _ hkept, hmethods⟩

/-- If the property has another getter on one side, the order decides: in one order the property
that has found its getter takes the place of the other one, whose getter the second merge then no
longer sees. -/
theorem unify_swap_other :
    Corpus.Scanned .default valueThing ∧ Corpus.Scanned .default otherThing ∧
      valueThing.NoMobileNames ∧ otherThing.NoMobileNames ∧
      ((unify .default valueThing otherThing).classes.get? "MAIThing".toList).map
        (·.interface.methods.keys) = some ["w".toList] ∧
      ((unify .default otherThing valueThing).classes.get? "MAIThing".toList).map
        (·.interface.methods.keys) = some [] := by
  refine ⟨.scanText _ .empty, .scanText _ .empty, ?_⟩
  decide +kernel

end CommonHeaders
