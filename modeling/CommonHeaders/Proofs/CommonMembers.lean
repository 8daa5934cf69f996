import CommonHeaders.Proofs.AccessorMerge
import CommonHeaders.Proofs.Pairing

/-! # The members of common interfaces

A common protocol has the members that both sides of its pair hold equivalently. For a common class
the two merges of accessors come first: the one takes the accessors of the mobile properties out of
the desktop methods and may put mobile properties into the desktop table; the other then takes the
accessors of the desktop properties, as they are by now, out of the mobile methods.

* `unify_members_exact`: exactly which members and adopted protocols a common interface has.
* `unify_accessors_apart`: no method of a common class is an accessor of one of its properties. -/

namespace CommonHeaders

open Accessors (ClaimedIn)

/-! ### Members in common, said field by field -/

/-- **A method in common**: both tables hold it equivalently, and it is the mobile one with the
flags of both. -/
def SharedMethod (mobile desktop : Table Method) (key : Text) (x : Method) : Prop :=
  ∃ a b, mobile.get? key = some a ∧ desktop.get? key = some b ∧ a.equivalent b = true ∧
    x = { a with flags :=
      { designatedInitializer := a.flags.designatedInitializer || b.flags.designatedInitializer
        unavailable := a.flags.unavailable || b.flags.unavailable
        required := a.flags.required || b.flags.required } }

/-- **A property in common**: both tables hold it equivalently, and it is the mobile one with the
flags of both. -/
def SharedProperty (mobile desktop : Table Property) (name : Text) (x : Property) : Prop :=
  ∃ a b, mobile.get? name = some a ∧ desktop.get? name = some b ∧ a.equivalent b = true ∧
    x = { a with required := a.required || b.required, readOnly := a.readOnly || b.readOnly }

theorem get?_shared_methods {mobile desktop : Table Method} {key : Text} {x : Method} :
    (shared Method.equivalent Method.mergeFlags mobile desktop).get? key = some x ↔
      SharedMethod mobile desktop key x := by
  rw [get?_shared]
  constructor
  · rintro ⟨a, b, ha, hb, hab, rfl⟩
    exact ⟨a, b, ha, hb, hab, rfl⟩
  · rintro ⟨a, b, ha, hb, hab, rfl⟩
    exact ⟨a, b, ha, hb, hab, rfl⟩

theorem get?_shared_properties {mobile desktop : Table Property} {name : Text} {x : Property} :
    (shared Property.equivalent Property.mergeFlags mobile desktop).get? name = some x ↔
      SharedProperty mobile desktop name x := by
  rw [get?_shared]
  constructor
  · rintro ⟨a, b, ha, hb, hab, rfl⟩
    exact ⟨a, b, ha, hb, hab, rfl⟩
  · rintro ⟨a, b, ha, hb, hab, rfl⟩
    exact ⟨a, b, ha, hb, hab, rfl⟩

/-! ### What an interface holds -/

/-- **The members of a common protocol** of two sides. -/
structure ProtocolMembers (mobile desktop : Corpus) (m d u : Interface) : Prop where
  methods : ∀ key x, u.methods.get? key = some x ↔
    SharedMethod (mobile.flatten m).methods (desktop.flatten d).methods key x
  properties : ∀ name x, u.properties.get? name = some x ↔
    SharedProperty (mobile.flatten m).properties (desktop.flatten d).properties name x
  protocols : u.protocols.names = m.protocols.names.filter (· ∈ d.protocols.names)

/-- The first merge of two flattened classes: desktop methods with mobile properties. -/
def desktopMerge (mobile desktop : Flattened) : Accessors.State :=
  Accessors.merge desktop.methods mobile.properties desktop.properties

/-- The second merge: mobile methods with the desktop properties that the first has left. -/
def mobileMerge (mobile desktop : Flattened) : Accessors.State :=
  Accessors.merge mobile.methods (desktopMerge mobile desktop).target mobile.properties

/-- **The members of a common class** of two sides. -/
structure ClassMembers (mobile desktop : Corpus) (m d u : Interface) : Prop where
  methods : ∀ key x, u.methods.get? key = some x ↔
    SharedMethod (mobile.flatten m).methods (desktop.flatten d).methods key x ∧
      ¬ ClaimedIn (mobile.flatten m).properties key ∧
      ¬ ClaimedIn (desktopMerge (mobile.flatten m) (desktop.flatten d)).target key
  properties : ∀ name x, u.properties.get? name = some x ↔
    SharedProperty (mobileMerge (mobile.flatten m) (desktop.flatten d)).target
      (desktopMerge (mobile.flatten m) (desktop.flatten d)).target name x
  protocols : u.protocols.names = m.protocols.names.filter (· ∈ d.protocols.names)

theorem names_filter_adopts (m d : Interface) :
    (m.protocols.filter d.adopts).names = m.protocols.names.filter (· ∈ d.protocols.names) := by
  refine List.filter_congr fun name _ => ?_
  rw [Bool.eq_iff_iff, decide_eq_true_iff]
  exact Adoptions.has_iff

theorem protocolMembers_intersect (mobile desktop : Corpus) (name : Text) (m d : Interface) :
    ProtocolMembers mobile desktop m d
      (intersect name .ofProtocol (mobile.flatten m) (desktop.flatten d) m d) where
  methods _ _ := get?_shared_methods
  properties _ _ := get?_shared_properties
  protocols := names_filter_adopts m d

/-- A merge leaves a shared method exactly when no property of either side claims it. -/
theorem sharedMethod_merged {mobile desktop : Flattened} {key : Text} {x : Method} :
    SharedMethod (mobileMerge mobile desktop).methods (desktopMerge mobile desktop).methods key x ↔
      SharedMethod mobile.methods desktop.methods key x ∧ ¬ ClaimedIn mobile.properties key ∧
        ¬ ClaimedIn (desktopMerge mobile desktop).target key := by
  have hd : ∀ {b}, (desktopMerge mobile desktop).methods.get? key = some b ↔
      desktop.methods.get? key = some b ∧ ¬ ClaimedIn mobile.properties key :=
    Accessors.get?_merge_methods
  have hm : ∀ {a}, (mobileMerge mobile desktop).methods.get? key = some a ↔
      mobile.methods.get? key = some a ∧ ¬ ClaimedIn (desktopMerge mobile desktop).target key :=
    Accessors.get?_merge_methods
  constructor
  · rintro ⟨a, b, ha, hb, hab, hx⟩
    exact ⟨⟨a, b, (hm.mp ha).1, (hd.mp hb).1, hab, hx⟩, (hd.mp hb).2, (hm.mp ha).2⟩
  · rintro ⟨⟨a, b, ha, hb, hab, hx⟩, hmobile, hdesktop⟩
    exact ⟨a, b, hm.mpr ⟨ha, hdesktop⟩, hd.mpr ⟨hb, hmobile⟩, hab, hx⟩

theorem classMembers_intersect (mobile desktop : Corpus) (name : Text) (kind : InterfaceKind)
    (m d : Interface) :
    ClassMembers mobile desktop m d
      (intersect name kind (mergeAccessors (mobile.flatten m) (desktop.flatten d)).1
        (mergeAccessors (mobile.flatten m) (desktop.flatten d)).2 m d) where
  methods _ _ := get?_shared_methods.trans sharedMethod_merged
  properties _ _ := get?_shared_properties
  protocols := names_filter_adopts m d

/-! ### A small pair of corpora -/

/-- A property `value` that may be written, and a method `shared` beside it. -/
def withValue (i : Interface) : Interface :=
  (i.addProperty { type := .named "int".toList, name := "value".toList }).addMethod
    ⟨.onInstance, "shared".toList, .named "void".toList, [], {}⟩

/-- A mobile class and a mobile protocol. -/
def thingsMobile : Corpus where
  classes := .ofList [("UIThing".toList, withValue (.newClass "UIThing".toList none))]
  protocols := .ofList [("UISource".toList, withValue (.newProtocol "UISource".toList))]

/-- The same for the desktop, where the class also declares the getter of its property. -/
def thingsDesktop : Corpus where
  classes := .ofList [("NSThing".toList, (withValue (.newClass "NSThing".toList none)).addMethod
    ⟨.onInstance, "value".toList, .named "int".toList, [], {}⟩)]
  protocols := .ofList [("NSSource".toList, withValue (.newProtocol "NSSource".toList))]

/-! ### The interfaces of the model -/

theorem exists_unifyProtocol {mobile desktop : Corpus} (name : Text) {p : Pair} {m d : Interface}
    (hm : mobile.protocols.get? p.mobile = some m)
    (hd : desktop.protocols.get? p.desktop = some d) :
    ∃ u, unifyProtocol mobile desktop name p = some u ∧
      ProtocolMembers mobile desktop m d u.interface :=
  ⟨⟨intersect name .ofProtocol (mobile.flatten m) (desktop.flatten d) m d, p.mobile, p.desktop⟩,
    by simp [unifyProtocol, hm, hd], protocolMembers_intersect mobile desktop name m d⟩

theorem exists_unifyClass {mobile desktop : Corpus} (name : Text) {p : Pair} {m d : Interface}
    (hm : mobile.classes.get? p.mobile = some m) (hd : desktop.classes.get? p.desktop = some d) :
    ∃ u, unifyClass mobile desktop name p = some u ∧
      ClassMembers mobile desktop m d u.interface :=
  ⟨⟨intersect name (.ofClass (some (mobile.chainRoot m)))
      (mergeAccessors (mobile.flatten m) (desktop.flatten d)).1
      (mergeAccessors (mobile.flatten m) (desktop.flatten d)).2 m d, p.mobile, p.desktop⟩,
    by simp [unifyClass, hm, hd], classMembers_intersect mobile desktop name _ m d⟩

section Model

variable (settings : Settings) {mobile desktop : Corpus} {name : Text}

/-- Every pair of protocols gives a common protocol. -/
theorem protocolMembers_of_pair {p : Pair}
    (hp : (pairInterfaces mobile.protocols desktop.protocols).get? name = some p) :
    ∃ m d u, (mobileSide settings mobile desktop).protocols.get? p.mobile = some m ∧
      (desktopSide settings mobile desktop).protocols.get? p.desktop = some d ∧
      (unify settings mobile desktop).protocols.get? name = some u ∧
      ProtocolMembers (mobileSide settings mobile desktop) (desktopSide settings mobile desktop)
        m d u.interface := by
  obtain ⟨m, d, hm, hd⟩ := protocols_of_pair settings hp
  obtain ⟨u, hu, hmembers⟩ := exists_unifyProtocol name hm hd
  refine ⟨m, d, u, hm, hd, ?_, hmembers⟩
  rw [unify, Table.get?_filterMap, hp]
  exact hu

/-- Every pair of classes gives a common class. -/
theorem classMembers_of_pair {p : Pair}
    (hp : (pairInterfaces mobile.classes desktop.classes).get? name = some p) :
    ∃ m d u, (mobileSide settings mobile desktop).classes.get? p.mobile = some m ∧
      (desktopSide settings mobile desktop).classes.get? p.desktop = some d ∧
      (unify settings mobile desktop).classes.get? name = some u ∧
      ClassMembers (mobileSide settings mobile desktop) (desktopSide settings mobile desktop)
        m d u.interface := by
  obtain ⟨m, d, hm, hd⟩ := classes_of_pair settings hp
  obtain ⟨u, hu, hmembers⟩ := exists_unifyClass name hm hd
  refine ⟨m, d, u, hm, hd, ?_, hmembers⟩
  rw [unify, Table.get?_filterMap, hp]
  exact hu

/-- **Exactly the members in common.** Every pair gives a common interface. For a pair of protocols
it has the members that the flattened sides hold equivalently. For a pair of classes it has the
methods that the flattened sides hold equivalently and that are no accessors, neither of a mobile
property nor of a desktop property as the first merge has left it, and the properties that the
tables left by both merges hold equivalently. Either adopts what both sides adopt themselves, in
the mobile order. -/
theorem unify_members_exact (settings : Settings) (mobile desktop : Corpus) :
    (∀ name p, (pairInterfaces mobile.protocols desktop.protocols).get? name = some p →
      ∃ m d u, (mobileSide settings mobile desktop).protocols.get? p.mobile = some m ∧
        (desktopSide settings mobile desktop).protocols.get? p.desktop = some d ∧
        (unify settings mobile desktop).protocols.get? name = some u ∧
        ProtocolMembers (mobileSide settings mobile desktop) (desktopSide settings mobile desktop)
          m d u.interface) ∧
    ∀ name p, (pairInterfaces mobile.classes desktop.classes).get? name = some p →
      ∃ m d u, (mobileSide settings mobile desktop).classes.get? p.mobile = some m ∧
        (desktopSide settings mobile desktop).classes.get? p.desktop = some d ∧
        (unify settings mobile desktop).classes.get? name = some u ∧
        ClassMembers (mobileSide settings mobile desktop) (desktopSide settings mobile desktop)
          m d u.interface :=
  ⟨fun _ _ hp => protocolMembers_of_pair settings hp,
    fun _ _ hp => classMembers_of_pair settings hp⟩

theorem unify_members_exact_things :
    (∃ m d u, (mobileSide .default thingsMobile thingsDesktop).protocols.get? "UISource".toList =
        some m ∧
      (desktopSide .default thingsMobile thingsDesktop).protocols.get? "NSSource".toList = some d ∧
      (unify .default thingsMobile thingsDesktop).protocols.get? "MAISource".toList = some u ∧
      ProtocolMembers (mobileSide .default thingsMobile thingsDesktop)
        (desktopSide .default thingsMobile thingsDesktop) m d u.interface) ∧
    ∃ m d u, (mobileSide .default thingsMobile thingsDesktop).classes.get? "UIThing".toList =
        some m ∧
      (desktopSide .default thingsMobile thingsDesktop).classes.get? "NSThing".toList = some d ∧
      (unify .default thingsMobile thingsDesktop).classes.get? "MAIThing".toList = some u ∧
      ClassMembers (mobileSide .default thingsMobile thingsDesktop)
        (desktopSide .default thingsMobile thingsDesktop) m d u.interface :=
  ⟨(unify_members_exact .default thingsMobile thingsDesktop).1 "MAISource".toList
      ⟨"UISource".toList, "NSSource".toList⟩ (by decide),
    (unify_members_exact .default thingsMobile thingsDesktop).2 "MAIThing".toList
      ⟨"UIThing".toList, "NSThing".toList⟩ (by decide)⟩

variable {settings}

/-! ### From the model back to pairs -/

/-- A common protocol comes from a pair, and its members are those of the pair. -/
theorem protocolMembers_of_get? {u : UnifiedInterface}
    (hu : (unify settings mobile desktop).protocols.get? name = some u) :
    ∃ (p : Pair) (m d : Interface),
      (mobileSide settings mobile desktop).protocols.get? p.mobile = some m ∧
      (desktopSide settings mobile desktop).protocols.get? p.desktop = some d ∧
      ProtocolMembers (mobileSide settings mobile desktop) (desktopSide settings mobile desktop)
        m d u.interface := by
  have hu' := hu
  rw [unify, Table.get?_filterMap, Option.bind_eq_some_iff] at hu'
  obtain ⟨p, hp, -⟩ := hu'
  obtain ⟨m, d, u', hm, hd, hu', hmembers⟩ := protocolMembers_of_pair settings hp
  rw [hu] at hu'
  exact ⟨p, m, d, hm, hd, Option.some.inj hu' ▸ hmembers⟩

/-- A common class comes from a pair, and its members are those of the pair. -/
theorem classMembers_of_get? {u : UnifiedInterface}
    (hu : (unify settings mobile desktop).classes.get? name = some u) :
    ∃ (p : Pair) (m d : Interface),
      (mobileSide settings mobile desktop).classes.get? p.mobile = some m ∧
      (desktopSide settings mobile desktop).classes.get? p.desktop = some d ∧
      ClassMembers (mobileSide settings mobile desktop) (desktopSide settings mobile desktop)
        m d u.interface := by
  have hu' := hu
  rw [unify, Table.get?_filterMap, Option.bind_eq_some_iff] at hu'
  obtain ⟨p, hp, -⟩ := hu'
  obtain ⟨m, d, u', hm, hd, hu', hmembers⟩ := classMembers_of_pair settings hp
  rw [hu] at hu'
  exact ⟨p, m, d, hm, hd, Option.some.inj hu' ▸ hmembers⟩

/-! ### Accessors and properties apart -/

/-- What no property of either side claims, no property left by both merges claims: such a property
is a mobile one, or has come over from the desktop side as the first merge has left it. -/
theorem not_isAccessor_of_merged {mobile desktop : Flattened} {key : Text} {p : Property}
    (hp : (mobileMerge mobile desktop).target.get? name = some p)
    (hmobile : ¬ ClaimedIn mobile.properties key)
    (hdesktop : ¬ ClaimedIn (desktopMerge mobile desktop).target key) : ¬ p.isAccessor key := by
  intro hkey
  rcases Accessors.get?_merge_target hp with hp | hp
  · exact hmobile ⟨name, p, hp, hkey⟩
  · exact hdesktop ⟨name, p, hp, hkey⟩

/-- **No capability twice**: no method of a common class is an accessor of one of its
properties. -/
theorem unify_accessors_apart {u : UnifiedInterface} {key : Text}
    (hu : (unify settings mobile desktop).classes.get? name = some u)
    (hkey : key ∈ u.interface.methods.keys) : ¬ ClaimedIn u.interface.properties key := by
  rintro ⟨n, p, hp, hclaimed⟩
  obtain ⟨-, m, d, -, -, hmembers⟩ := classMembers_of_get? hu
  obtain ⟨x, hx⟩ := Table.mem_keys_iff.mp hkey
  obtain ⟨-, hmobile, hdesktop⟩ := (hmembers.methods key x).mp hx
  obtain ⟨a, b, ha, -, hab, rfl⟩ := (hmembers.properties n p).mp hp
  have haccessor : a.isAccessor key := (Property.isAccessor_mergeFlags hab key).mp hclaimed
  exact not_isAccessor_of_merged ha hmobile hdesktop haccessor

/-- The getter that the desktop declares beside its property is gone, the shared method stays. -/
theorem unify_accessors_apart_things :
    ∃ u, (unify .default thingsMobile thingsDesktop).classes.get? "MAIThing".toList = some u ∧
      u.interface.properties.keys = ["value".toList] ∧ "shared".toList ∈ u.interface.methods.keys ∧
      ¬ ClaimedIn u.interface.properties "shared".toList := by
  have h : ((unify .default thingsMobile thingsDesktop).classes.get?
      "MAIThing".toList).any (fun u => u.interface.properties.keys = ["value".toList] ∧
        "shared".toList ∈ u.interface.methods.keys) = true := by decide +kernel
  obtain ⟨u, hu, hmembers⟩ := (Option.any_eq_true _ _).mp h
  obtain ⟨hvalue, hshared⟩ := of_decide_eq_true hmembers
  exact ⟨u, hu, hvalue, hshared, unify_accessors_apart hu hshared⟩

end Model

end CommonHeaders
