import CommonHeaders.Proofs.RenamedCorpora
import CommonHeaders.Proofs.WellFormedTables

/-! # A corpus unified with itself

Every desktop name of a corpus is paired with itself, also where the mobile name with the same rest
is declared beside it. The two sides of such a pair are one interface, and everything done to the
two sides then leaves what is there: a merge of accessors puts properties only in their own places,
equivalence is reflexive, flags joined with themselves stay, and an enumeration reduced to its own
members keeps them. What a class loses are the accessors of its properties, and nothing else.

The members are flattened after renaming, which gives the renamed flattened members.

* `wholeClass_of_classMembers`, `wholeProtocol_of_protocolMembers`: what an interface has in common
  with itself.
* `unify_self`: nothing but accessors is lost. -/

namespace CommonHeaders

open Naming
open Accessors (ClaimedIn)

/-! ### One side twice -/

namespace Accessors

/-- **Merging properties with themselves** changes none of them. -/
theorem merge_target_self (methods : Table Method) (properties : Table Property) :
    (merge methods properties properties).target = properties := by
  ext1 name
  cases h : properties.get? name with
  | none => exact (get?_merge_target_of_not_source h).trans h
  | some p =>
    rw [get?_merge_target_of_source h, h, Option.map_some, ite_self]

end Accessors

theorem desktopMerge_target_self (f : Flattened) : (desktopMerge f f).target = f.properties :=
  Accessors.merge_target_self _ _

theorem mobileMerge_target_self (f : Flattened) : (mobileMerge f f).target = f.properties := by
  rw [mobileMerge, desktopMerge_target_self]
  exact Accessors.merge_target_self _ _

/-- What a table of methods shares with itself is all of it, flags included. -/
theorem sharedMethod_self {methods : Table Method} {key : Text} {x : Method} :
    SharedMethod methods methods key x ↔ methods.get? key = some x := by
  constructor
  · rintro ⟨a, b, ha, hb, -, rfl⟩
    obtain rfl : a = b := Option.some.inj (ha.symm.trans hb)
    simpa only [Bool.or_self] using ha
  · intro h
    exact ⟨x, x, h, h, x.equivalent_refl, by simp only [Bool.or_self]⟩

theorem sharedProperty_self {properties : Table Property} {name : Text} {x : Property} :
    SharedProperty properties properties name x ↔ properties.get? name = some x := by
  constructor
  · rintro ⟨a, b, ha, hb, -, rfl⟩
    obtain rfl : a = b := Option.some.inj (ha.symm.trans hb)
    simpa only [Bool.or_self] using ha
  · intro h
    exact ⟨x, x, h, h, x.equivalent_refl, by simp only [Bool.or_self]⟩

theorem names_filter_self (l : List Text) : l.filter (· ∈ l) = l :=
  List.filter_eq_self.mpr fun _ h => decide_eq_true h

/-! ### Whole interfaces -/

/-- **The whole of a class**: its flattened properties, its flattened methods without the accessors
of these, and all that it adopts itself. -/
structure WholeClass (c : Corpus) (i u : Interface) : Prop where
  methods : ∀ key x, u.methods.get? key = some x ↔
    (c.flatten i).methods.get? key = some x ∧ ¬ ClaimedIn (c.flatten i).properties key
  properties : u.properties = (c.flatten i).properties
  protocols : u.protocols = i.protocols

/-- **The whole of a protocol**: its own methods and properties, and all that it adopts itself. -/
structure WholeProtocol (i u : Interface) : Prop where
  methods : u.methods = i.methods
  properties : u.properties = i.properties
  protocols : u.protocols = i.protocols

/-- What a class has in common with itself is the whole of it. -/
theorem wholeClass_of_classMembers {c : Corpus} {i u : Interface}
    (h : ClassMembers c c i i u) : WholeClass c i u where
  methods key x := by
    rw [h.methods, sharedMethod_self, desktopMerge_target_self, and_self]
  properties := by
    ext1 name
    ext x
    rw [h.properties, mobileMerge_target_self, desktopMerge_target_self, sharedProperty_self]
  protocols := Adoptions.ext (h.protocols.trans (names_filter_self _))

/-- What a protocol has in common with itself is the whole of it. -/
theorem wholeProtocol_of_protocolMembers {c : Corpus} {i u : Interface} (hi : i.isClass = false)
    (h : ProtocolMembers c c i i u) : WholeProtocol i u where
  methods := by
    ext1 key
    ext x
    rw [h.methods, sharedMethod_self, Corpus.flatten_of_protocol hi]
  properties := by
    ext1 name
    ext x
    rw [h.properties, sharedProperty_self, Corpus.flatten_of_protocol hi]
  protocols := Adoptions.ext (h.protocols.trans (names_filter_self _))

/-- Reduced to its own members, an enumeration stays as it is. -/
theorem Enumeration.retainShared_self (e : Enumeration) : e.retainShared e = e := by
  have hmembers : e.members.filter (fun m => e.hasMember m.name) = e.members :=
    List.filter_eq_self.mpr fun m hm => hasMember_iff.mpr (List.mem_map_of_mem hm)
  unfold retainShared
  rw [hmembers]

/-! ### The whole -/

section Model

variable (settings : Settings) {c : Corpus} {rest : Text} {i : Interface}

/-- A class is unified with itself to the whole of it, renamed. -/
theorem exists_wholeClass (hrest : startsUpper rest = true)
    (hi : c.classes.get? (desktopTag ++ rest) = some i) :
    ∃ u, (unify settings c c).classes.get? (unifiedTag ++ rest) = some u ∧
      WholeClass ((commonRenaming settings c c).renameCorpus c)
        ((commonRenaming settings c c).renameInterface i) u.interface := by
  have hkey := Table.mem_keys_of_get? hi
  obtain ⟨m, d, u, hm, hd, hu, hmembers⟩ :=
    classMembers_of_pair settings (get?_pairInterfaces_of_desktopTag hrest hkey hkey)
  have hrenamed : ((commonRenaming settings c c).renameCorpus c).classes.get?
      (desktopTag ++ rest) = some ((commonRenaming settings c c).renameInterface i) := by
    rw [Renaming.get?_classes_renameCorpus, hi, Option.map_some]
  obtain rfl := Option.some.inj (hm.symm.trans hrenamed)
  obtain rfl := Option.some.inj (hd.symm.trans hrenamed)
  exact ⟨u, hu, wholeClass_of_classMembers hmembers⟩

/-- A protocol is unified with itself to the whole of it, renamed. -/
theorem exists_wholeProtocol (hc : c.WellFormed) (hrest : startsUpper rest = true)
    (hi : c.protocols.get? (desktopTag ++ rest) = some i) :
    ∃ u, (unify settings c c).protocols.get? (unifiedTag ++ rest) = some u ∧
      WholeProtocol ((commonRenaming settings c c).renameInterface i) u.interface := by
  have hkey := Table.mem_keys_of_get? hi
  obtain ⟨m, d, u, hm, hd, hu, hmembers⟩ :=
    protocolMembers_of_pair settings (get?_pairInterfaces_of_desktopTag hrest hkey hkey)
  have hrenamed : ((commonRenaming settings c c).renameCorpus c).protocols.get?
      (desktopTag ++ rest) = some ((commonRenaming settings c c).renameInterface i) := by
    rw [Renaming.get?_protocols_renameCorpus, hi, Option.map_some]
  obtain rfl := Option.some.inj (hm.symm.trans hrenamed)
  obtain rfl := Option.some.inj (hd.symm.trans hrenamed)
  have hprotocol : ((commonRenaming settings c c).renameInterface i).isClass = false :=
    (hc.protocols _ i hi).isClass
  exact ⟨u, hu, wholeProtocol_of_protocolMembers hprotocol hmembers⟩

/-- An enumeration with members is in common with itself. -/
theorem get?_unifyEnums_self {enums : Table Enumeration} {name : Text} {e : Enumeration}
    (he : enums.get? name = some e) (hmembers : e.isEmpty = false) :
    (unifyEnums enums enums).unified.get? name = some e := by
  have hself := e.retainShared_self
  exact get?_unifyEnums.mpr
    ⟨e, e, he, he, hself, hmembers, by rw [hself]; exact e.equivalent_refl⟩

/-- **A corpus unified with itself loses nothing** but the accessors of properties. Every desktop
class becomes a common class with the whole of it, and so does every desktop protocol, taken from
the renamed corpus, where flattened members are the renamed flattened members. Every enumeration
with members is kept as it is. -/
theorem unify_self {scanning : Settings} (hc : Corpus.Scanned scanning c) :
    let r := commonRenaming settings c c
    let renamed := r.renameCorpus c
    let model := unify settings c c
    (∀ rest i, startsUpper rest = true → c.classes.get? (desktopTag ++ rest) = some i →
      ∃ u, model.classes.get? (unifiedTag ++ rest) = some u ∧
        WholeClass renamed (r.renameInterface i) u.interface) ∧
    (∀ rest i, startsUpper rest = true → c.protocols.get? (desktopTag ++ rest) = some i →
      ∃ u, model.protocols.get? (unifiedTag ++ rest) = some u ∧
        WholeProtocol (r.renameInterface i) u.interface) ∧
    (∀ i, renamed.flatten (r.renameInterface i) = r.renameFlattened (c.flatten i)) ∧
    ∀ name e, c.enums.get? name = some e → e.isEmpty = false →
      model.enums.get? name = some e := by
  have hwell : c.WellFormed := hc.of_stable (Scan.stable_wellFormed scanning) Corpus.wellFormed_empty
  refine ⟨fun rest i hrest hi => ?_, fun rest i hrest hi => ?_, fun i => ?_, fun name e he => ?_⟩
  · exact exists_wholeClass settings hrest hi
  · exact exists_wholeProtocol settings hwell hrest hi
  · exact Renaming.flatten_renameCorpus _ c i
  · exact get?_unifyEnums_self he

end Model

/-- A class beside the mobile one of the same rest, with the getter of an inherited property, a
protocol, and an enumeration with a repeat. -/
def selfThings : Corpus :=
  Corpus.empty.scanText .default
    ("@interface UIThing : A\n@interface NSA : B\n@property int v;\n" ++
      "@interface NSThing : NSA <NSP>\n-(int)v;\n-(id)w;\n@protocol NSP\n" ++
      "typedef NS_ENUM(int, NSE) \x7b NSX, NSX \x7d;").toList

/-- The common class is that of the desktop name, and only the getter is gone. -/
theorem unify_self_things :
    (∃ i u, selfThings.classes.get? "NSThing".toList = some i ∧
      (unify .default selfThings selfThings).classes.get? "MAIThing".toList = some u ∧
      WholeClass ((commonRenaming .default selfThings selfThings).renameCorpus selfThings)
        ((commonRenaming .default selfThings selfThings).renameInterface i) u.interface ∧
      u.interface.methods.keys = ["w".toList] ∧ u.interface.properties.keys = ["v".toList] ∧
      u.interface.protocols.names = ["MAIP".toList]) ∧
    (∃ i u, selfThings.protocols.get? "NSP".toList = some i ∧
      (unify .default selfThings selfThings).protocols.get? "MAIP".toList = some u ∧
      WholeProtocol ((commonRenaming .default selfThings selfThings).renameInterface i)
        u.interface) ∧
    ∃ e, selfThings.enums.get? "MAIE".toList = some e ∧ e.names = ["MAIX".toList, "MAIX".toList] ∧
      (unify .default selfThings selfThings).enums.get? "MAIE".toList = some e := by
  have hdeclared : (selfThings.classes.get? "NSThing".toList).isSome = true ∧
      (selfThings.protocols.get? "NSP".toList).isSome = true ∧
      (selfThings.enums.get? "MAIE".toList).any (fun e => e.isEmpty = false ∧
        e.names = ["MAIX".toList, "MAIX".toList]) = true ∧
      ∀ u, (unify .default selfThings selfThings).classes.get? "MAIThing".toList = some u →
        u.interface.methods.keys = ["w".toList] ∧ u.interface.properties.keys = ["v".toList] ∧
        u.interface.protocols.names = ["MAIP".toList] := by decide +kernel
  obtain ⟨hthing, hsource, hmode, hmembers⟩ := hdeclared
  obtain ⟨i, hi⟩ := Option.isSome_iff_exists.mp hthing
  obtain ⟨j, hj⟩ := Option.isSome_iff_exists.mp hsource
  obtain ⟨e, he, hnames⟩ := (Option.any_eq_true _ _).mp hmode
  obtain ⟨hempty, hnames⟩ := of_decide_eq_true hnames
  obtain ⟨hclasses, hprotocols, -, henums⟩ :=
    unify_self (c := selfThings) .default (.scanText _ .empty)
  obtain ⟨u, hu, hwhole⟩ := hclasses "Thing".toList i (by decide) hi
  obtain ⟨v, hv, hwhole'⟩ := hprotocols "P".toList j (by decide) hj
  exact ⟨⟨i, u, hi, hu, hwhole, hmembers u hu⟩, ⟨j, v, hj, hv, hwhole'⟩,
    ⟨e, he, hnames, henums _ e he hempty⟩⟩

end CommonHeaders
