import CommonHeaders.Proofs.ClosedTypes

/-! # What common interfaces adopt

A common interface adopts what both sides of its pair adopt, once both have been renamed. Renaming
changes the name of a protocol only into that of a common protocol. So an adopted name with the
common tag names a common protocol, or is one that both sides spell that way in their headers. The
protocols that can be referred to are told by the tag, so that a name of the second kind counts as
one of them although no header may declare it.

The root class is never among them. But the protocol of its name is one like any other: where both
platforms declare it, it is paired, and adopted under its common name.

* `names_protocols_of_sides`: every pair gives a common interface, which adopts what both sides do.
* `mem_adopted_cases`: where an adopted name comes from.
* `importableProtocols_eq_declared_iff`: when the protocols that can be referred to are declared.
* `root_kept_iff`: when the root keeps its name among the adopted protocols. -/

namespace CommonHeaders

open Naming

/-! ### Classes and protocols alike -/

/-- The classes or the protocols of a corpus. -/
def Corpus.interfaces (c : Corpus) (inClass : Bool) : Table Interface :=
  if inClass then c.classes else c.protocols

/-- The classes or the protocols of a common model. -/
def UnifiedModel.interfaces (model : UnifiedModel) (inClass : Bool) : Table UnifiedInterface :=
  if inClass then model.classes else model.protocols

/-- **The sides of a common interface**, as they are declared: those of the pair of its name. -/
def DeclaredSides (mobile desktop : Corpus) (inClass : Bool) (name : Text) (m d : Interface) :
    Prop :=
  ∃ p, (pairInterfaces (mobile.interfaces inClass) (desktop.interfaces inClass)).get? name =
      some p ∧
    (mobile.interfaces inClass).get? p.mobile = some m ∧
    (desktop.interfaces inClass).get? p.desktop = some d

section Sides

variable (settings : Settings) {mobile desktop : Corpus} {inClass : Bool} {name : Text}
  {m d : Interface}

/-- **Every pair gives a common interface**, which adopts what both sides adopt after renaming. -/
theorem names_protocols_of_sides (h : DeclaredSides mobile desktop inClass name m d) :
    ∃ u, ((unify settings mobile desktop).interfaces inClass).get? name = some u ∧
      u.interface.protocols.names =
        ((commonRenaming settings mobile desktop).renameInterface m).protocols.names.filter
          (· ∈ ((commonRenaming settings mobile desktop).renameInterface d).protocols.names) := by
  obtain ⟨p, hp, hm, hd⟩ := h
  cases inClass with
  | true =>
    obtain ⟨m', d', u, hm', hd', hu, hmembers⟩ := classMembers_of_pair settings hp
    rw [mobileSide, Renaming.get?_classes_renameCorpus] at hm'
    rw [desktopSide, Renaming.get?_classes_renameCorpus] at hd'
    obtain rfl := Option.some.inj (hm'.symm.trans (congrArg _ hm))
    obtain rfl := Option.some.inj (hd'.symm.trans (congrArg _ hd))
    exact ⟨u, hu, hmembers.protocols⟩
  | false =>
    obtain ⟨m', d', u, hm', hd', hu, hmembers⟩ := protocolMembers_of_pair settings hp
    rw [mobileSide, Renaming.get?_protocols_renameCorpus] at hm'
    rw [desktopSide, Renaming.get?_protocols_renameCorpus] at hd'
    obtain rfl := Option.some.inj (hm'.symm.trans (congrArg _ hm))
    obtain rfl := Option.some.inj (hd'.symm.trans (congrArg _ hd))
    exact ⟨u, hu, hmembers.protocols⟩

variable {settings}

/-- Every common interface has its sides. -/
theorem exists_sides {u : UnifiedInterface}
    (hu : ((unify settings mobile desktop).interfaces inClass).get? name = some u) :
    ∃ m d, DeclaredSides mobile desktop inClass name m d := by
  have hpair : ∃ p, (pairInterfaces (mobile.interfaces inClass)
      (desktop.interfaces inClass)).get? name = some p := by
    cases inClass with
    | true =>
      exact Table.mem_keys_iff.mp (mem_classes_keys.mp (Table.mem_keys_of_get? hu))
    | false =>
      exact Table.mem_keys_iff.mp (mem_protocols_keys.mp (Table.mem_keys_of_get? hu))
  obtain ⟨p, hp⟩ := hpair
  obtain ⟨-, -, -, -, -, hm, hd⟩ := rest_of_pair hp
  obtain ⟨m, hm⟩ := Table.mem_keys_iff.mp hm
  obtain ⟨d, hd⟩ := Table.mem_keys_iff.mp hd
  exact ⟨m, d, p, hp, hm, hd⟩

end Sides

/-! ### Adopted names -/

section Adopted

variable {settings : Settings} {mobile desktop : Corpus} {inClass : Bool} {name p : Text}
  {m d : Interface} {u : UnifiedInterface}

theorem isUnified_of_mem_protocols_keys
    (h : name ∈ (unify settings mobile desktop).protocols.keys) : isUnified name = true := by
  obtain ⟨p, hp⟩ := Table.mem_keys_iff.mp (mem_protocols_keys.mp h)
  obtain ⟨rest, -, hname, -⟩ := rest_of_pair hp
  exact isUnified_iff.mpr ⟨rest, hname⟩

variable (h : DeclaredSides mobile desktop inClass name m d)
  (hu : ((unify settings mobile desktop).interfaces inClass).get? name = some u)
include h hu

/-- What is adopted comes from both sides. -/
theorem mem_adopted_iff : p ∈ u.interface.protocols.names ↔
    (∃ q ∈ m.protocols.names, (commonRenaming settings mobile desktop).renameProtocol q = p) ∧
      ∃ q ∈ d.protocols.names, (commonRenaming settings mobile desktop).renameProtocol q = p := by
  obtain ⟨u', hu', hnames⟩ := names_protocols_of_sides settings h
  obtain rfl := Option.some.inj (hu.symm.trans hu')
  rw [hnames, List.mem_filter, decide_eq_true_iff, Renaming.mem_protocols_renameInterface,
    Renaming.mem_protocols_renameInterface]

/-- What both sides adopt is adopted, under its common name if it has one. -/
theorem renameProtocol_mem_adopted (hm : p ∈ m.protocols.names) (hd : p ∈ d.protocols.names) :
    (commonRenaming settings mobile desktop).renameProtocol p ∈ u.interface.protocols.names :=
  (mem_adopted_iff h hu).mpr ⟨⟨p, hm, rfl⟩, ⟨p, hd, rfl⟩⟩

/-- What both sides adopt under a name with the common tag is adopted under that name. -/
theorem mem_adopted_of_isUnified (htag : isUnified p = true) (hm : p ∈ m.protocols.names)
    (hd : p ∈ d.protocols.names) : p ∈ u.interface.protocols.names := by
  have hp := renameProtocol_mem_adopted h hu hm hd
  rwa [Renaming.renameProtocol_of_isUnified _ htag] at hp

/-- **Where an adopted name comes from**: it is that of a common protocol, or both sides adopt it
under that name. -/
theorem mem_adopted_cases (hp : p ∈ u.interface.protocols.names) :
    p ∈ (unify settings mobile desktop).protocols.keys ∨
      p ∈ m.protocols.names ∧ p ∈ d.protocols.names := by
  by_cases hkey : p ∈ (unify settings mobile desktop).protocols.keys
  · exact Or.inl hkey
  -- a protocol that is renamed gets the name of a common one
  have hself : ∀ q, (commonRenaming settings mobile desktop).renameProtocol q = p → q = p := by
    intro q hq
    rcases Renaming.renameProtocol_cases _ q with hmem | ⟨heq, -⟩
    · exact absurd (mem_protocols_keys.mpr (hq ▸ hmem)) hkey
    · exact heq.symm.trans hq
  obtain ⟨⟨q, hqm, hq⟩, ⟨q', hqd, hq'⟩⟩ := (mem_adopted_iff h hu).mp hp
  exact Or.inr ⟨hself q hq ▸ hqm, hself q' hq' ▸ hqd⟩

end Adopted

/-! ### Declared protocols -/

/-- **The protocols that a model declares**: the common ones, and those that both platforms declare
under one name. -/
def UnifiedModel.Declares (model : UnifiedModel) (name : Text) : Prop :=
  name ∈ model.protocols.keys ∨ name ∈ model.foundationProtocols

theorem UnifiedModel.declares_iff {model : UnifiedModel} {name : Text} :
    (model.protocols.contains name || model.foundationProtocols.contains name) = true ↔
      model.Declares name := by
  rw [Bool.or_eq_true, Table.contains_iff, List.contains_iff_mem, Declares]

instance (model : UnifiedModel) (name : Text) : Decidable (model.Declares name) :=
  decidable_of_iff _ UnifiedModel.declares_iff

/-- The declared protocols that an interface adopts, in order and without the root. -/
def UnifiedModel.declaredAdoptions (model : UnifiedModel) (i : Interface) : List Text :=
  i.protocols.names.filter fun p => p ≠ rootClass ∧ model.Declares p

theorem UnifiedModel.mem_declaredAdoptions {model : UnifiedModel} {i : Interface} {p : Text} :
    p ∈ model.declaredAdoptions i ↔ p ∈ i.protocols.names ∧ p ≠ rootClass ∧ model.Declares p := by
  rw [declaredAdoptions, List.mem_filter, decide_eq_true_iff]

section Declared

variable {settings : Settings} {mobile desktop : Corpus} {inClass : Bool} {name : Text}
  {m d : Interface} {u : UnifiedInterface}

/-- **What can be referred to**: the declared protocols that are adopted, and what both sides adopt
under a name with the common tag. -/
theorem mem_importableProtocols_iff (h : DeclaredSides mobile desktop inClass name m d)
    (hu : ((unify settings mobile desktop).interfaces inClass).get? name = some u) {p : Text} :
    p ∈ (unify settings mobile desktop).importableProtocols u.interface ↔
      p ∈ (unify settings mobile desktop).declaredAdoptions u.interface ∨
        isUnified p = true ∧ p ∈ m.protocols.names ∧ p ∈ d.protocols.names := by
  rw [UnifiedModel.mem_importableProtocols, UnifiedModel.mem_declaredAdoptions]
  constructor
  · rintro ⟨hp, hroot, htag | hfoundation⟩
    · rcases mem_adopted_cases h hu hp with hkey | hsides
      · exact Or.inl ⟨hp, hroot, Or.inl hkey⟩
      · exact Or.inr ⟨htag, hsides⟩
    · exact Or.inl ⟨hp, hroot, Or.inr hfoundation⟩
  · rintro (⟨hp, hroot, hkey | hfoundation⟩ | ⟨htag, hm, hd⟩)
    · exact ⟨hp, hroot, Or.inl (isUnified_of_mem_protocols_keys hkey)⟩
    · exact ⟨hp, hroot, Or.inr hfoundation⟩
    · exact ⟨mem_adopted_of_isUnified h hu htag hm hd, ne_rootClass_of_isUnified htag,
        Or.inl htag⟩

/-- **What can be referred to is declared**, exactly if both sides adopt no undeclared protocol
under a name with the common tag. -/
theorem importableProtocols_eq_declared_iff
    (hu : ((unify settings mobile desktop).interfaces inClass).get? name = some u) :
    ∃ m d, DeclaredSides mobile desktop inClass name m d ∧
      ((unify settings mobile desktop).importableProtocols u.interface =
          (unify settings mobile desktop).declaredAdoptions u.interface ↔
        ∀ p ∈ m.protocols.names, p ∈ d.protocols.names → isUnified p = true →
          (unify settings mobile desktop).Declares p) ∧
      ∀ p, p ∈ (unify settings mobile desktop).importableProtocols u.interface ↔
        p ∈ (unify settings mobile desktop).declaredAdoptions u.interface ∨
          isUnified p = true ∧ p ∈ m.protocols.names ∧ p ∈ d.protocols.names := by
  obtain ⟨m, d, h⟩ := exists_sides hu
  refine ⟨m, d, h, ⟨fun hsame p hm hd htag => ?_, fun hdeclared => ?_⟩,
    fun p => mem_importableProtocols_iff h hu⟩
  · have hp := (mem_importableProtocols_iff h hu).mpr (Or.inr ⟨htag, hm, hd⟩)
    rw [hsame] at hp
    exact (UnifiedModel.mem_declaredAdoptions.mp hp).2.2
  · -- both are the adopted names that pass a test, and the tests agree on them
    refine List.filter_congr fun p hp => ?_
    have hmem : p ∈ (unify settings mobile desktop).importableProtocols u.interface ↔
        p ∈ (unify settings mobile desktop).declaredAdoptions u.interface := by
      rw [mem_importableProtocols_iff h hu, or_iff_left_iff_imp]
      rintro ⟨htag, hm, hd⟩
      exact UnifiedModel.mem_declaredAdoptions.mpr
        ⟨mem_adopted_of_isUnified h hu htag hm hd, ne_rootClass_of_isUnified htag,
          hdeclared p hm hd htag⟩
    rw [UnifiedModel.importableProtocols, UnifiedModel.declaredAdoptions, List.mem_filter,
      List.mem_filter, and_congr_right_iff] at hmem
    exact Bool.eq_iff_iff.mpr (hmem hp)

end Declared

/-- Sources whose protocols are declared on both sides, and an adopted name in neither. -/
def sourcesMobile : Corpus :=
  Corpus.empty.scanText .default
    "@interface UISource : A <UIFeed,NSObject,P,Q>\n@protocol UIFeed\n@protocol P".toList

/-- The same for the desktop. -/
def sourcesDesktop : Corpus :=
  Corpus.empty.scanText .default
    "@interface NSSource : A <NSFeed,NSObject,P,Q>\n@protocol NSFeed\n@protocol P".toList

/-- Of four protocols that both sides adopt the root and an undeclared one are left out. -/
theorem importableProtocols_eq_declared_iff_sources :
    ∃ u, ((unify .default sourcesMobile sourcesDesktop).interfaces true).get?
        "MAISource".toList = some u ∧
      (unify .default sourcesMobile sourcesDesktop).importableProtocols u.interface =
        (unify .default sourcesMobile sourcesDesktop).declaredAdoptions u.interface ∧
      (unify .default sourcesMobile sourcesDesktop).importableProtocols u.interface =
        ["MAIFeed".toList, "P".toList] := by
  have hfacts : ((unify .default sourcesMobile sourcesDesktop).interfaces true).contains
        "MAISource".toList = true ∧
      (∀ u, ((unify .default sourcesMobile sourcesDesktop).interfaces true).get?
        "MAISource".toList = some u →
        (unify .default sourcesMobile sourcesDesktop).importableProtocols u.interface =
          ["MAIFeed".toList, "P".toList]) ∧
      ∀ p, (pairInterfaces (sourcesMobile.interfaces true)
          (sourcesDesktop.interfaces true)).get? "MAISource".toList = some p →
        ∀ m, (sourcesMobile.interfaces true).get? p.mobile = some m →
          ∀ q ∈ m.protocols.names, isUnified q = false := by decide +kernel
  obtain ⟨hclass, himport, htags⟩ := hfacts
  obtain ⟨u, hu⟩ := Table.mem_keys_iff.mp (Table.contains_iff.mp hclass)
  obtain ⟨m, d, ⟨p, hp, hm, -⟩, hsame, -⟩ := importableProtocols_eq_declared_iff hu
  refine ⟨u, hu, hsame.mpr fun q hq _ htag => ?_, himport u hu⟩
  rw [htags p hp m hm q hq] at htag
  exact absurd htag (by decide)

/-- A class that adopts a protocol under a name with the common tag. -/
def helperMobile : Corpus :=
  Corpus.empty.scanText .default "@interface UIThing : A <MAIHelper>".toList

/-- The same for the desktop. -/
def helperDesktop : Corpus :=
  Corpus.empty.scanText .default "@interface NSThing : A <MAIHelper>".toList

/-- **A protocol that can be referred to and is declared nowhere.** -/
theorem importableProtocols_helper :
    Corpus.Scanned .default helperMobile ∧ Corpus.Scanned .default helperDesktop ∧
    ∃ u, (unify .default helperMobile helperDesktop).classes.get? "MAIThing".toList = some u ∧
      (unify .default helperMobile helperDesktop).importableProtocols u.interface =
        ["MAIHelper".toList] ∧
      (unify .default helperMobile helperDesktop).declaredAdoptions u.interface = [] ∧
      ¬ (unify .default helperMobile helperDesktop).Declares "MAIHelper".toList := by
  have hfacts : ((unify .default helperMobile helperDesktop).classes.get?
        "MAIThing".toList).any (fun u =>
      (unify .default helperMobile helperDesktop).importableProtocols u.interface =
        ["MAIHelper".toList] ∧
      (unify .default helperMobile helperDesktop).declaredAdoptions u.interface = [] ∧
      ¬ (unify .default helperMobile helperDesktop).Declares "MAIHelper".toList) = true := by
    decide +kernel
  obtain ⟨u, hu, hnames⟩ := (Option.any_eq_true _ _).mp hfacts
  exact ⟨.scanText _ .empty, .scanText _ .empty, u, hu, of_decide_eq_true hnames⟩

/-! ### The root -/

/-- What follows the tag of the root. -/
def rootRest : Text := "Object".toList

theorem rootClass_eq : rootClass = desktopTag ++ rootRest := rfl

/-- **A pair of protocols under the name of the root**: the desktop declares one by that name, and
the mobile side one by either spelling of it. -/
def PairedRoot (mobile desktop : Corpus) : Prop :=
  (mobileTag ++ rootRest ∈ mobile.protocols.keys ∨ rootClass ∈ mobile.protocols.keys) ∧
    rootClass ∈ desktop.protocols.keys

theorem pairedRoot_iff_contains {mobile desktop : Corpus} :
    ((mobile.protocols.contains (mobileTag ++ rootRest) || mobile.protocols.contains rootClass) &&
      desktop.protocols.contains rootClass) = true ↔ PairedRoot mobile desktop := by
  rw [Bool.and_eq_true, Bool.or_eq_true, Table.contains_iff, Table.contains_iff,
    Table.contains_iff, PairedRoot]

instance (mobile desktop : Corpus) : Decidable (PairedRoot mobile desktop) :=
  decidable_of_iff _ pairedRoot_iff_contains

section Root

variable {settings : Settings} {mobile desktop : Corpus} {inClass : Bool} {name : Text}
  {m d : Interface}

theorem pairedRoot_iff : PairedRoot mobile desktop ↔
    unifiedTag ++ rootRest ∈ (commonRenaming settings mobile desktop).names.protocols :=
  (mem_keys_pairInterfaces_iff (by decide)).symm

/-- The root is renamed only where its name makes a pair of protocols. -/
theorem renameProtocol_rootClass :
    (commonRenaming settings mobile desktop).renameProtocol rootClass =
      if PairedRoot mobile desktop then unifiedTag ++ rootRest else rootClass := by
  split
  · rename_i h
    exact Renaming.unifiedWord?_getD_of_spells (Or.inl rootClass_eq) (pairedRoot_iff.mp h)
  · rename_i h
    refine Renaming.unifiedWord?_getD_eq_self fun rest hspells hmem => h ?_
    -- the root has no other rest than its own
    rcases hspells with hrest | hrest
    · obtain rfl : rootRest = rest := List.append_cancel_left (rootClass_eq.symm.trans hrest)
      exact pairedRoot_iff.mpr hmem
    · exact absurd (List.cons.inj hrest).1 (by decide)

/-- Nothing is renamed to the root, and the root itself is renamed if its name makes a pair. -/
theorem renameProtocol_ne_rootClass (hpaired : PairedRoot mobile desktop) (q : Text) :
    (commonRenaming settings mobile desktop).renameProtocol q ≠ rootClass := by
  intro hq
  rcases Renaming.renameProtocol_cases (commonRenaming settings mobile desktop) q with
    hmem | ⟨hsame, -⟩
  · have hkey := mem_protocols_keys.mpr (hq ▸ hmem)
    exact ne_rootClass_of_isUnified (isUnified_of_mem_protocols_keys hkey) rfl
  · obtain rfl : q = rootClass := hsame.symm.trans hq
    rw [renameProtocol_rootClass, if_pos hpaired] at hq
    exact absurd hq (by decide)

variable (settings)

/-- **When the root keeps its name.** If both sides of a pair adopt the root, the common interface
adopts it under its own name exactly if no pair of protocols has that name; and exactly then no
renamed form of it can be referred to. The root itself never can. -/
theorem root_kept_iff (h : DeclaredSides mobile desktop inClass name m d)
    (hm : rootClass ∈ m.protocols.names) (hd : rootClass ∈ d.protocols.names) :
    ∃ u, ((unify settings mobile desktop).interfaces inClass).get? name = some u ∧
      (rootClass ∈ u.interface.protocols.names ↔ ¬ PairedRoot mobile desktop) ∧
      ((commonRenaming settings mobile desktop).renameProtocol rootClass ∉
          (unify settings mobile desktop).importableProtocols u.interface ↔
        ¬ PairedRoot mobile desktop) ∧
      rootClass ∉ (unify settings mobile desktop).importableProtocols u.interface := by
  obtain ⟨u, hu, -⟩ := names_protocols_of_sides settings h
  have hadopted := renameProtocol_mem_adopted h hu hm hd
  have hroot : rootClass ∉ (unify settings mobile desktop).importableProtocols u.interface :=
    fun hmem => (UnifiedModel.mem_importableProtocols.mp hmem).2.1 rfl
  refine ⟨u, hu, ?_⟩
  by_cases hpaired : PairedRoot mobile desktop
  · rw [renameProtocol_rootClass, if_pos hpaired] at hadopted ⊢
    have htag : isUnified (unifiedTag ++ rootRest) = true := isUnified_iff.mpr ⟨_, rfl⟩
    have himport : unifiedTag ++ rootRest ∈
        (unify settings mobile desktop).importableProtocols u.interface :=
      UnifiedModel.mem_importableProtocols.mpr
        ⟨hadopted, ne_rootClass_of_isUnified htag, Or.inl htag⟩
    have hgone : rootClass ∉ u.interface.protocols.names := by
      intro hmem
      obtain ⟨⟨q, -, hq⟩, -⟩ := (mem_adopted_iff h hu).mp hmem
      exact renameProtocol_ne_rootClass hpaired q hq
    exact ⟨iff_of_false hgone (not_not.mpr hpaired),
      iff_of_false (not_not.mpr himport) (not_not.mpr hpaired), hroot⟩
  · rw [renameProtocol_rootClass, if_neg hpaired] at hadopted ⊢
    exact ⟨iff_of_true hadopted hpaired, iff_of_true hroot hpaired, hroot⟩

end Root

/-- A class that adopts the root, and a category on the root class. -/
def keptMobile : Corpus :=
  Corpus.empty.scanText .default
    "@interface UIThing : A <NSObject>\n@interface NSObject (UIExtras)".toList

/-- The same for the desktop. -/
def keptDesktop : Corpus :=
  Corpus.empty.scanText .default
    "@interface NSThing : A <NSObject>\n@interface NSObject (NSExtras)".toList

/-- Categories make a pair of classes of the root, but no pair of protocols. -/
theorem root_kept_iff_categories :
    "MAIObject".toList ∈ (unify .default keptMobile keptDesktop).classes.keys ∧
    ∃ m d u, DeclaredSides keptMobile keptDesktop true "MAIThing".toList m d ∧
      rootClass ∈ m.protocols.names ∧ rootClass ∈ d.protocols.names ∧
      ((unify .default keptMobile keptDesktop).interfaces true).get? "MAIThing".toList = some u ∧
      rootClass ∈ u.interface.protocols.names ∧
      rootClass ∉ (unify .default keptMobile keptDesktop).importableProtocols u.interface := by
  have hfacts : "MAIObject".toList ∈ (unify .default keptMobile keptDesktop).classes.keys ∧
      (pairInterfaces (keptMobile.interfaces true) (keptDesktop.interfaces true)).get?
        "MAIThing".toList = some ⟨"UIThing".toList, "NSThing".toList⟩ ∧
      ((keptMobile.interfaces true).get? "UIThing".toList).any
        (fun m => rootClass ∈ m.protocols.names) = true ∧
      ((keptDesktop.interfaces true).get? "NSThing".toList).any
        (fun d => rootClass ∈ d.protocols.names) = true ∧
      ¬ PairedRoot keptMobile keptDesktop := by decide +kernel
  obtain ⟨hroot, hp, hm, hd, hpaired⟩ := hfacts
  obtain ⟨m, hm, hmroot⟩ := (Option.any_eq_true _ _).mp hm
  obtain ⟨d, hd, hdroot⟩ := (Option.any_eq_true _ _).mp hd
  have h : DeclaredSides keptMobile keptDesktop true "MAIThing".toList m d := ⟨_, hp, hm, hd⟩
  obtain ⟨u, hu, hkept, -, hnot⟩ := root_kept_iff .default h
    (of_decide_eq_true hmroot) (of_decide_eq_true hdroot)
  exact ⟨hroot, m, d, u, h, of_decide_eq_true hmroot, of_decide_eq_true hdroot, hu,
    hkept.mpr hpaired, hnot⟩

/-- A class that adopts the root, and a protocol with the name of the root. -/
def pairedMobile : Corpus :=
  Corpus.empty.scanText .default
    "@protocol NSObject\n@end\n@interface UIThing : A <NSObject>".toList

/-- The same for the desktop. -/
def pairedDesktop : Corpus :=
  Corpus.empty.scanText .default
    "@protocol NSObject\n@end\n@interface NSThing : A <NSObject>".toList

/-- **A root that does not keep its name.** -/
theorem root_renamed_paired :
    Corpus.Scanned .default pairedMobile ∧ Corpus.Scanned .default pairedDesktop ∧
    (∃ m d, DeclaredSides pairedMobile pairedDesktop true "MAIThing".toList m d ∧
      m.protocols.names = [rootClass] ∧ d.protocols.names = [rootClass]) ∧
    ∃ u, (unify .default pairedMobile pairedDesktop).classes.get? "MAIThing".toList = some u ∧
      u.interface.protocols.names = ["MAIObject".toList] ∧
      (unify .default pairedMobile pairedDesktop).importableProtocols u.interface =
        ["MAIObject".toList] := by
  have hfacts :
      (pairInterfaces (pairedMobile.interfaces true) (pairedDesktop.interfaces true)).get?
        "MAIThing".toList = some ⟨"UIThing".toList, "NSThing".toList⟩ ∧
      ((pairedMobile.interfaces true).get? "UIThing".toList).any
        (fun m => m.protocols.names = [rootClass]) = true ∧
      ((pairedDesktop.interfaces true).get? "NSThing".toList).any
        (fun d => d.protocols.names = [rootClass]) = true ∧
      ((unify .default pairedMobile pairedDesktop).classes.get? "MAIThing".toList).any (fun u =>
        u.interface.protocols.names = ["MAIObject".toList] ∧
        (unify .default pairedMobile pairedDesktop).importableProtocols u.interface =
          ["MAIObject".toList]) = true := by decide +kernel
  obtain ⟨hp, hm, hd, hu⟩ := hfacts
  obtain ⟨m, hm, hmroot⟩ := (Option.any_eq_true _ _).mp hm
  obtain ⟨d, hd, hdroot⟩ := (Option.any_eq_true _ _).mp hd
  obtain ⟨u, hu, hnames⟩ := (Option.any_eq_true _ _).mp hu
  exact ⟨.scanText _ .empty, .scanText _ .empty,
    ⟨m, d, ⟨_, hp, hm, hd⟩, of_decide_eq_true hmroot, of_decide_eq_true hdroot⟩,
    u, hu, of_decide_eq_true hnames⟩

end CommonHeaders
