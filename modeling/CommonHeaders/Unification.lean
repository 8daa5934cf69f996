import CommonHeaders.Header.Scan
import CommonHeaders.Inheritance
import CommonHeaders.Accessors
import CommonHeaders.Renaming

/-! # Unification

Two corpora are brought together in three steps.

1. Classes and protocols whose platform names have a common name are paired, and enumerations under
   one common name are reduced to the members that both sides have.
2. Both corpora are renamed to the common names found.
3. For every pair, what both sides declare equivalently is kept. For classes, accessors and
   properties are merged first, in either direction.

* `UnifiedModel.mem_importableProtocols`: the adopted protocols that can be referred to.
* `mem_foundationProtocols`: the protocols that go by one name on both platforms.
* `get?_shared`: what is kept of two tables of members. -/

namespace CommonHeaders

open Naming

/-! ### The model -/

/-- A common interface and the platform names it comes from. -/
structure UnifiedInterface where
  interface : Interface
  mobileName : Text
  desktopName : Text
deriving DecidableEq, Inhabited

/-- **The common model** of two corpora. -/
structure UnifiedModel where
  classes : Table UnifiedInterface
  protocols : Table UnifiedInterface
  enums : Table Enumeration
  /-- The protocols declared under the same name on both platforms. -/
  foundationProtocols : List Text
deriving DecidableEq, Inhabited

/-- The adopted protocols that can be referred to: common ones and those declared under one name on
both platforms, without the root. -/
def UnifiedModel.importableProtocols (model : UnifiedModel) (i : Interface) : List Text :=
  i.protocols.names.filter fun p =>
    p != rootClass && (isUnified p || model.foundationProtocols.contains p)

theorem UnifiedModel.mem_importableProtocols {model : UnifiedModel} {i : Interface} {p : Text} :
    p ∈ model.importableProtocols i ↔
      p ∈ i.protocols.names ∧ p ≠ rootClass ∧
        (isUnified p = true ∨ p ∈ model.foundationProtocols) := by
  simp [importableProtocols]

/-! ### Pairs -/

/-- The platform names of a common interface. -/
structure Pair where
  mobile : Text
  desktop : Text
deriving DecidableEq, Inhabited

/-- The pair that a mobile name makes with the desktop names. -/
def pairOf? (desktop : Table Interface) (mobile : Text) : Option Pair :=
  ((toDesktop? mobile).filter desktop.contains).map (⟨mobile, ·⟩)

/-- Adds a pair under its common name, unless there is one already. -/
def addPair (pairs : Table Pair) (p : Pair) : Table Pair :=
  if pairs.contains (toUnified p.mobile) then pairs else pairs.insert (toUnified p.mobile) p

/-- **The pairs of two tables of interfaces**, by common name. Of two mobile names with one common
name the first in the order of names is paired. -/
def pairInterfaces (mobile desktop : Table Interface) : Table Pair :=
  (mobile.keys.filterMap (pairOf? desktop)).foldl addPair .empty

/-! ### Enumerations -/

/-- Two tables of enumerations, reduced to shared members, and the enumerations in common. -/
structure UnifiedEnums where
  unified : Table Enumeration
  mobile : Table Enumeration
  desktop : Table Enumeration

/-- The enumerations of a table, those that another table has too reduced to the members there. -/
def retainShared (enums others : Table Enumeration) : Table Enumeration :=
  enums.mapEntries fun name e =>
    match others.get? name with
    | some other => e.retainShared other
    | none => e

/-- Is the enumeration in the table too, equivalent and not empty? -/
def agreesIn (others : Table Enumeration) (name : Text) (e : Enumeration) : Bool :=
  !e.isEmpty && (others.get? name).any e.equivalent

/-- **The enumerations in common**: the mobile side is reduced first, the desktop side by what is
left of it. -/
def unifyEnums (mobile desktop : Table Enumeration) : UnifiedEnums :=
  let mobile := retainShared mobile desktop
  let desktop := retainShared desktop mobile
  ⟨mobile.filter (agreesIn desktop), mobile, desktop⟩

/-! ### Members in common -/

/-- What two tables hold under the same names, where `agree` holds, put together by `combine`. -/
def shared {α : Type} (agree : α → α → Bool) (combine : α → α → α) (mobile desktop : Table α) :
    Table α :=
  mobile.filterMap fun name a =>
    (desktop.get? name).bind fun b => if agree a b then some (combine a b) else none

theorem get?_shared {α : Type} (agree : α → α → Bool) (combine : α → α → α)
    (mobile desktop : Table α) (name : Text) (c : α) :
    (shared agree combine mobile desktop).get? name = some c ↔
      ∃ a b, mobile.get? name = some a ∧ desktop.get? name = some b ∧ agree a b = true ∧
        combine a b = c := by
  simp only [shared, Table.get?_filterMap, Option.bind_eq_some_iff]
  constructor
  · rintro ⟨a, ha, b, hb, h⟩
    split at h
    · rename_i hab
      exact ⟨a, b, ha, hb, hab, by simpa using h⟩
    · simp at h
  · rintro ⟨a, b, ha, hb, hab, rfl⟩
    exact ⟨a, ha, b, hb, by simp [hab]⟩

/-- The interface with the members that two flattened sides have in common, and the protocols that
both sides adopt themselves. -/
def intersect (name : Text) (kind : InterfaceKind) (mobileMembers desktopMembers : Flattened)
    (mobile desktop : Interface) : Interface where
  name := name
  kind := kind
  methods := shared Method.equivalent Method.mergeFlags mobileMembers.methods desktopMembers.methods
  properties :=
    shared Property.equivalent Property.mergeFlags mobileMembers.properties
      desktopMembers.properties
  protocols := mobile.protocols.filter desktop.adopts

/-- Two flattened classes with accessors and properties merged: first the desktop methods with the
mobile properties, then the mobile methods with the desktop properties as they are then. -/
def mergeAccessors (mobile desktop : Flattened) : Flattened × Flattened :=
  let first := Accessors.merge desktop.methods mobile.properties desktop.properties
  let second := Accessors.merge mobile.methods first.target mobile.properties
  ({ mobile with methods := second.methods, properties := second.target },
    { desktop with methods := first.methods, properties := first.target })

/-! ### The whole -/

/-- The common class of a pair. -/
def unifyClass (mobile desktop : Corpus) (name : Text) (p : Pair) : Option UnifiedInterface := do
  let m ← mobile.classes.get? p.mobile
  let d ← desktop.classes.get? p.desktop
  let (mobileMembers, desktopMembers) := mergeAccessors (mobile.flatten m) (desktop.flatten d)
  let kind := .ofClass (some (mobile.chainRoot m))
  some ⟨intersect name kind mobileMembers desktopMembers m d, p.mobile, p.desktop⟩

/-- The common protocol of a pair. -/
def unifyProtocol (mobile desktop : Corpus) (name : Text) (p : Pair) : Option UnifiedInterface := do
  let m ← mobile.protocols.get? p.mobile
  let d ← desktop.protocols.get? p.desktop
  some ⟨intersect name .ofProtocol (mobile.flatten m) (desktop.flatten d) m d, p.mobile, p.desktop⟩

/-- The names that two corpora have in common. -/
def commonNames (mobile desktop : Corpus) : CommonNames where
  classes := (pairInterfaces mobile.classes desktop.classes).keys
  protocols := (pairInterfaces mobile.protocols desktop.protocols).keys
  enums := (unifyEnums mobile.enums desktop.enums).unified.keys

/-- The protocols that go by the same name in both corpora. -/
def foundationProtocols (mobile desktop : Corpus) : List Text :=
  mobile.protocols.keys.filter desktop.protocols.contains

/-- **The common model of two corpora.** -/
def unify (settings : Settings) (mobile desktop : Corpus) : UnifiedModel :=
  let r := Renaming.ofNames (commonNames mobile desktop) settings
  let mobile' := r.renameCorpus mobile
  let desktop' := r.renameCorpus desktop
  { classes :=
      (pairInterfaces mobile.classes desktop.classes).filterMap (unifyClass mobile' desktop')
    protocols :=
      (pairInterfaces mobile.protocols desktop.protocols).filterMap (unifyProtocol mobile' desktop')
    enums := (unifyEnums mobile.enums desktop.enums).unified
    foundationProtocols := foundationProtocols mobile desktop }

/-- **The common model of two sets of headers.** -/
def unifyFiles (settings : Settings) (mobile desktop : List SourceFile) : UnifiedModel :=
  unify settings (Corpus.ofFiles settings mobile) (Corpus.ofFiles settings desktop)

theorem mem_foundationProtocols {mobile desktop : Corpus} {name : Text} :
    name ∈ foundationProtocols mobile desktop ↔
      name ∈ mobile.protocols.keys ∧ name ∈ desktop.protocols.keys := by
  simp [foundationProtocols, Table.contains_iff]

end CommonHeaders
