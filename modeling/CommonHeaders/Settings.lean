import CommonHeaders.Table

/-! # Settings

The settings hold two tables of substitutions and one marker. Geometry types are replaced by their
neutral counterparts, some common enumeration names by others, and categories whose name contains
the marker, capitals or not, are left out.

A substitution whose target is substituted itself would give another result when it is made twice;
`chained?` finds the first such one, and settings that have one are refused when they are read.

* `chained?_eq_none_iff`: no chain is found exactly when no target is a source. -/

namespace CommonHeaders

open Text

/-- **The settings.** -/
structure Settings where
  /-- Base types and what they are replaced by. -/
  geometry : Table Text
  /-- Common enumeration names and what they are replaced by. -/
  enumRenames : Table Text
  /-- The marker of protected categories. -/
  protectedMarker : Text

namespace Settings

/-- The table of some pairs of names. -/
def tableOf (pairs : List (String × String)) : Table Text :=
  .ofList (pairs.map fun (source, target) => (source.toList, target.toList))

/-- **The settings that hold unless others are given.** -/
def default : Settings where
  geometry := tableOf [("NSRect", "CGRect"), ("NSPoint", "CGPoint"), ("NSSize", "CGSize")]
  enumRenames := tableOf [("MAITextStorageEditedOptions", "MAITextStorageEditActions")]
  protectedMarker := "protected".toList

instance : Inhabited Settings := ⟨default⟩

/-- The name under which a common enumeration is kept. -/
def enumName (s : Settings) (unified : Text) : Text := (s.enumRenames.get? unified).getD unified

/-- Is the category protected? An empty marker protects none. -/
def isProtectedCategory (s : Settings) (category : Text) : Bool :=
  !s.protectedMarker.isEmpty &&
    hasPiece (s.protectedMarker.map Char.toLower) (category.map Char.toLower)

/-! ### Chains -/

/-- A substitution whose target is itself substituted. -/
structure Chained where
  table : String
  source : Text
  target : Text
deriving DecidableEq

/-- The first chained substitution of a table, in the order of the sources. -/
def chainedIn? (name : String) (t : Table Text) : Option Chained :=
  (t.entries.find? fun e => t.contains e.2).map fun e => ⟨name, e.1, e.2⟩

/-- **The first chained substitution**, geometry before enumeration names. -/
def chained? (s : Settings) : Option Chained :=
  (chainedIn? "geometry" s.geometry).or (chainedIn? "enum_renames" s.enumRenames)

theorem chainedIn?_eq_none_iff {name : String} {t : Table Text} :
    chainedIn? name t = none ↔
      ∀ source target, t.get? source = some target → t.get? target = none := by
  simp only [chainedIn?, Option.map_eq_none_iff, List.find?_eq_none, Table.get?_eq_some_iff]
  constructor
  · intro h source target hm
    simpa [Table.contains] using h _ hm
  · intro h e he
    simpa [Table.contains] using h e.1 e.2 he

/-- No chain is found exactly when no target of a table is among its sources. -/
theorem chained?_eq_none_iff {s : Settings} : s.chained? = none ↔
    (∀ source target, s.geometry.get? source = some target → s.geometry.get? target = none) ∧
    ∀ source target, s.enumRenames.get? source = some target →
      s.enumRenames.get? target = none := by
  rw [chained?, Option.or_eq_none_iff, chainedIn?_eq_none_iff, chainedIn?_eq_none_iff]

end Settings

end CommonHeaders
