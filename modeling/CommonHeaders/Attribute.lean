import CommonHeaders.Text.Identifier
import CommonHeaders.Text.Group

/-! # Attribute macros

Declarations carry macros that say where they are available or how they may be used, such as
`NS_AVAILABLE_IOS(7_0)` or `UI_APPEARANCE_SELECTOR`. They are known by their spelling alone:
capitals, digits and underscores, with at least one underscore and one capital among more than two
characters. This file recognises them and removes them, with the parenthesised arguments that
follow.

* `isMacroName_iff`: the spelling of an attribute macro. -/

namespace CommonHeaders.Attribute

open Text

/-- Is the identifier the name of an attribute macro? -/
def isMacroName (name : Text) : Bool :=
  name == "__attribute__".toList ||
    (name.length > 2 && name.contains '_' && name.any Char.isUpper &&
      name.all fun c => c.isUpper || c.isDigit || c == '_')

/-- The beginnings of the macros that mark something as deprecated. -/
def deprecationMarks : List Text :=
  ["NS_DEPRECATED".toList, "NS_CLASS_DEPRECATED".toList, "API_DEPRECATED".toList,
    "DEPRECATED_ATTRIBUTE".toList]

/-- Does the identifier mark something as deprecated? -/
def isDeprecation (name : Text) : Bool :=
  name == "__deprecated".toList || deprecationMarks.any fun mark => mark.isPrefixOf name

theorem isMacroName_iff {name : Text} : isMacroName name = true ↔
    name = "__attribute__".toList ∨ (2 < name.length ∧ '_' ∈ name ∧
      (∃ c ∈ name, c.isUpper = true) ∧
      ∀ c ∈ name, c.isUpper = true ∨ c.isDigit = true ∨ c = '_') := by
  simp [isMacroName, and_assoc, or_assoc]

/-! ### Removal -/

/-- Which attribute macros are removed: all of them, or only those written with arguments. -/
inductive Removal where
  | all
  | calls
deriving DecidableEq

/-- The text without attribute macros and their arguments, blanks as they stand. -/
def remove (which : Removal) : Text → Text
  | [] => []
  | c :: r =>
    match _hn : identifier? (c :: r) with
    | none => c :: remove which r
    | some (name, rest) =>
      if isMacroName name then
        match _hg : group? '(' ')' (trimStart rest) with
        | some (_, after) => remove which after
        | none =>
          match which with
          | .all => remove which rest
          | .calls => name ++ remove which rest
      else name ++ remove which rest
termination_by t => t.length
decreasing_by
  · simp
  · have h1 := identifier?_rest_lt _hn
    have h2 := group?_rest_lt _hg
    have h3 := length_trimStart_le rest
    omega
  all_goals exact identifier?_rest_lt _hn

/-- **The text without attribute macros**, its blanks collapsed. -/
def strip (which : Removal) (t : Text) : Text := collapse (remove which t)

end CommonHeaders.Attribute
