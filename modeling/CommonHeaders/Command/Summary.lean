import CommonHeaders.Command.Style
import CommonHeaders.Unification

/-! # Summaries

The summary of a model has a line for every class, protocol and enumeration, with the names on
either platform and the number of members, and on request a line for every member and for the
protocols that can be adopted. -/

namespace CommonHeaders.Command.Summary

open Text

/-- A number in decimal digits. -/
def count (n : Nat) : Text := Nat.toDigits 10 n

/-- The members of a common interface and the protocols it can adopt, one per line. -/
def memberLines (colours : Bool) (model : UnifiedModel) (i : Interface) : List Text :=
  let adopted := model.importableProtocols i
  let indented (t : Text) := "    ".toList ++ t
  i.methods.entries.map (fun e => indented e.2.render) ++
    i.properties.entries.map (fun e => indented e.2.render) ++
    (if adopted.isEmpty then []
      else [indented (Style.yellow.paint colours ('<' :: (join ", ".toList adopted ++ ['>'])))])

/-- The lines of a common interface. -/
def interfaceLines (colours members : Bool) (model : UnifiedModel) (name : Text)
    (u : UnifiedInterface) : List Text :=
  let i := u.interface
  let superclass := (i.superclass.map fun s => " : ".toList ++ s).getD []
  let origin := u.mobileName ++ " / ".toList ++ u.desktopName
  let counts :=
    count i.methods.size ++ " methods, ".toList ++ count i.properties.size ++
      " properties, ".toList ++ count i.protocols.names.length ++ " protocols".toList
  ("  ".toList ++ Style.name.paint colours name ++ superclass ++ ' ' ::
      Style.dimmed.paint colours origin ++ ' ' :: Style.green.paint colours counts) ::
    (if members then memberLines colours model i else [])

/-- The line of a common enumeration. -/
def enumerationLine (colours : Bool) (name : Text) (e : Enumeration) : Text :=
  "  ".toList ++ Style.name.paint colours name ++ ' ' ::
    Style.dimmed.paint colours e.underlying.render ++ ' ' ::
    Style.green.paint colours (count e.members.length ++ " members".toList)

/-- The last line. -/
def totalLine (colours : Bool) (model : UnifiedModel) : Text :=
  let bold (n : Nat) := Style.bold.paint colours (count n)
  bold model.classes.size ++ " classes, ".toList ++ bold model.protocols.size ++
    " protocols, ".toList ++ bold model.enums.size ++ " enumerations".toList

/-- **The lines of a summary.** -/
def lines (colours members : Bool) (model : UnifiedModel) : List Text :=
  let heading (s : String) := Style.heading.paint colours s.toList
  let interfaces (t : Table UnifiedInterface) :=
    t.entries.flatMap fun e => interfaceLines colours members model e.1 e.2
  heading "classes" :: interfaces model.classes ++
    heading "protocols" :: interfaces model.protocols ++
    heading "enumerations" :: model.enums.entries.map (fun e => enumerationLine colours e.1 e.2) ++
    [totalLine colours model]

/-- **The text of a summary**: every line with its line break. -/
def render (colours members : Bool) (model : UnifiedModel) : Text :=
  (lines colours members model).flatMap fun line => line ++ ['\n']

end CommonHeaders.Command.Summary
