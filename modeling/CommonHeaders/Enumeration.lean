import CommonHeaders.TypeRef

/-! # Enumerations

An enumeration has an underlying type, a common name and a list of members in order, each with an
optional value expression. Two enumerations are equivalent when their underlying types are, and
their names and member names agree in order; the values and the macro that opened them do not
count.

* `hasMember_iff`: membership through the list of names.
* `names_retainShared`: what is left of the names.
* `equivalent_refl`, `equivalent_comm`: equivalence is reflexive and symmetric. -/

namespace CommonHeaders

/-- How an enumeration is declared. -/
inductive EnumKind where
  | plain
  | options
deriving DecidableEq, Inhabited

/-- The kind that a declaring macro stands for; only one of them declares options. -/
def EnumKind.ofMacro (name : Text) : EnumKind :=
  if name = "NS_OPTIONS".toList then .options else .plain

/-- The macro that an enumeration is printed with. -/
def EnumKind.macroName : EnumKind → Text
  | plain => "NS_ENUM".toList
  | options => "NS_OPTIONS".toList

/-- A member and its value expression, if it has one. -/
structure Member where
  name : Text
  value : Option Text
deriving DecidableEq, Inhabited

/-- **An enumeration.** -/
structure Enumeration where
  kind : EnumKind
  underlying : TypeRef
  name : Text
  members : List Member
deriving DecidableEq, Inhabited

namespace Enumeration

/-- The member names in order. -/
def names (e : Enumeration) : List Text := e.members.map Member.name

/-- Is there a member of that name? -/
def hasMember (e : Enumeration) (name : Text) : Bool := e.members.any fun m => m.name == name

/-- The enumeration with one more member at its end. -/
def push (e : Enumeration) (name : Text) (value : Option Text) : Enumeration :=
  { e with members := e.members ++ [⟨name, value⟩] }

/-- The enumeration without the members of that name. -/
def remove (e : Enumeration) (name : Text) : Enumeration :=
  { e with members := e.members.filter fun m => m.name != name }

/-- The enumeration with only the members that `other` names too. -/
def retainShared (e other : Enumeration) : Enumeration :=
  { e with members := e.members.filter fun m => other.hasMember m.name }

/-- Does the enumeration have no members? -/
def isEmpty (e : Enumeration) : Bool := e.members.isEmpty

/-- **Equivalence**: underlying type, name and member names in order. -/
def equivalent (a b : Enumeration) : Bool :=
  a.underlying.equivalent b.underlying && a.name == b.name && a.names == b.names

theorem hasMember_iff {e : Enumeration} {name : Text} :
    e.hasMember name = true ↔ name ∈ e.names := by
  simp [hasMember, names]

theorem names_retainShared (e other : Enumeration) :
    (e.retainShared other).names = e.names.filter (other.names.contains ·) := by
  simp only [names, retainShared, List.filter_map]
  congr 1
  apply List.filter_congr
  intro m _
  rw [Bool.eq_iff_iff, hasMember_iff]
  simp [names]

theorem equivalent_refl (a : Enumeration) : equivalent a a = true := by
  simp [equivalent, TypeRef.equivalent_refl]

theorem equivalent_comm (a b : Enumeration) : equivalent a b = equivalent b a := by
  unfold equivalent
  rw [a.underlying.equivalent_comm, Bool.beq_comm (a := a.name), Bool.beq_comm (a := a.names)]

/-! ### Printing -/

/-- The line of a member. -/
def renderMember (m : Member) : Text :=
  "    ".toList ++ m.name ++
    match m.value with
    | some value => " = ".toList ++ value
    | none => []

/-- The declaration of an enumeration. -/
def render (e : Enumeration) : Text :=
  "typedef ".toList ++ e.kind.macroName ++ '(' :: e.underlying.render ++ ", ".toList ++ e.name ++
    ") \x7b\n".toList ++ Text.join ",\n".toList (e.members.map renderMember) ++ "\n\x7d;".toList

end Enumeration

end CommonHeaders
