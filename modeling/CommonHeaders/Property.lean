import CommonHeaders.Text.Recogniser
import CommonHeaders.Attribute
import CommonHeaders.TypeRef

/-! # Properties

A property declaration is `@property`, an optional list of attributes in parentheses, a type and a
name. The name is the last word, or for a block type the word behind the caret in `(^name)`. Of the
attributes, those on nullability, on writing and on the names of the accessors are kept.

A property stands for a getter, and for a setter unless it is read-only. Either may be named by an
attribute; otherwise the getter has the name of the property and the setter is `setName:`.

* `equivalent_refl`, `equivalent_comm`: equivalence is reflexive and symmetric. -/

namespace CommonHeaders

open Text

/-! ### The type -/

/-- What a property says about null values. -/
inductive Nullability where
  | absent
  | nullable
  | nullResettable
deriving DecidableEq, Inhabited

/-- **A property.** -/
structure Property where
  type : TypeRef
  name : Text
  nullability : Nullability := .absent
  readOnly : Bool := false
  getter : Option Text := none
  setter : Option Text := none
  required : Bool := false
deriving DecidableEq, Inhabited

namespace Property

/-! ### Reading -/

/-- A block name `(^name)` at the start of a text: the name and what follows. -/
def blockName? (t : Text) : Option (Text × Text) := do
  let r ← char? '(' t
  let r ← spacedChar? '^' r
  let (name, r) ← word? r
  let r ← char? ')' (trimStart r)
  some (name, r)

/-- The type and the name of a declaration. -/
def typeAndName? (t : Text) : Option (Text × Text) :=
  match search blockName? t with
  | some (before, name, after) => some (before ++ "(^)".toList ++ after, name)
  | none =>
    let body := trimEnd t
    let name := (body.reverse.takeWhile isWordChar).reverse
    if name.isEmpty then none else some (dropEndWhile isWordChar body, name)

/-- The property with what one attribute says about it. -/
def applyAttribute (p : Property) (written : Text) : Property :=
  let a := (blankWords written).flatten
  if a = "nullable".toList then { p with nullability := .nullable }
  else if a = "null_resettable".toList then { p with nullability := .nullResettable }
  else if a = "readonly".toList then { p with readOnly := true }
  else if a = "readwrite".toList then { p with readOnly := false }
  else
    match after? "setter=".toList a with
    | some setter => { p with setter := some setter }
    | none =>
      match after? "getter=".toList a with
      | some getter => { p with getter := some getter }
      | none => p

/-- The attribute list at the start of a text, empty if there is none. -/
def attributes? (t : Text) : Option (Text × Text) :=
  if t.head? = some '(' then group? '(' ')' t else some ([], t)

/-- **Reads a property declaration.** -/
def parse (t : Text) : Option Property := do
  let rest ← after? "@property".toList (trim t)
  let (attributes, rest) ← attributes? (trimStart rest)
  let declaration := Attribute.strip .all (rest.takeWhile (· != ';'))
  let (typeText, name) ← typeAndName? declaration
  if (trim typeText).isEmpty then none
  else
    some ((splitItems ',' attributes).foldl applyAttribute
      { type := TypeRef.parse typeText, name := name })

/-! ### Accessors -/

/-- The name of the setter when no attribute gives one: `value` is set by `setValue:`. -/
def defaultSetter : Text → Text
  | [] => "set:".toList
  | first :: rest => "set".toList ++ first.toUpper :: rest ++ [':']

/-- **The selector that reads the property.** -/
def effectiveGetter (p : Property) : Text := p.getter.getD p.name

/-- **The selector that writes the property**, if it may be written. -/
def effectiveSetter (p : Property) : Option Text :=
  if p.readOnly then none else some (p.setter.getD (defaultSetter p.name))

/-! ### Comparison -/

/-- **Equivalence**: everything that shows outside; the required flag does not count. -/
def equivalent (a b : Property) : Bool :=
  a.type.equivalent b.type && a.name == b.name && a.nullability == b.nullability &&
    a.readOnly == b.readOnly && a.effectiveGetter == b.effectiveGetter &&
    a.effectiveSetter == b.effectiveSetter

/-- The property with the flags of both. -/
def mergeFlags (a b : Property) : Property :=
  { a with required := a.required || b.required, readOnly := a.readOnly || b.readOnly }

theorem equivalent_refl (a : Property) : equivalent a a = true := by
  simp [equivalent, TypeRef.equivalent_refl]

theorem equivalent_comm (a b : Property) : equivalent a b = equivalent b a := by
  unfold equivalent
  rw [a.type.equivalent_comm, Bool.beq_comm (a := a.name), Bool.beq_comm (a := a.nullability),
    Bool.beq_comm (a := a.readOnly), Bool.beq_comm (a := a.effectiveGetter),
    Bool.beq_comm (a := a.effectiveSetter)]

/-! ### Printing -/

/-- The attributes that a property is printed with. -/
def renderedAttributes (p : Property) : List Text :=
  ["nonatomic".toList, if p.readOnly then "readonly".toList else "readwrite".toList] ++
    (match p.nullability with
      | .absent => []
      | .nullable => ["nullable".toList]
      | .nullResettable => ["null_resettable".toList]) ++
    (p.getter.map ("getter=".toList ++ ·)).toList ++
    (p.setter.map ("setter=".toList ++ ·)).toList

/-- The declaration of a property, without the closing semicolon. -/
def render (p : Property) : Text :=
  "@property(".toList ++ join ", ".toList p.renderedAttributes ++ ") ".toList ++ p.type.render ++
    ' ' :: p.name

end Property

end CommonHeaders
