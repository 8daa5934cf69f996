import CommonHeaders.Text.Recogniser
import CommonHeaders.Attribute
import CommonHeaders.Enumeration

/-! # Lines

A header is read line by line, and `Line.classify` says what a line does: open a class, a category,
a protocol or an enumeration, close an interface, switch between required and optional members,
declare a method or a property, or nothing of this.

Openings are found anywhere in the line, the first place counts: a class by `@interface`, a name
and a colon, a category by `@interface`, a name and parentheses, a protocol by `@protocol` and a
name, an enumeration by one of its macros with two words as arguments. Apart from the macro, an
opening must reach to the end of the text without a line break. -/

namespace CommonHeaders

open Text

/-- **What a line does.** -/
inductive Line where
  /-- Opens a class. `adopted` is the inside of its adoption list; `deprecated` says that a
  deprecation stands before the keyword. -/
  | classOpen (name superclass : Text) (adopted : Option Text) (deprecated : Bool)
  | categoryOpen (className category : Text) (adopted : Option Text)
  | protocolOpen (name : Text) (adopted : Option Text)
  /-- Opens an enumeration. `body` is the text behind the opening brace, if it is there. -/
  | enumOpen (kind : EnumKind) (underlying name : Text) (body : Option Text)
  | method (text : Text)
  | property (text : Text)
  /-- Names classes or protocols declared elsewhere. -/
  | forward
  | interfaceEnd
  | required
  | optional
  /-- A deprecation that stands alone. -/
  | deprecation
  | other
deriving DecidableEq, Inhabited

namespace Line

/-! ### Adoption lists -/

/-- The names of the type parameters in an angled list: the last word of every item. -/
def parameterNames (generics : Text) : List Text :=
  (splitItems ',' generics).filterMap fun item => (blankWords item).getLast?

/-- **The inside of the adoption list** at the start of a text. For a class with type parameters, a
first list that names nothing else are the arguments of the superclass, and the next list counts. -/
def adoptionList? (tail generics : Text) : Option Text := do
  let (first, rest) ← group? '<' '>' (trimStart tail)
  let parameters := parameterNames generics
  if !parameters.isEmpty &&
      (splitItems ',' first).all fun item => parameters.contains (trim item) then
    (group? '<' '>' (trimStart rest)).map Prod.fst
  else some first

/-! ### Openings -/

/-- The macros that declare an enumeration. -/
def enumMacros : List Text :=
  ["NS_ENUM".toList, "NS_OPTIONS".toList, "NS_CLOSED_ENUM".toList, "NS_ERROR_ENUM".toList]

/-- What opens an enumeration: the macro, its two arguments, and the text behind them. -/
structure EnumOpening where
  macroName : Text
  underlying : Text
  name : Text
  tail : Text

/-- An enumeration macro with its arguments at the start of a text. -/
def enumCall? (macroName : Text) (t : Text) : Option EnumOpening := do
  let r ← after? macroName t
  let r ← spacedChar? '(' r
  let (underlying, r) ← word? r
  let r ← spacedChar? ',' r
  let (name, r) ← word? r
  let r ← char? ')' (trimStart r)
  some ⟨macroName, underlying, name, r⟩

/-- An enumeration macro at the start of a text, not within a word. -/
def enumOpening? (before : Option Char) (t : Text) : Option EnumOpening :=
  if before.any isWordChar then none else enumMacros.findSome? fun m => enumCall? m t

/-- What opens a class. -/
structure ClassOpening where
  name : Text
  generics : Text
  superclass : Text
  tail : Text

/-- An angled list, if the text starts with one. -/
def optionalAngled (t : Text) : Text × Text := (angled? t).getD ([], t)

/-- A class opening at the start of a text. -/
def classOpening? (t : Text) : Option ClassOpening := do
  let r ← after? "@interface".toList t
  let r ← blanks? r
  let (name, r) ← word? r
  let (generics, r) := optionalAngled (trimStart r)
  let r ← spacedChar? ':' r
  let (superclass, r) ← word? r
  let tail ← restOfLine? r
  some ⟨name, generics, superclass, tail⟩

/-- What opens a category. -/
structure CategoryOpening where
  className : Text
  category : Text
  tail : Text

/-- A category opening at the start of a text. -/
def categoryOpening? (t : Text) : Option CategoryOpening := do
  let r ← after? "@interface".toList t
  let r ← blanks? r
  let (name, r) ← word? r
  let r ← spacedChar? '(' (optionalAngled (trimStart r)).2
  let category := r.takeWhile isWordChar
  let r ← char? ')' (trimStart (r.dropWhile isWordChar))
  let tail ← restOfLine? r
  some ⟨name, category, tail⟩

/-- A protocol opening at the start of a text: the name and what follows. -/
def protocolOpening? (t : Text) : Option (Text × Text) := do
  let r ← after? "@protocol".toList t
  let r ← blanks? r
  let (name, r) ← word? r
  let tail ← restOfLine? r
  some (name, tail)

/-! ### Classification -/

/-- Does one of the identifiers in the text mark a deprecation? -/
def marksDeprecation (t : Text) : Bool :=
  (t.splitOnP fun c => !isIdentChar c).any Attribute.isDeprecation

/-- The line of an enumeration opening. A semicolon behind it makes it declare nothing. -/
def ofEnumOpening (o : EnumOpening) : Line :=
  if (trimStart o.tail).head? = some ';' then .other
  else .enumOpen (.ofMacro o.macroName) o.underlying o.name ((cutAt? '\x7b' o.tail).map Prod.snd)

/-- The line of a protocol opening. A semicolon or a comma behind the name makes it a forward
declaration. -/
def ofProtocolOpening (name tail : Text) : Line :=
  match trimStart tail with
  | ';' :: _ => .forward
  | ',' :: _ => .forward
  | tail => .protocolOpen name (adoptionList? tail [])

/-- The line of a trimmed text that starts with no keyword of its own. -/
def classifyOpening (t : Text) : Line :=
  match searchFrom enumOpening? none t with
  | some (_, o) => ofEnumOpening o
  | none =>
    match search classOpening? t with
    | some (before, o) =>
      .classOpen o.name o.superclass (adoptionList? o.tail o.generics) (marksDeprecation before)
    | none =>
      match search categoryOpening? t with
      | some (_, o) => .categoryOpen o.className o.category (adoptionList? o.tail [])
      | none =>
        match search protocolOpening? t with
        | some (_, name, tail) => ofProtocolOpening name tail
        | none =>
          if (leadingIdentifier? t).any Attribute.isDeprecation then .deprecation else .other

/-- Does the text start with the keyword? -/
def startsWith (keyword : String) (t : Text) : Bool := keyword.toList.isPrefixOf t

/-- **What a line does.** -/
def classify (line : Text) : Line :=
  let t := trim line
  if t.isEmpty || startsWith "#" t then .other
  else if startsWith "@end" t then .interfaceEnd
  else if startsWith "@required" t then .required
  else if startsWith "@optional" t then .optional
  else if startsWith "@class" t then .forward
  else if startsWith "@property" t then .property t
  else if startsWith "-" t || startsWith "+" t then .method t
  else classifyOpening t

end Line

end CommonHeaders
