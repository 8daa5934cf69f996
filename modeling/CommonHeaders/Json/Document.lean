import CommonHeaders.Json.Value
import CommonHeaders.Unification

/-! # Documents

The document of a value is the json value that stands for it in files: a record per structure, with
the fields in a fixed order, and a record from names to documents per table. An absent text is
null. -/

namespace CommonHeaders

open Json

namespace Json.Value

/-- A field of a record. -/
def field (name : String) (v : Value) : Text × Value := (name.toList, v)

/-- A text, or null. -/
def ofOption (t : Option Text) : Value := t.elim .null .text

/-- A fixed word. -/
def word (s : String) : Value := .text s.toList

/-- A list of texts. -/
def texts (ts : List Text) : Value := .list (ts.map .text)

end Json.Value

open Json.Value (field)

/-- The record of a table. -/
def Table.document {α : Type} (document : α → Value) (t : Table α) : Value :=
  .record (t.entries.map fun e => (e.1, document e.2))

/-- The name of a qualifier in a document: its words, in small letters and joined by underlines. -/
def Qualifier.documentName : Qualifier → String
  | .nullable => "nullable"
  | .nonnull => "nonnull"
  | .nullUnspecified => "null_unspecified"
  | .weak => "weak"
  | .strong => "strong"
  | .unsafeUnretained => "unsafe_unretained"
  | .autoreleasing => "autoreleasing"
  | .kindOf => "kindof"
  | .static => "static"
  | .external => "extern"
  | .outlet => "outlet"
  | .const => "const"

def TypeRef.document (t : TypeRef) : Value :=
  .record [
    field "qualifiers" (.list (t.qualifiers.map fun q => .word q.documentName)),
    field "name" (.text t.name),
    field "pointer" (.bool t.pointer)]

def MethodScope.documentName : MethodScope → String
  | .onInstance => "instance"
  | .onType => "type"

def Argument.document (a : Argument) : Value :=
  .record [field "ty" a.type.document, field "name" (.text a.name)]

def MethodFlags.document (f : MethodFlags) : Value :=
  .record [
    field "designated_initializer" (.bool f.designatedInitializer),
    field "unavailable" (.bool f.unavailable),
    field "required" (.bool f.required)]

def Method.document (m : Method) : Value :=
  .record [
    field "prefix" (.word m.scope.documentName),
    field "key" (.text m.key),
    field "return_type" m.returnType.document,
    field "arguments" (.list (m.arguments.map Argument.document)),
    field "flags" m.flags.document]

def Nullability.documentName : Nullability → String
  | .absent => "absent"
  | .nullable => "nullable"
  | .nullResettable => "null_resettable"

def Property.document (p : Property) : Value :=
  .record [
    field "ty" p.type.document,
    field "name" (.text p.name),
    field "nullability" (.word p.nullability.documentName),
    field "read_only" (.bool p.readOnly),
    field "getter" (.ofOption p.getter),
    field "setter" (.ofOption p.setter),
    field "required" (.bool p.required)]

def EnumKind.documentName : EnumKind → String
  | .plain => "enum"
  | .options => "options"

def Member.document (m : Member) : Value :=
  .record [field "name" (.text m.name), field "value" (.ofOption m.value)]

def Enumeration.document (e : Enumeration) : Value :=
  .record [
    field "kind" (.word e.kind.documentName),
    field "underlying" e.underlying.document,
    field "name" (.text e.name),
    field "members" (.list (e.members.map Member.document))]

/-- The fields of a kind: a class has its superclass beside it. -/
def InterfaceKind.documentFields : InterfaceKind → List (Text × Value)
  | .ofClass superclass => [field "kind" (.word "class"), field "superclass" (.ofOption superclass)]
  | .ofProtocol => [field "kind" (.word "protocol")]

def Interface.documentFields (i : Interface) : List (Text × Value) :=
  field "name" (.text i.name) :: i.kind.documentFields ++ [
    field "methods" (i.methods.document Method.document),
    field "properties" (i.properties.document Property.document),
    field "protocols" (.texts i.protocols.names)]

def Interface.document (i : Interface) : Value := .record i.documentFields

def UnifiedInterface.document (i : UnifiedInterface) : Value :=
  .record (i.interface.documentFields ++ [
    field "mobile_name" (.text i.mobileName),
    field "desktop_name" (.text i.desktopName)])

def Corpus.document (c : Corpus) : Value :=
  .record [
    field "classes" (c.classes.document Interface.document),
    field "protocols" (c.protocols.document Interface.document),
    field "enums" (c.enums.document Enumeration.document)]

/-- **The document of a unified model.** -/
def UnifiedModel.document (m : UnifiedModel) : Value :=
  .record [
    field "classes" (m.classes.document UnifiedInterface.document),
    field "protocols" (m.protocols.document UnifiedInterface.document),
    field "enums" (m.enums.document Enumeration.document),
    field "foundation_protocols" (.texts m.foundationProtocols)]

end CommonHeaders
