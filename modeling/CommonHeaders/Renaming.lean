import CommonHeaders.Corpus
import CommonHeaders.Settings

/-! # Renaming

Once it is known which classes, protocols and enumerations the platforms have in common, every type
reference is brought to the common names. A geometry type is replaced as a whole. Otherwise the
words of the name are looked at: the platform spelling of a common class or protocol is replaced,
wherever it stands, and never within a longer word. An enumeration is replaced only where it is the
whole name.

* `unifiedWord?_eq_some_iff`: which words are replaced, and by what. -/

namespace CommonHeaders

open Naming

/-- The common names of the classes, the protocols and the enumerations that both platforms have. -/
structure CommonNames where
  classes : List Text := []
  protocols : List Text := []
  enums : List Text := []

/-- **A renaming**: what type references are renamed by. -/
structure Renaming where
  geometry : Table Text
  names : CommonNames

namespace Renaming

/-- The renaming to some common names under some settings. -/
def ofNames (names : CommonNames) (settings : Settings) : Renaming := ⟨settings.geometry, names⟩

/-- The common name of which a word is a platform spelling, among those given. -/
def unifiedWord? (names : List Text) (word : Text) : Option Text :=
  (((Text.after? desktopTag word).or (Text.after? mobileTag word)).map (unifiedTag ++ ·)).filter
    names.contains

/-- The word, replaced if it spells a common class or protocol. -/
def renameWord (r : Renaming) (word : Text) : Text :=
  (unifiedWord? (r.names.classes ++ r.names.protocols) word).getD word

/-- The name under its common tag, if that is a common enumeration, or a common class apart from
its type arguments. -/
def retag (r : Renaming) (name : Text) : Text :=
  match platformRest? name with
  | some rest =>
    let candidate := unifiedTag ++ rest
    let base := Text.trimEnd (candidate.takeWhile (· != '<'))
    if r.names.enums.contains candidate || r.names.classes.contains base then candidate else name
  | none => name

/-- **The base name of a type, renamed.** -/
def renameBase (r : Renaming) (name : Text) : Text :=
  match r.geometry.get? name with
  | some neutral => neutral
  | none => Text.mapWords r.renameWord (r.retag name)

/-- The name of an adopted protocol, replaced if it spells a common protocol. -/
def renameProtocol (r : Renaming) (name : Text) : Text :=
  (unifiedWord? r.names.protocols name).getD name

/-- **A type reference, renamed**: only its base name changes. -/
def renameType (r : Renaming) (t : TypeRef) : TypeRef := { t with name := r.renameBase t.name }

/-- A method with its types renamed. -/
def renameMethod (r : Renaming) (m : Method) : Method :=
  { m with
    returnType := r.renameType m.returnType
    arguments := m.arguments.map fun a => { a with type := r.renameType a.type } }

/-- A property with its type renamed. -/
def renameProperty (r : Renaming) (p : Property) : Property :=
  { p with type := r.renameType p.type }

/-- An interface with its types and its adopted protocols renamed. -/
def renameInterface (r : Renaming) (i : Interface) : Interface :=
  { i with
    methods := i.methods.map r.renameMethod
    properties := i.properties.map r.renameProperty
    protocols := i.protocols.map r.renameProtocol }

/-- **A corpus, renamed.** Enumerations were given their common names when they were read. -/
def renameCorpus (r : Renaming) (c : Corpus) : Corpus :=
  { c with
    classes := c.classes.map r.renameInterface
    protocols := c.protocols.map r.renameInterface }

theorem get?_classes_renameCorpus (r : Renaming) (c : Corpus) (name : Text) :
    (r.renameCorpus c).classes.get? name = (c.classes.get? name).map r.renameInterface :=
  Table.get?_map r.renameInterface c.classes name

theorem get?_protocols_renameCorpus (r : Renaming) (c : Corpus) (name : Text) :
    (r.renameCorpus c).protocols.get? name = (c.protocols.get? name).map r.renameInterface :=
  Table.get?_map r.renameInterface c.protocols name

/-- What a renamed interface adopts is the renaming of what the interface adopts. -/
theorem mem_protocols_renameInterface {r : Renaming} {i : Interface} {name : Text} :
    name ∈ (r.renameInterface i).protocols.names ↔
      ∃ p ∈ i.protocols.names, r.renameProtocol p = name := Adoptions.mem_map

/-- **Which words are replaced**: the spellings of the names given, with either platform tag. -/
theorem unifiedWord?_eq_some_iff {names : List Text} {word unified : Text} :
    unifiedWord? names word = some unified ↔
      unified ∈ names ∧ ∃ rest, unified = unifiedTag ++ rest ∧
        (word = desktopTag ++ rest ∨ word = mobileTag ++ rest) := by
  simp only [unifiedWord?, Option.filter_eq_some_iff, Option.map_eq_some_iff, Option.or_eq_some_iff,
    after?_eq_some_iff, List.contains_iff_mem]
  constructor
  · rintro ⟨⟨rest, h, rfl⟩, hm⟩
    exact ⟨hm, rest, rfl, h.imp id And.right⟩
  · rintro ⟨hm, rest, rfl, h | h⟩
    · exact ⟨⟨rest, Or.inl h, rfl⟩, hm⟩
    · refine ⟨⟨rest, Or.inr ⟨?_, h⟩, rfl⟩, hm⟩
      rw [h]
      rfl

end Renaming

end CommonHeaders
