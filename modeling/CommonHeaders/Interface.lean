import CommonHeaders.Table
import CommonHeaders.Method
import CommonHeaders.Property

/-! # Interfaces

An interface is a class or a protocol: a name, a table of methods by selector, a table of
properties by name, and the protocols it adopts, each once, in the order of first appearance. A
class has a superclass as soon as its own opening line has been seen.

* `Adoptions.mem_adopt`, `Adoptions.mem_adoptAll`: adopting adds names and loses none.
* `Adoptions.mem_map`: the names of a list whose names are replaced. -/

namespace CommonHeaders

/-! ### Adoption lists -/

/-- **An adoption list**: names without repeats, in order of first appearance. -/
structure Adoptions where
  names : List Text
  nodup : names.Nodup

namespace Adoptions

instance : DecidableEq Adoptions := fun a b =>
  if h : a.names = b.names then isTrue (by cases a; cases b; simp_all)
  else isFalse fun he => h (he ▸ rfl)

/-- The list without names. -/
def empty : Adoptions := ⟨[], List.nodup_nil⟩

instance : Inhabited Adoptions := ⟨empty⟩

/-- Is the name in the list? -/
def has (l : Adoptions) (name : Text) : Bool := l.names.contains name

/-- The list with the name at its end, unless it is there already. -/
def adopt (l : Adoptions) (name : Text) : Adoptions :=
  if h : name ∈ l.names then l
  else ⟨l.names ++ [name], by
    rw [List.nodup_append]
    refine ⟨l.nodup, by simp, fun a ha b hb => ?_⟩
    rw [List.mem_singleton.mp hb]
    exact fun he => h (he ▸ ha)⟩

/-- The list with all the names at its end, in order. -/
def adoptAll (l : Adoptions) (names : List Text) : Adoptions := names.foldl adopt l

/-- The names of a list, later repeats dropped. -/
def ofList (names : List Text) : Adoptions := empty.adoptAll names

/-- Every name replaced by its image, later repeats dropped. -/
def map (f : Text → Text) (l : Adoptions) : Adoptions := ofList (l.names.map f)

/-- The names that pass the test. -/
def filter (keep : Text → Bool) (l : Adoptions) : Adoptions :=
  ⟨l.names.filter keep, l.nodup.filter _⟩

theorem ext {l l' : Adoptions} (h : l.names = l'.names) : l = l' := by
  cases l; cases l'; simp_all

theorem has_iff {l : Adoptions} {name : Text} : l.has name = true ↔ name ∈ l.names := by
  simp [has]

theorem mem_adopt {l : Adoptions} {name x : Text} :
    x ∈ (l.adopt name).names ↔ x ∈ l.names ∨ x = name := by
  unfold adopt
  split
  · rename_i h
    exact ⟨Or.inl, fun hx => hx.elim id fun he => he ▸ h⟩
  · simp

theorem mem_adoptAll {l : Adoptions} {names : List Text} {x : Text} :
    x ∈ (l.adoptAll names).names ↔ x ∈ l.names ∨ x ∈ names := by
  induction names generalizing l with
  | nil => simp [adoptAll]
  | cons n rest ih =>
    have := ih (l := l.adopt n)
    simp only [adoptAll, List.foldl_cons] at this ⊢
    rw [this, mem_adopt, List.mem_cons, or_assoc]

theorem mem_map {l : Adoptions} {f : Text → Text} {x : Text} :
    x ∈ (l.map f).names ↔ ∃ y ∈ l.names, f y = x := by
  rw [map, ofList, mem_adoptAll, List.mem_map]
  simp [empty]

end Adoptions

/-! ### The type -/

/-- A class with its superclass, if known, or a protocol. -/
inductive InterfaceKind where
  | ofClass (superclass : Option Text)
  | ofProtocol
deriving DecidableEq, Inhabited

/-- **An interface.** -/
structure Interface where
  name : Text
  kind : InterfaceKind
  methods : Table Method
  properties : Table Property
  protocols : Adoptions
deriving DecidableEq, Inhabited

namespace Interface

/-- A class without members. -/
def newClass (name : Text) (superclass : Option Text) : Interface :=
  ⟨name, .ofClass superclass, .empty, .empty, .empty⟩

/-- A protocol without members. -/
def newProtocol (name : Text) : Interface := ⟨name, .ofProtocol, .empty, .empty, .empty⟩

/-- Is the interface a class? -/
def isClass (i : Interface) : Bool :=
  match i.kind with
  | .ofClass _ => true
  | .ofProtocol => false

/-- The superclass of a class, if known. -/
def superclass (i : Interface) : Option Text :=
  match i.kind with
  | .ofClass superclass => superclass
  | .ofProtocol => none

/-- The class with another superclass; a protocol stays as it is. -/
def setSuperclass (i : Interface) (name : Text) : Interface :=
  match i.kind with
  | .ofClass _ => { i with kind := .ofClass (some name) }
  | .ofProtocol => i

/-- The interface with one more method, in place of one of the same selector. -/
def addMethod (i : Interface) (m : Method) : Interface :=
  { i with methods := i.methods.insert m.key m }

/-- The interface with one more property, in place of one of the same name. -/
def addProperty (i : Interface) (p : Property) : Interface :=
  { i with properties := i.properties.insert p.name p }

/-- The interface with one more adopted protocol. -/
def adopt (i : Interface) (name : Text) : Interface :=
  { i with protocols := i.protocols.adopt name }

/-- The interface with more adopted protocols, in order. -/
def adoptAll (i : Interface) (names : List Text) : Interface :=
  { i with protocols := i.protocols.adoptAll names }

/-- Does the interface itself adopt the protocol? What it inherits does not count. -/
def adopts (i : Interface) (name : Text) : Bool := i.protocols.has name

end Interface

end CommonHeaders
