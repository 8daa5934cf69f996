import CommonHeaders.Text.Identifier
import CommonHeaders.Text.Group
import CommonHeaders.TypeRef

/-! # Methods

A method declaration is a sign, `-` for a method of an object and `+` for one of the type itself, a
return type in parentheses, and either one bare word or groups `word:(type)name`. The words of the
groups, each with its colon, are the selector key. A missing type is `id`. What follows the last
group is not read, except that some macros anywhere in the text set a flag.

* `equivalent_refl`, `equivalent_comm`: equivalence is reflexive and symmetric. -/

namespace CommonHeaders

open Text

/-! ### The type -/

/-- On what a method is called. -/
inductive MethodScope where
  | onInstance
  | onType
deriving DecidableEq, Inhabited

/-- The sign that a declaration starts with. -/
def MethodScope.sign : MethodScope → Char
  | onInstance => '-'
  | onType => '+'

/-- The scope that a sign stands for. -/
def MethodScope.ofSign? (c : Char) : Option MethodScope :=
  if c = '-' then some .onInstance else if c = '+' then some .onType else none

/-- An argument: its type, and a name that plays no part in comparisons. -/
structure Argument where
  type : TypeRef
  name : Text
deriving DecidableEq, Inhabited

/-- What is known of a method beside its shape. -/
structure MethodFlags where
  designatedInitializer : Bool := false
  unavailable : Bool := false
  required : Bool := false
deriving DecidableEq, Inhabited

/-- The flags that one of two methods has. -/
def MethodFlags.merge (a b : MethodFlags) : MethodFlags :=
  ⟨a.designatedInitializer || b.designatedInitializer, a.unavailable || b.unavailable,
    a.required || b.required⟩

/-- **A method.** -/
structure Method where
  scope : MethodScope
  /-- The selector: a bare word, or words each followed by a colon. -/
  key : Text
  returnType : TypeRef
  arguments : List Argument
  flags : MethodFlags
deriving DecidableEq, Inhabited

namespace Method

/-! ### Reading -/

/-- The type in parentheses at the start of a text, `id` if there are none. -/
def optionalType? (t : Text) : Option (TypeRef × Text) :=
  if t.head? = some '(' then (group? '(' ')' t).map fun (inner, rest) => (TypeRef.parse inner, rest)
  else some (TypeRef.named "id".toList, t)

/-- An argument behind the colon of its word, and what follows its name. -/
def argument? (t : Text) : Option (Argument × Text) := do
  let (type, rest) ← optionalType? (trimStart t)
  let (name, rest) ← identifier? (trimStart rest)
  some (⟨type, name⟩, rest)

theorem length_optionalType?_le {t rest : Text} {type : TypeRef}
    (h : optionalType? t = some (type, rest)) : rest.length ≤ t.length := by
  unfold optionalType? at h
  split at h
  · simp only [Option.map_eq_some_iff, Prod.mk.injEq] at h
    obtain ⟨⟨inner, r⟩, h, -, rfl⟩ := h
    exact Nat.le_of_lt (group?_rest_lt h)
  · simp only [Option.some.injEq, Prod.mk.injEq] at h
    exact h.2 ▸ Nat.le_refl _

theorem argument?_rest_lt {t rest : Text} {a : Argument} (h : argument? t = some (a, rest)) :
    rest.length < t.length := by
  simp only [argument?, bind, Option.bind_eq_some_iff, Prod.exists, Option.some.injEq,
    Prod.mk.injEq] at h
  obtain ⟨type, r, h1, name, r', h2, -, rfl⟩ := h
  have h3 := length_optionalType?_le h1
  have h4 := identifier?_rest_lt h2
  have h5 := length_trimStart_le t
  have h6 := length_trimStart_le r
  omega

/-- The groups `word:(type)name` whose first word has just been read. -/
def groups? (word : Text) (t : Text) : Option (List (Text × Argument)) :=
  match _hc : trimStart t with
  | ':' :: r =>
    match _ha : argument? r with
    | none => none
    | some (argument, rest) =>
      match _hn : identifier? (trimStart rest) with
      | none => some [(word, argument)]
      | some (next, rest') => (groups? next rest').map ((word, argument) :: ·)
  | _ => some []
termination_by t.length
decreasing_by
  have h1 := congrArg List.length _hc
  have h2 := argument?_rest_lt _ha
  have h3 := identifier?_rest_lt _hn
  have h4 := length_trimStart_le t
  have h5 := length_trimStart_le rest
  simp only [List.length_cons] at h1
  omega

/-- The selector of a method whose first word is `first`. -/
def selector (first : Text) (groups : List (Text × Argument)) : Text :=
  if groups.isEmpty then first else groups.flatMap fun (word, _) => word ++ [':']

/-- The flags set by macros anywhere in the text. -/
def flagsOf (t : Text) : MethodFlags where
  designatedInitializer := hasPiece "NS_DESIGNATED_INITIALIZER".toList t
  unavailable := hasPiece "NS_UNAVAILABLE".toList t || hasPiece "UNAVAILABLE_ATTRIBUTE".toList t ||
    hasPiece "__attribute__((unavailable".toList t
  required := false

/-- **Reads a method declaration.** -/
def parse (t : Text) : Option Method :=
  match trim t with
  | [] => none
  | sign :: r => do
    let scope ← MethodScope.ofSign? sign
    let (returnType, r) ← optionalType? (trimStart r)
    let (first, r) ← identifier? (trimStart r)
    let groups ← groups? first r
    some ⟨scope, selector first groups, returnType, groups.map Prod.snd, flagsOf t⟩

/-! ### Questions -/

/-- Does the selector name arguments? -/
def takesArguments (m : Method) : Bool := m.key.getLast? == some ':'

/-- The words of the selector. -/
def components (m : Method) : List Text := (m.key.splitOn ':').filter fun w => !w.isEmpty

/-- Does the method return an object of the class `owner`? -/
def returnsOwner (m : Method) (owner : Text) : Bool :=
  m.returnType.name == "instancetype".toList || (m.returnType.pointer && m.returnType.name == owner)

/-- Does the method initialise an object of the class `owner`? -/
def isInitializer (m : Method) (owner : Text) : Bool :=
  m.scope == .onInstance && "init".toList.isPrefixOf m.key && m.returnsOwner owner

/-- Does the method make an object of the class `owner`? -/
def isConvenienceConstructor (m : Method) (owner : Text) : Bool :=
  m.scope == .onType && m.returnsOwner owner

/-- **Equivalence**: the same call with equivalent types; argument names do not count. -/
def equivalent (a b : Method) : Bool :=
  a.scope == b.scope && a.key == b.key && a.returnType.equivalent b.returnType &&
    a.arguments.length == b.arguments.length &&
    (a.arguments.zip b.arguments).all fun (x, y) => x.type.equivalent y.type

/-- The method with the flags of both. -/
def mergeFlags (a b : Method) : Method := { a with flags := a.flags.merge b.flags }

/-! ### Printing -/

/-- The declaration of a method, without macros and the closing semicolon. -/
def render (m : Method) : Text :=
  m.scope.sign :: '(' :: m.returnType.render ++ [')'] ++
    if m.takesArguments then
      join [' '] ((m.components.zip m.arguments).map fun (word, a) =>
        word ++ ":(".toList ++ a.type.render ++ [')'] ++ a.name)
    else m.key

/-- A selector whose words and arguments differ in number. -/
structure ArityError where
  selector : Text
  components : Nat
  arguments : Nat
deriving DecidableEq

/-- The message for a selector whose words and arguments differ in number. -/
def ArityError.message (e : ArityError) : Text :=
  "selector `".toList ++ e.selector ++ "` has ".toList ++ (toString e.components).toList ++
    " components but ".toList ++ (toString e.arguments).toList ++ " arguments".toList

/-- The call of a method behind its receiver. -/
def invocation (m : Method) : Except ArityError Text :=
  if !m.takesArguments then .ok (m.components.flatMap (' ' :: ·))
  else if m.components.length ≠ m.arguments.length then
    .error ⟨m.key, m.components.length, m.arguments.length⟩
  else .ok ((m.components.zip m.arguments).flatMap fun (word, a) =>
    ' ' :: word ++ [':'] ++ a.name)

/-! ### Equivalence is reflexive and symmetric -/

theorem all_equivalent_refl (l : List Argument) :
    ((l.zip l).all fun (x, y) => x.type.equivalent y.type) = true := by
  induction l with
  | nil => rfl
  | cons x rest ih => simp [TypeRef.equivalent_refl, ih]

theorem all_equivalent_comm (l l' : List Argument) :
    ((l.zip l').all fun (x, y) => x.type.equivalent y.type) =
      (l'.zip l).all fun (x, y) => x.type.equivalent y.type := by
  induction l generalizing l' with
  | nil => cases l' <;> rfl
  | cons x rest ih =>
    cases l' with
    | nil => rfl
    | cons y rest' =>
      simp only [List.zip_cons_cons, List.all_cons, ih rest', x.type.equivalent_comm]

theorem equivalent_refl (a : Method) : equivalent a a = true := by
  simp [equivalent, TypeRef.equivalent_refl, all_equivalent_refl]

theorem equivalent_comm (a b : Method) : equivalent a b = equivalent b a := by
  unfold equivalent
  rw [all_equivalent_comm, a.returnType.equivalent_comm, Bool.beq_comm (a := a.scope),
    Bool.beq_comm (a := a.key), Bool.beq_comm (a := a.arguments.length)]

end Method

end CommonHeaders
