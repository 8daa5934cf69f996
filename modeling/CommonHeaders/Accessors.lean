import CommonHeaders.Interface

/-! # Accessors

One platform may declare a property where the other declares its accessor methods. For a property
of one side, the methods that are its accessors are taken out of the method table of the other side
in every case. Where they are complete and their types fit, and the other side has a property of
the same name, the property takes the place of that one; otherwise the accessors are forfeited.

Properties are treated in the order of their names, and an accessor taken out for one of them is no
longer there for the next.

* `absorb_methods`: a property takes its accessors out, whatever else it does. -/

namespace CommonHeaders.Accessors

/-- The tables during a merge, and the number of properties that have been registered. -/
structure State where
  methods : Table Method
  target : Table Property
  registered : Nat := 0
deriving DecidableEq

/-- The method under a selector, and the table without it. -/
def take (methods : Table Method) (key : Text) : Option Method × Table Method :=
  (methods.get? key, methods.erase key)

/-- Do the accessors fit the property? The getter returns its type, and unless it is read-only
there is a setter whose first argument has it. -/
def fits (p : Property) (getter : Method) (setter : Option Method) : Bool :=
  getter.returnType.equivalent p.type &&
    (p.readOnly || setter.any fun s => s.arguments.head?.any fun a => a.type.equivalent p.type)

/-- **One property absorbs its accessors.** -/
def absorb (s : State) (name : Text) (p : Property) : State :=
  let (getter, methods) := take s.methods p.effectiveGetter
  let (setter, methods) :=
    match p.effectiveSetter with
    | some key => take methods key
    | none => (none, methods)
  match getter with
  | some getter =>
    if fits p getter setter && s.target.contains name then
      { methods := methods, target := s.target.insert name p, registered := s.registered + 1 }
    else { s with methods := methods }
  | none => { s with methods := methods }

/-- **The merge** of the properties of one side with the accessors of another: every property
absorbs its accessors, in the order of the names. -/
def merge (methods : Table Method) (source target : Table Property) : State :=
  source.entries.foldl (fun s e => absorb s e.1 e.2) { methods, target }

/-- A property takes its accessors out of the method table, whatever else it does. -/
theorem absorb_methods (s : State) (name : Text) (p : Property) (key : Text) :
    (absorb s name p).methods.get? key =
      if key = p.effectiveGetter ∨ p.effectiveSetter = some key then none
      else s.methods.get? key := by
  have hm : (absorb s name p).methods =
      match p.effectiveSetter with
      | some setter => (s.methods.erase p.effectiveGetter).erase setter
      | none => s.methods.erase p.effectiveGetter := by
    unfold absorb take
    cases p.effectiveSetter <;> cases s.methods.get? p.effectiveGetter <;> simp only <;>
      first | rfl | (split <;> rfl)
  rw [hm]
  cases hs : p.effectiveSetter with
  | none => simp [Table.get?_erase]
  | some setter =>
    simp only [Table.get?_erase, Option.some.injEq]
    by_cases h1 : key = setter
    · simp [h1]
    · by_cases h2 : key = p.effectiveGetter <;> simp [h1, h2, Ne.symm h1]

end CommonHeaders.Accessors
