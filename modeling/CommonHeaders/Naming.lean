import CommonHeaders.Text.Word

/-! # Platform names

Names of the mobile headers carry the tag `UI`, names of the desktop headers the tag `NS`; what the
two have in common is given the tag `MAI`. A name carries a platform tag when the tag is followed
by an uppercase ASCII letter, so `UInt8` carries none. Names without a platform tag are their own
common name.

* `platformRest?_eq_some_iff`: what it means to carry a platform tag.
* `toUnified_of_platformRest?`, `toUnified_of_not`: the common name in both cases. -/

namespace CommonHeaders.Naming

/-! ### Tags and fixed names -/

/-- The tag of mobile names. -/
def mobileTag : Text := "UI".toList

/-- The tag of desktop names. -/
def desktopTag : Text := "NS".toList

/-- The tag of common names. -/
def unifiedTag : Text := "MAI".toList

/-- The class at which every chain of superclasses ends. -/
def rootClass : Text := "NSObject".toList

/-- The integer types that may stand for a common enumeration. -/
def smallIntegers : List Text :=
  ["NSUInteger".toList, "NSInteger".toList, "unsigned int".toList, "int".toList]

/-! ### From platform names to common names -/

/-- Does the text start with an uppercase ASCII letter? -/
def startsUpper : Text → Bool
  | c :: _ => c.isUpper
  | [] => false

/-- What follows the tag of a platform name. -/
def platformRest? (name : Text) : Option Text :=
  [mobileTag, desktopTag].findSome? fun tag => (Text.after? tag name).filter startsUpper

/-- Does the name carry the tag of common names? -/
def isUnified (name : Text) : Bool := unifiedTag.isPrefixOf name

/-- **The common name** of a platform name; every other name is unchanged. -/
def toUnified (name : Text) : Text :=
  match platformRest? name with
  | some rest => unifiedTag ++ rest
  | none => name

/-- The desktop name with the same rest as a platform name. -/
def toDesktop? (name : Text) : Option Text := (platformRest? name).map (desktopTag ++ ·)

/-- The desktop and the mobile spelling of a common name. -/
def spellings? (unified : Text) : Option (Text × Text) :=
  (Text.after? unifiedTag unified).map fun rest => (desktopTag ++ rest, mobileTag ++ rest)

theorem toUnified_of_platformRest? {name rest : Text} (h : platformRest? name = some rest) :
    toUnified name = unifiedTag ++ rest := by simp [toUnified, h]

theorem toUnified_of_not {name : Text} (h : platformRest? name = none) : toUnified name = name := by
  simp [toUnified, h]

theorem after?_eq_some_iff {tag name rest : Text} :
    Text.after? tag name = some rest ↔ name = tag ++ rest := by
  unfold Text.after?
  constructor
  · intro h
    split at h
    · rename_i hp
      obtain ⟨s, rfl⟩ := List.isPrefixOf_iff_prefix.mp hp
      simp only [List.drop_left, Option.some.injEq] at h
      rw [h]
    · simp at h
  · rintro rfl
    simp

/-- **Carrying a platform tag**: the name is a tag followed by the rest, which starts with an
uppercase letter. -/
theorem platformRest?_eq_some_iff {name rest : Text} : platformRest? name = some rest ↔
    startsUpper rest = true ∧ (name = mobileTag ++ rest ∨ name = desktopTag ++ rest) := by
  have key : ∀ tag, (Text.after? tag name).filter startsUpper = some rest ↔
      name = tag ++ rest ∧ startsUpper rest = true := fun tag => by
    rw [Option.filter_eq_some_iff, after?_eq_some_iff]
  simp only [platformRest?, List.findSome?_cons, List.findSome?_nil]
  constructor
  · intro h
    split at h
    · rename_i r hr
      have := (key mobileTag).mp (hr.trans h)
      exact ⟨this.2, Or.inl this.1⟩
    · split at h
      · rename_i r hr
        have := (key desktopTag).mp (hr.trans h)
        exact ⟨this.2, Or.inr this.1⟩
      · simp at h
  · rintro ⟨hu, h | h⟩
    · rw [(key mobileTag).mpr ⟨h, hu⟩]
    · have hm : (Text.after? mobileTag name).filter startsUpper = none := by
        rw [h]
        rfl
      rw [hm, (key desktopTag).mpr ⟨h, hu⟩]

theorem isUnified_iff {name : Text} :
    isUnified name = true ↔ ∃ rest, name = unifiedTag ++ rest := by
  rw [isUnified, List.isPrefixOf_iff_prefix]
  exact exists_congr fun _ => eq_comm

theorem ne_rootClass_of_isUnified {p : Text} (h : isUnified p = true) : p ≠ rootClass := by
  rintro rfl
  exact absurd h (by decide)

/-! ### Names inside value expressions -/

/-- A constant in capitals, which is no platform name even when it looks like one. -/
def isConstantName (word : Text) : Bool := word.all fun c => c.isUpper || c.isDigit || c == '_'

/-- **The common spelling of a value expression**: every platform name in it replaced by its common
name, constants in capitals left alone. -/
def unifyWords (expression : Text) : Text :=
  Text.mapWords (fun word => if isConstantName word then word else toUnified word) expression

end CommonHeaders.Naming
