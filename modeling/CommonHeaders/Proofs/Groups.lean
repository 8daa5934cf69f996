import CommonHeaders.Text.Group

/-! # Groups by their depth

Whether a group of one kind closes, and where, depends on its opening and closing characters alone:
they say how deep in groups of that kind a text ends. What stands between them does not matter, so a
text may be rewritten around them.

* `group?_eq_some_iff`: the group read is the text up to where the depth is back to nothing.
* `encloses_filter`: only the characters of the group count.
* `count_of_depthAfter?`: depth is the number of groups opened and not closed. -/

namespace CommonHeaders.Text

/-- The depth behind a character, if it does not close a group that is not open. -/
def deepen? (opener closer : Char) (depth : Nat) (c : Char) : Option Nat :=
  if c = opener then some (depth + 1)
  else if c = closer then if depth = 0 then none else some (depth - 1)
  else some depth

/-- **How deep a text ends** that begins at some depth in groups of one kind. It ends nowhere if it
closes a group that is not open. -/
def depthAfter? (opener closer : Char) (depth : Nat) : Text → Option Nat
  | [] => some depth
  | c :: r => (deepen? opener closer depth c).bind fun d => depthAfter? opener closer d r

/-- **A text that may stand in a group**: it closes what it opens and nothing else. -/
def Encloses (opener closer : Char) (inner : Text) : Prop :=
  depthAfter? opener closer 0 inner = some 0

instance (opener closer : Char) (inner : Text) : Decidable (Encloses opener closer inner) :=
  inferInstanceAs (Decidable (_ = _))

variable {opener closer : Char}

theorem depthAfter?_append (a b : Text) (depth : Nat) :
    depthAfter? opener closer depth (a ++ b) =
      (depthAfter? opener closer depth a).bind fun d => depthAfter? opener closer d b := by
  induction a generalizing depth with
  | nil => rfl
  | cons c r ih =>
    rw [List.cons_append, depthAfter?, depthAfter?, Option.bind_assoc]
    exact congrArg _ (funext ih)

/-- The depth depends on the characters of the groups alone. -/
theorem depthAfter?_filter {p : Char → Bool} (hopener : p opener = true) (hcloser : p closer = true)
    (t : Text) (depth : Nat) :
    depthAfter? opener closer depth (t.filter p) = depthAfter? opener closer depth t := by
  induction t generalizing depth with
  | nil => rfl
  | cons c r ih =>
    have hrest := funext ih
    cases hc : p c with
    | true => rw [List.filter_cons_of_pos hc, depthAfter?, depthAfter?, hrest]
    | false =>
      have hopen : c ≠ opener := fun he => by simp [he, hopener] at hc
      have hclose : c ≠ closer := fun he => by simp [he, hcloser] at hc
      rw [List.filter_cons_of_neg (by simp [hc]), depthAfter?, deepen?, if_neg hopen,
        if_neg hclose, Option.bind_some, ih]

theorem encloses_filter {p : Char → Bool} (hopener : p opener = true) (hcloser : p closer = true)
    {t : Text} : Encloses opener closer (t.filter p) ↔ Encloses opener closer t := by
  rw [Encloses, Encloses, depthAfter?_filter hopener hcloser]

/-- **The depth counts** what is opened and not closed. -/
theorem count_of_depthAfter? (hne : opener ≠ closer) {t : Text} {depth after : Nat}
    (h : depthAfter? opener closer depth t = some after) :
    depth + t.count opener = after + t.count closer := by
  induction t generalizing depth with
  | nil => simpa [depthAfter?] using h
  | cons c r ih =>
    obtain ⟨d, hd, hrest⟩ := Option.bind_eq_some_iff.mp h
    have hcount := ih hrest
    unfold deepen? at hd
    split at hd
    · rename_i hc
      rw [hc, List.count_cons_self, List.count_cons_of_ne hne]
      have hd := Option.some.inj hd
      omega
    · rename_i hopen
      split at hd
      · rename_i hc
        split at hd
        · cases hd
        · rw [hc, List.count_cons_self, List.count_cons_of_ne hne.symm]
          have hd := Option.some.inj hd
          omega
      · rename_i hclose
        rw [List.count_cons_of_ne hopen, List.count_cons_of_ne hclose, Option.some.inj hd]
        exact hcount

/-- The group that is read ends where the depth is first back to nothing. -/
theorem groupTail_eq_some_iff (hne : opener ≠ closer) {depth : Nat} {t inner rest : Text} :
    groupTail opener closer depth t = some (inner, rest) ↔
      t = inner ++ closer :: rest ∧ depthAfter? opener closer depth inner = some 0 := by
  induction t generalizing depth inner with
  | nil => simp [groupTail]
  | cons c r ih =>
    -- the character stands inside the group and leaves the depth `d`, or it closes the group
    have hinside (d : Nat) (hd : deepen? opener closer depth c = some d)
        (hlast : c ≠ closer ∨ depth ≠ 0) :
        ((groupTail opener closer d r).map fun p => (c :: p.1, p.2)) =
            some (inner, rest) ↔
          c :: r = inner ++ closer :: rest ∧ depthAfter? opener closer depth inner = some 0 := by
      simp only [Option.map_eq_some_iff, Prod.exists, Prod.mk.injEq]
      constructor
      · rintro ⟨a, b, h, rfl, rfl⟩
        obtain ⟨rfl, hdepth⟩ := ih.mp h
        exact ⟨rfl, by rw [depthAfter?, hd, Option.bind_some, hdepth]⟩
      · rintro ⟨h, hdepth⟩
        cases inner with
        | nil =>
          obtain ⟨rfl, -⟩ := List.cons.inj h
          exact absurd (Option.some.inj hdepth) (hlast.resolve_left fun hc => hc rfl)
        | cons c' inner =>
          obtain ⟨rfl, rfl⟩ := List.cons.inj h
          rw [depthAfter?, hd, Option.bind_some] at hdepth
          exact ⟨inner, rest, ih.mpr ⟨rfl, hdepth⟩, rfl, rfl⟩
    unfold groupTail
    split
    · rename_i hc
      exact hinside (depth + 1) (by rw [deepen?, if_pos hc]) (Or.inl (hc ▸ hne))
    · rename_i hopen
      split
      · rename_i hc
        cases depth with
        | zero =>
          have hnone : deepen? opener closer 0 c = none := by
            rw [deepen?, if_neg hopen, if_pos hc, if_pos rfl]
          simp only [Option.some.injEq, Prod.mk.injEq]
          constructor
          · rintro ⟨rfl, rfl⟩
            exact ⟨by rw [hc]; rfl, rfl⟩
          · rintro ⟨h, hdepth⟩
            cases inner with
            | nil => exact ⟨rfl, (List.cons.inj h).2⟩
            | cons c' inner =>
              obtain ⟨rfl, -⟩ := List.cons.inj h
              rw [depthAfter?, hnone] at hdepth
              cases hdepth
        | succ depth =>
          exact hinside depth (by rw [deepen?, if_neg hopen, if_pos hc]; rfl) (Or.inr (by simp))
      · rename_i hclose
        exact hinside depth (by rw [deepen?, if_neg hopen, if_neg hclose]) (Or.inl hclose)

/-- **The group that a text starts with** is what its first opening character encloses. -/
theorem group?_eq_some_iff (hne : opener ≠ closer) {t inner rest : Text} :
    group? opener closer t = some (inner, rest) ↔
      t = opener :: inner ++ closer :: rest ∧ Encloses opener closer inner := by
  cases t with
  | nil => simp [group?]
  | cons c r =>
    rw [group?, List.cons_append, List.cons.injEq]
    split
    · rename_i hc
      rw [groupTail_eq_some_iff hne, Encloses]
      simp only [hc, true_and]
    · rename_i hc
      simp only [hc, false_and, reduceCtorEq]

end CommonHeaders.Text
