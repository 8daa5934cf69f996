import CommonHeaders.Proofs.Groups
import CommonHeaders.Proofs.Words

/-! # Nested brackets

A text is read with a stack of the closing brackets that are still to come. What such a text says
about the depth in any brackets, and about groups in parentheses, follows from how long the stack is
and what stands in it.

* `nest?_below`: inside of other brackets nothing changes, and every character may stand there.
* `splitAtDepth_append`: a text without separators outside its brackets is not split.
* `encloses_of_nests`: a text with nested brackets may stand in parentheses. -/

namespace CommonHeaders.Text

/-- Is it a bracket? Braces are none. -/
def isBracket (c : Char) : Bool := c == '(' || c == ')' || c == '[' || c == ']'

theorem mem_brackets (c : Char) (h : isBracket c = true) : c ∈ ['(', ')', '[', ']'] := by
  simpa [isBracket, or_assoc] using h

/-- The closing brackets still to come behind a character. There are none if it closes a bracket
that is not the last one opened, or if it may not stand outside all brackets and does. -/
def nestStep? (outside : Char → Bool) (waiting : Text) (c : Char) : Option Text :=
  if c = '(' then some (')' :: waiting)
  else if c = '[' then some (']' :: waiting)
  else if c = ')' ∨ c = ']' then if waiting.head? = some c then some waiting.tail else none
  else if waiting = [] ∧ outside c = false then none
  else some waiting

/-- **The closing brackets still to come** behind a text. -/
def nest? (outside : Char → Bool) (waiting : Text) : Text → Option Text
  | [] => some waiting
  | c :: r => (nestStep? outside waiting c).bind fun waiting => nest? outside waiting r

/-- **Nested brackets**: every one is closed, the last one opened first, and outside of them stand
only characters that may. -/
def Nests (outside : Char → Bool) (t : Text) : Prop := nest? outside [] t = some []

instance (outside : Char → Bool) (t : Text) : Decidable (Nests outside t) :=
  inferInstanceAs (Decidable (_ = _))

variable {outside : Char → Bool}

/-- What one character does to the stack: it puts a bracket on it, takes one off, or leaves it. -/
theorem nestStep?_cases {waiting after : Text} {c : Char}
    (h : nestStep? outside waiting c = some after) :
    c = '(' ∧ after = ')' :: waiting ∨ c = '[' ∧ after = ']' :: waiting ∨
      (c = ')' ∨ c = ']') ∧ waiting = c :: after ∨
      isBracket c = false ∧ (waiting ≠ [] ∨ outside c = true) ∧ after = waiting := by
  unfold nestStep? at h
  split at h
  · exact Or.inl ⟨‹_›, (Option.some.inj h).symm⟩
  split at h
  · exact Or.inr (Or.inl ⟨‹_›, (Option.some.inj h).symm⟩)
  split at h
  · rename_i hcloser
    split at h
    · rename_i hhead
      obtain ⟨rest, rfl⟩ := List.head?_eq_some_iff.mp hhead
      exact Or.inr (Or.inr (Or.inl ⟨hcloser, by rw [← Option.some.inj h]; rfl⟩))
    · cases h
  · rename_i hparen hbracket hcloser
    split at h
    · cases h
    · rename_i hout
      refine Or.inr (Or.inr (Or.inr ⟨?_, ?_, (Option.some.inj h).symm⟩))
      · simp only [not_or] at hcloser
        simp [isBracket, hparen, hbracket, hcloser.1, hcloser.2]
      · by_cases hnil : waiting = []
        · exact Or.inr (by simpa [hnil] using hout)
        · exact Or.inl hnil

theorem nestStep?_of_not_isBracket {waiting : Text} {c : Char} (hc : isBracket c = false)
    (hout : waiting ≠ [] ∨ outside c = true) : nestStep? outside waiting c = some waiting := by
  simp only [isBracket, Bool.or_eq_false_iff, beq_eq_false_iff_ne] at hc
  rw [nestStep?, if_neg hc.1.1.1, if_neg hc.1.2, if_neg (not_or.mpr ⟨hc.1.1.2, hc.2⟩), if_neg]
  rintro ⟨hnil, hno⟩
  rcases hout with hne | hyes
  · exact hne hnil
  · rw [hno] at hyes
    cases hyes

theorem nest?_append (a b waiting : Text) :
    nest? outside waiting (a ++ b) =
      (nest? outside waiting a).bind fun waiting => nest? outside waiting b := by
  induction a generalizing waiting with
  | nil => rfl
  | cons c r ih =>
    rw [List.cons_append, nest?, nest?, Option.bind_assoc]
    exact congrArg _ (funext ih)

theorem Nests.append {a b : Text} (ha : Nests outside a) (hb : Nests outside b) :
    Nests outside (a ++ b) := by rw [Nests, nest?_append, ha, Option.bind_some, hb]

/-- A text without brackets opens and closes none. -/
theorem nest?_of_not_isBracket {t waiting : Text} (h : ∀ c ∈ t, isBracket c = false)
    (hout : waiting ≠ [] ∨ ∀ c ∈ t, outside c = true) : nest? outside waiting t = some waiting := by
  induction t with
  | nil => rfl
  | cons c r ih =>
    have hstep : nestStep? outside waiting c = some waiting :=
      nestStep?_of_not_isBracket (h c List.mem_cons_self)
        (hout.imp_right fun hall => hall c List.mem_cons_self)
    rw [nest?, hstep, Option.bind_some]
    exact ih (fun d hd => h d (List.mem_cons_of_mem c hd))
      (hout.imp_right fun hall d hd => hall d (List.mem_cons_of_mem c hd))

/-- Characters of a kind without brackets and without the separator are nested. -/
theorem nests_of_kind {p : Char → Bool} {sep : Char}
    (hbrackets : ['(', ')', '[', ']'].any p = false) (hsep : p sep = false) {t : Text}
    (h : ∀ c ∈ t, p c = true) : Nests (· != sep) t :=
  nest?_of_not_isBracket (fun c hc => eq_false_of_kind mem_brackets hbrackets (h c hc))
    (Or.inr fun c hc => bne_iff_ne.mpr (ne_of_kind (h c hc) hsep))

/-- **Inside of other brackets** a text opens and closes the same ones, and every character may
stand there. -/
theorem nest?_below {outside' : Char → Bool} {t waiting after below : Text} (hbelow : below ≠ [])
    (h : nest? outside waiting t = some after) :
    nest? outside' (waiting ++ below) t = some (after ++ below) := by
  induction t generalizing waiting with
  | nil => rw [nest?, ← Option.some.inj h]
  | cons c r ih =>
    obtain ⟨next, hstep, hrest⟩ := Option.bind_eq_some_iff.mp h
    have hstep' : nestStep? outside' (waiting ++ below) c = some (next ++ below) := by
      rcases nestStep?_cases hstep with ⟨rfl, rfl⟩ | ⟨rfl, rfl⟩ | ⟨hc, rfl⟩ | ⟨hc, -, rfl⟩
      · rfl
      · rfl
      · rcases hc with rfl | rfl <;> rfl
      · exact nestStep?_of_not_isBracket hc
          (Or.inl (List.append_ne_nil_of_right_ne_nil _ hbelow))
    rw [nest?, hstep', Option.bind_some, ih hrest]

/-- A group in parentheses around nested brackets. -/
theorem nests_group {outside' : Char → Bool} {inner : Text} (h : Nests outside inner) :
    Nests outside' ('(' :: inner ++ [')']) := by
  have hinner : nest? outside' ([] ++ [')']) inner = some ([] ++ [')']) :=
    nest?_below (List.cons_ne_nil _ _) h
  have hopen : nestStep? outside' [] '(' = some ([] ++ [')']) := rfl
  rw [Nests, List.cons_append, nest?, hopen, Option.bind_some, nest?_append, hinner]
  rfl

/-! ### Depth -/

/-- **Separators that may not stand outside** are not there: the text is not split. -/
theorem splitAtDepth_append {sep : Char} {t waiting after : Text} (hsep : outside sep = false)
    (hbraces : ∀ c ∈ t, c ≠ '\x7b' ∧ c ≠ '\x7d') (h : nest? outside waiting t = some after)
    (rest : Text) :
    splitAtDepth sep waiting.length (t ++ rest) =
      (splitAtDepth sep after.length rest).modifyHead (t ++ ·) := by
  induction t generalizing waiting with
  | nil =>
    rw [← Option.some.inj h, List.nil_append]
    cases splitAtDepth sep waiting.length rest <;> rfl
  | cons c r ih =>
    obtain ⟨next, hstep, hrest⟩ := Option.bind_eq_some_iff.mp h
    have hih := ih (fun d hd => hbraces d (List.mem_cons_of_mem c hd)) hrest
    obtain ⟨hopen, hclose⟩ := hbraces c List.mem_cons_self
    have hkeep : splitAtDepth sep waiting.length (c :: (r ++ rest)) =
        (splitAtDepth sep next.length (r ++ rest)).modifyHead (c :: ·) := by
      rcases nestStep?_cases hstep with ⟨rfl, rfl⟩ | ⟨rfl, rfl⟩ | ⟨hc, rfl⟩ | ⟨hc, hout, rfl⟩
      · rfl
      · rfl
      · rcases hc with rfl | rfl <;> rfl
      · simp only [isBracket, Bool.or_eq_false_iff, beq_eq_false_iff_ne] at hc
        have hopener : isOpener c = false := by simp [isOpener, hc, hopen]
        have hcloser : isCloser c = false := by simp [isCloser, hc, hclose]
        have hno : ¬ (c = sep ∧ next.length = 0) := by
          rintro ⟨rfl, hlen⟩
          rcases hout with hne | hyes
          · exact hne (List.eq_nil_iff_length_eq_zero.mpr hlen)
          · rw [hsep] at hyes
            cases hyes
        rw [splitAtDepth_cons, hopener, hcloser, if_neg Bool.false_ne_true, if_neg Bool.false_ne_true,
          if_neg hno]
    rw [List.cons_append, hkeep, hih, List.modifyHead_modifyHead]
    rfl

/-- A text that is not split is the first part in front of a separator, -/
theorem splitItems_append_cons {sep : Char} (hsep : outside sep = false)
    (hopener : isOpener sep = false) (hcloser : isCloser sep = false) {t : Text}
    (hbraces : ∀ c ∈ t, c ≠ '\x7b' ∧ c ≠ '\x7d') (h : Nests outside t) (rest : Text) :
    splitItems sep (t ++ sep :: rest) = t :: splitItems sep rest := by
  have hcut : splitAtDepth sep 0 (sep :: rest) = [] :: splitAtDepth sep 0 rest := by
    rw [splitAtDepth_cons, hopener, hcloser, if_neg Bool.false_ne_true, if_neg Bool.false_ne_true,
      if_pos ⟨rfl, rfl⟩]
  have hparts := splitAtDepth_append hsep hbraces h (sep :: rest)
  rw [splitItems]
  rw [List.length_nil, hcut] at hparts
  rw [hparts, splitItems, List.modifyHead_cons, List.append_nil]

/-- and the only one if nothing follows. -/
theorem splitItems_of_nests {sep : Char} (hsep : outside sep = false) {t : Text}
    (hbraces : ∀ c ∈ t, c ≠ '\x7b' ∧ c ≠ '\x7d') (h : Nests outside t) :
    splitItems sep t = [t] := by
  have hparts := splitAtDepth_append hsep hbraces h []
  rw [List.append_nil] at hparts
  rw [splitItems]
  exact hparts.trans (by rw [splitAtDepth_nil, List.modifyHead_cons, List.append_nil])

/-- **Nested brackets** are nested parentheses. -/
theorem depthAfter?_of_nest? {t waiting after : Text} (h : nest? outside waiting t = some after) :
    depthAfter? '(' ')' (waiting.count ')') t = some (after.count ')') := by
  induction t generalizing waiting with
  | nil => rw [← Option.some.inj h, depthAfter?]
  | cons c r ih =>
    obtain ⟨next, hstep, hrest⟩ := Option.bind_eq_some_iff.mp h
    have hdeepen : deepen? '(' ')' (waiting.count ')') c = some (next.count ')') := by
      rcases nestStep?_cases hstep with ⟨rfl, rfl⟩ | ⟨rfl, rfl⟩ | ⟨hc, rfl⟩ | ⟨hc, -, rfl⟩
      · rw [List.count_cons_self]
        rfl
      · rw [List.count_cons_of_ne (by decide)]
        rfl
      · rcases hc with rfl | rfl
        · rw [List.count_cons_self]
          rfl
        · rw [List.count_cons_of_ne (by decide)]
          rfl
      · simp only [isBracket, Bool.or_eq_false_iff, beq_eq_false_iff_ne] at hc
        rw [deepen?, if_neg hc.1.1.1, if_neg hc.1.1.2]
    rw [depthAfter?, hdeepen, Option.bind_some, ih hrest]

theorem encloses_of_nests {t : Text} (h : Nests outside t) : Encloses '(' ')' t :=
  depthAfter?_of_nest? h

/-- As many parentheses are closed as are opened. -/
theorem count_of_nests {t : Text} (h : Nests outside t) : t.count '(' = t.count ')' := by
  have hcount := count_of_depthAfter? (by decide) (encloses_of_nests h)
  omega

end CommonHeaders.Text
