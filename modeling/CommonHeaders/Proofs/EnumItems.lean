import CommonHeaders.Proofs.EnumOpenings
import CommonHeaders.Proofs.RemovedMacros

/-! # Items of an enumeration

An item is a name, attribute macros with their arguments, and a value behind the first `=`. It
should declare one member, of that name and with that value. It does exactly if its name is not
itself spelled like a macro, for then it is removed with the others, and if no `=` stands in the
arguments of its macros, for there the item is cut in two before any macro is removed.

* `Macros`, `Item`: how an item is written.
* `enumMember?_of_notMem`, `enumMember?_ne_of_mem`: the member that an item declares.
* `enumMember?_iff`: it is the one meant exactly if the item is plain. -/

namespace CommonHeaders

open Text

/-! ### Cutting a text in two -/

namespace Text

theorem cutAt?_append {c : Char} {a : Text} (h : c ∉ a) (b : Text) :
    cutAt? c (a ++ c :: b) = some (a, b) := by
  induction a with
  | nil => rw [List.nil_append, cutAt?, if_pos rfl]
  | cons d r ih =>
    obtain ⟨hd, hr⟩ := not_or.mp (mt List.mem_cons.mpr h)
    rw [List.cons_append, cutAt?, if_neg (Ne.symm hd), ih hr]
    rfl

theorem cutAt?_eq_none {c : Char} {t : Text} (h : c ∉ t) : cutAt? c t = none := by
  induction t with
  | nil => rfl
  | cons d r ih =>
    obtain ⟨hd, hr⟩ := not_or.mp (mt List.mem_cons.mpr h)
    rw [cutAt?, if_neg (Ne.symm hd), ih hr]
    rfl

/-- A character stands behind a text without it. -/
theorem exists_append_of_notMem {c : Char} {x y a b : Text} (hx : c ∉ x)
    (h : x ++ y = a ++ c :: b) : ∃ a', y = a' ++ c :: b := by
  rcases List.append_eq_append_iff.mp h with ⟨a', -, ha'⟩ | ⟨a', rfl, hb⟩
  · exact ⟨a', ha'⟩
  · cases a' with
    | nil => exact ⟨[], hb.symm⟩
    | cons d a' =>
      obtain ⟨rfl, -⟩ := List.cons.inj hb
      exact absurd (List.mem_append_right _ List.mem_cons_self) hx

/-- Trimming the end of a text goes no further than to a character that is not blank. -/
theorem trimEnd_append_cons {c : Char} (hc : isBlank c = false) (t r : Text) :
    trimEnd (t ++ c :: r) = t ++ c :: trimEnd r := by
  unfold trimEnd dropEndWhile
  have hstop : (c :: t.reverse).dropWhile isBlank = c :: t.reverse :=
    List.dropWhile_cons_of_neg (by simp [hc])
  rw [List.reverse_append, List.reverse_cons, List.append_assoc, List.dropWhile_append,
    List.singleton_append, hstop]
  cases hr : r.reverse.dropWhile isBlank with
  | nil => simp
  | cons d rest => simp

theorem IsPiece.trimEnd_append {w : Text} (h : IsPiece w) (r : Text) :
    trimEnd (w ++ r) = w ++ trimEnd r := by
  obtain ⟨init, c, rfl⟩ := (List.eq_nil_or_concat w).resolve_left h.ne_nil
  have hc := h.chars c (by simp)
  rw [List.concat_eq_append, List.append_assoc, List.singleton_append, trimEnd_append_cons hc,
    List.append_cons]

end Text

/-! ### Macros -/

namespace Attribute

/-- **Attribute macros**, each with its arguments if it has any, and blanks. -/
inductive Macros : Text → Prop
  | nil : Macros []
  | blank {c : Char} {t : Text} (hc : isBlank c = true) (h : Macros t) : Macros (c :: t)
  | bare {name t : Text} (hname : IsName name) (hcaps : isMacroName name = true)
      (hends : EndsName t) (h : Macros t) : Macros (name ++ t)
  | call {name blanks inner t : Text} (hname : IsName name) (hcaps : isMacroName name = true)
      (hblanks : ∀ c ∈ blanks, isBlank c = true) (hinner : Nests (fun _ => true) inner)
      (h : Macros t) : Macros (name ++ (blanks ++ ('(' :: inner ++ ')' :: t)))

/-- Behind blanks, macros begin with a name. -/
theorem Macros.not_group {t : Text} (h : Macros t) : group? '(' ')' (trimStart t) = none := by
  have hname {name : Text} (hname : IsName name) (r : Text) :
      group? '(' ')' (trimStart (name ++ r)) = none := by
    rw [hname.trimStart_append]
    obtain ⟨c, r', rfl, hc, -⟩ := isName_iff.mp hname
    rw [List.cons_append, group?, if_neg (ne_of_kind hc (by decide))]
  induction h with
  | nil => rfl
  | @blank c t hc h ih =>
    rw [trimStart, List.dropWhile_cons_of_pos hc]
    exact ih
  | bare h => exact hname h _
  | call h => exact hname h _

/-- **Nothing but blanks is left of macros.** -/
theorem Macros.remove {t : Text} (h : Macros t) : ∀ c ∈ remove .all t, isBlank c = true := by
  induction h with
  | nil => simp [remove_nil]
  | @blank c t hc h ih =>
    intro d hd
    rw [remove_cons (isIdentStart_of_isBlank hc)] at hd
    rcases List.mem_cons.mp hd with rfl | hd
    · exact hc
    · exact ih d hd
  | bare hname hcaps hends h ih =>
    rwa [remove_append hname hends, if_pos hcaps, h.not_group, if_pos rfl, List.nil_append]
  | @call name blanks inner t hname hcaps hblanks hinner h ih =>
    have hends : EndsName (blanks ++ ('(' :: inner ++ ')' :: t)) :=
      endsName_append hblanks (endsName_cons (by decide))
    have htrim : trimStart (blanks ++ ('(' :: inner ++ ')' :: t)) = '(' :: inner ++ ')' :: t := by
      rw [trimStart, List.dropWhile_append_of_pos hblanks]
      rfl
    have hgroup : group? '(' ')' ('(' :: inner ++ ')' :: t) = some (inner, t) :=
      (group?_eq_some_iff (by decide)).mpr ⟨rfl, encloses_of_nests hinner⟩
    rwa [remove_append hname hends, if_pos hcaps, htrim, hgroup]

theorem nests_of_isName {name : Text} (h : IsName name) : Nests (· != ',') name :=
  nests_of_kind (by decide) (by decide) h.chars

theorem nests_of_blanks {t : Text} (h : ∀ c ∈ t, isBlank c = true) : Nests (· != ',') t :=
  nests_of_kind (by decide) (by decide) h

/-- The brackets of macros are nested, and no comma stands outside of them. -/
theorem Macros.nests {t : Text} (h : Macros t) : Nests (· != ',') t := by
  induction h with
  | nil => rfl
  | @blank c t hc h ih =>
    exact (nests_of_blanks (t := [c]) fun d hd => List.mem_singleton.mp hd ▸ hc).append ih
  | bare hname hcaps hends h ih => exact (nests_of_isName hname).append ih
  | @call name blanks inner t hname hcaps hblanks hinner h ih =>
    have hgroup : Nests (· != ',') ('(' :: inner ++ ')' :: t) := by
      rw [List.append_cons]
      exact (nests_group hinner).append ih
    exact (nests_of_isName hname).append ((nests_of_blanks hblanks).append hgroup)

/-- **Behind a sign in the arguments of a macro** more parentheses are closed than opened. -/
theorem Macros.count_behind {t a b : Text} {c : Char} (h : Macros t) (ht : t = a ++ c :: b)
    (hblank : isBlank c = false) (hident : isIdentChar c = false) (hparen : c ≠ '(' ∧ c ≠ ')') :
    b.count '(' < b.count ')' := by
  have hname {name : Text} (hname : IsName name) : c ∉ name := fun hmem => by
    rw [hname.chars c hmem] at hident
    cases hident
  induction h generalizing a with
  | nil => exact absurd ht (by simp)
  | @blank d t hd h ih =>
    have hne : c ∉ [d] := fun hmem => by
      rw [List.mem_singleton.mp hmem, hd] at hblank
      cases hblank
    obtain ⟨a', ha'⟩ := exists_append_of_notMem (x := [d]) hne ht
    exact ih ha'
  | bare hname' hcaps hends h ih =>
    obtain ⟨a', ha'⟩ := exists_append_of_notMem (hname hname') ht
    exact ih ha'
  | @call name blanks inner t hname' hcaps hblanks hinner h ih =>
    have hblanks' : c ∉ blanks := fun hmem => by
      rw [hblanks c hmem] at hblank
      cases hblank
    obtain ⟨a', ha'⟩ := exists_append_of_notMem (hname hname') ht
    obtain ⟨a'', ha''⟩ := exists_append_of_notMem hblanks' ha'
    obtain ⟨a3, ha3⟩ := exists_append_of_notMem (x := ['(']) (by simpa using hparen.1) ha''
    rcases List.append_eq_append_iff.mp ha3 with ⟨x, -, hx⟩ | ⟨x, rfl, hx⟩
    · obtain ⟨a4, ha4⟩ := exists_append_of_notMem (x := [')']) (by simpa using hparen.2) hx
      exact ih ha4
    · cases x with
      | nil => exact absurd (List.cons.inj hx).1 hparen.2
      | cons d x =>
        obtain ⟨rfl, hb⟩ := List.cons.inj hx
        have hb : b = x ++ ')' :: t := hb
        obtain ⟨depth, -, hrest⟩ := Option.bind_eq_some_iff.mp
          ((depthAfter?_append a3 (c :: x) 0).symm.trans (encloses_of_nests hinner))
        have hcount := count_of_depthAfter? (by decide) hrest
        have heven := count_of_nests h.nests
        rw [List.count_cons_of_ne hparen.1, List.count_cons_of_ne hparen.2] at hcount
        rw [hb, List.count_append, List.count_append, List.count_cons_of_ne (by decide),
          List.count_cons_self]
        omega

end Attribute

/-! ### Items -/

open Attribute (Macros isMacroName)

/-- A value behind its sign, if there is one. -/
def valueText : Option Text → Text
  | some v => '=' :: v
  | none => []

/-- An item as it is written. -/
def itemText (name macros : Text) (value : Option Text) : Text :=
  name ++ (macros ++ valueText value)

/-- **An item of an enumeration**: a name, attribute macros, and a value behind an `=`. -/
structure Item where
  name : Text
  macros : Text
  value : Option Text
  isName : IsName name
  isMacros : Macros macros
  ends : EndsName macros
  /-- The brackets of the value are nested, and no comma stands outside of them. -/
  nests : ∀ v ∈ value, Nests (· != ',') v
  noBraces : ∀ c ∈ itemText name macros value, c ≠ '\x7b' ∧ c ≠ '\x7d'
  opensNone : Line.OpensNone (itemText name macros value)

/-- A text without braces, character by character. -/
theorem noBraces_of_all {t : Text} (h : (t.all fun c => c != '\x7b' && c != '\x7d') = true) :
    ∀ c ∈ t, c ≠ '\x7b' ∧ c ≠ '\x7d' := fun c hc => by
  simpa using List.all_eq_true.mp h c hc

namespace Item

variable (i : Item)

/-- The text of an item. -/
def text : Text := itemText i.name i.macros i.value

/-- The value that a member is given: the expression without the calls of macros, in common names,
if anything is left of it. -/
def valueOf? (expression : Text) : Option Text :=
  let value := Attribute.strip .calls expression
  if value.isEmpty then none else some (Naming.unifyWords value)

/-- **The member meant by an item.** -/
def member : Member := ⟨Naming.toUnified i.name, i.value.bind valueOf?⟩

/-- **A plain item**: its name is not spelled like a macro, and no `=` stands in its macros. -/
def IsPlain : Prop := isMacroName i.name = false ∧ '=' ∉ i.macros

instance : Decidable i.IsPlain := inferInstanceAs (Decidable (_ ∧ _))

/-! ### Values -/

/-- A value has as many parentheses too many, of either kind, as the expression. -/
theorem count_unifyWords_strip (t : Text) :
    (Naming.unifyWords (Attribute.strip .calls t)).count ')' + t.count '(' =
      t.count ')' + (Naming.unifyWords (Attribute.strip .calls t)).count '(' := by
  have hwords {w : Text} (hw : IsWord w) :
      IsWord (if Naming.isConstantName w then w else Naming.toUnified w) := by
    split
    · exact hw
    · exact Naming.isWord_toUnified hw
  rw [Naming.unifyWords, count_mapWords (fun w => hwords) (by decide),
    count_mapWords (fun w => hwords) (by decide)]
  exact Attribute.count_strip t

/-- An expression with a parenthesis too many has a value with one too many. -/
theorem exists_valueOf? {t : Text} (h : t.count '(' < t.count ')') :
    ∃ v, valueOf? t = some v ∧ v.count '(' < v.count ')' := by
  have hcount := count_unifyWords_strip t
  refine ⟨_, if_neg fun hempty => ?_, by omega⟩
  rw [List.isEmpty_iff.mp hempty] at hcount
  have hnil : Naming.unifyWords [] = [] := rfl
  rw [hnil, List.count_nil, List.count_nil] at hcount
  omega

theorem count_of_valueOf? {t v : Text} (h : t.count '(' = t.count ')') (hv : valueOf? t = some v) :
    v.count '(' = v.count ')' := by
  have hcount := count_unifyWords_strip t
  unfold valueOf? at hv
  dsimp only at hv
  split at hv
  · cases hv
  · rw [← Option.some.inj hv]
    omega

/-- No member that is meant has a parenthesis too many. -/
theorem count_of_member {v : Text} (h : i.member.value = some v) : v.count '(' = v.count ')' := by
  obtain ⟨expression, hexpression, hv⟩ := Option.bind_eq_some_iff.mp h
  exact count_of_valueOf? (count_of_nests (i.nests expression hexpression)) hv

/-! ### The member that an item declares -/

/-- An item begins with its name. -/
theorem exists_text : ∃ r, i.text = i.name ++ r := ⟨_, rfl⟩

theorem trimStart_text_append (r : Text) : trimStart (i.text ++ r) = i.text ++ r := by
  obtain ⟨r', hr⟩ := i.exists_text
  rw [hr, List.append_assoc]
  exact i.isName.trimStart_append _

/-- An item behind blanks, trimmed. -/
theorem trim_text {b : Text} (hb : ∀ c ∈ b, isBlank c = true) :
    trim (b ++ i.text) = trimEnd i.text := by
  have hstart : trimStart (b ++ i.text) = trimStart i.text := List.dropWhile_append_of_pos hb
  have hitem := i.trimStart_text_append []
  rw [List.append_nil] at hitem
  rw [trim, hstart, hitem]

/-- What an item declares, by its two sides. -/
theorem enumMember?_eq {item left right : Text} (hne : trim item ≠ [])
    (hhash : (trim item).head? ≠ some '#')
    (hcut : (cutAt? '=' (trim item)).getD (trim item, []) = (left, right)) :
    Scan.enumMember? item = (leadingIdentifier? (Attribute.strip .all left)).map fun name =>
      ⟨Naming.toUnified name, valueOf? right⟩ := by
  simp only [Scan.enumMember?, hcut, valueOf?]
  rw [if_neg (by simpa using ⟨hne, hhash⟩)]

/-- What an item behind blanks declares, by the two sides of its first `=`. -/
theorem enumMember?_text {b : Text} (hb : ∀ c ∈ b, isBlank c = true) {left right : Text}
    (hcut : (cutAt? '=' (trimEnd i.text)).getD (trimEnd i.text, []) = (left, right)) :
    Scan.enumMember? (b ++ i.text) =
      (leadingIdentifier? (Attribute.strip .all left)).map fun name =>
        ⟨Naming.toUnified name, valueOf? right⟩ := by
  obtain ⟨c, r, hname, hc, -⟩ := isName_iff.mp i.isName
  obtain ⟨r', hr⟩ := i.exists_text
  have htext : trimEnd i.text = i.name ++ trimEnd r' := hr ▸ i.isName.isPiece.trimEnd_append r'
  refine enumMember?_eq ?_ ?_ (by rw [i.trim_text hb]; exact hcut)
  · rw [i.trim_text hb, htext, hname]
    exact List.cons_ne_nil _ _
  · rw [i.trim_text hb, htext, hname, List.cons_append, List.head?_cons]
    exact fun he => ne_of_kind hc (by decide) (Option.some.inj he)

theorem equals_notMem_name : '=' ∉ i.name := fun h =>
  absurd (i.isName.chars _ h) (by decide)

/-- The name and its macros, without the macros: a name that is spelled like one goes with them. -/
theorem leadingIdentifier?_strip :
    leadingIdentifier? (Attribute.strip .all (i.name ++ i.macros)) =
      if isMacroName i.name then none else some i.name := by
  have hblank := i.isMacros.remove
  rw [Attribute.strip, Attribute.remove_append i.isName i.ends]
  split
  · rw [i.isMacros.not_group]
    simp only [if_true, List.nil_append]
    have hnil := collapse_append_blanks [] hblank
    rw [List.nil_append] at hnil
    rw [hnil]
    rfl
  · rw [collapse_append_blanks _ hblank, collapse_of_isPiece i.isName.isPiece]
    have htrim : trimStart i.name = i.name := by simpa using i.isName.trimStart_append []
    have hread : identifier? i.name = some (i.name, []) := i.isName
    rw [leadingIdentifier?, htrim, hread]
    rfl

/-- **What an item without `=` in its macros declares**: the member meant, or none if its name is
spelled like a macro. -/
theorem enumMember?_of_notMem {b : Text} (hb : ∀ c ∈ b, isBlank c = true) (h : '=' ∉ i.macros) :
    Scan.enumMember? (b ++ i.text) = if isMacroName i.name then none else some i.member := by
  have hleft : '=' ∉ i.name ++ i.macros := fun hmem =>
    (List.mem_append.mp hmem).elim i.equals_notMem_name h
  -- both sides may be trimmed before macros are removed
  have hsides : ∃ left right,
      (cutAt? '=' (trimEnd i.text)).getD (trimEnd i.text, []) = (left, right) ∧
        Attribute.strip .all left = Attribute.strip .all (i.name ++ i.macros) ∧
        valueOf? right = i.value.bind valueOf? := by
    cases hvalue : i.value with
    | none =>
      have htext : i.text = i.name ++ i.macros := by
        simp only [text, itemText, hvalue, valueText, List.append_nil]
      have hno : '=' ∉ trimEnd i.text := fun hmem => by
        obtain ⟨x, hx, -⟩ := exists_append_trimEnd i.text
        exact hleft (htext ▸ hx ▸ List.mem_append_left x hmem)
      rw [cutAt?_eq_none hno]
      have hnothing : valueOf? [] = none := by
        simp [valueOf?, Attribute.strip, Attribute.remove_nil, collapse, blankWords_nil, join]
      exact ⟨_, _, rfl, by rw [Attribute.strip_trimEnd, htext], hnothing⟩
    | some v =>
      have htext : i.text = (i.name ++ i.macros) ++ '=' :: v := by
        simp only [text, itemText, hvalue, valueText, List.append_assoc]
      rw [htext, trimEnd_append_cons (by decide), cutAt?_append hleft]
      refine ⟨_, _, rfl, rfl, ?_⟩
      simp only [valueOf?, Attribute.strip_trimEnd, Option.bind_some]
  obtain ⟨left, right, hcut, hstrip, hvalue⟩ := hsides
  rw [i.enumMember?_text hb hcut, hstrip, i.leadingIdentifier?_strip, hvalue]
  split <;> rfl

/-- **An `=` in the macros** is taken for the sign of the value: the rest of the macro becomes a
part of it. -/
theorem enumMember?_ne_of_mem {b : Text} (hb : ∀ c ∈ b, isBlank c = true) (h : '=' ∈ i.macros) :
    Scan.enumMember? (b ++ i.text) ≠ some i.member := by
  obtain ⟨m, m', hmacros, hfirst⟩ := List.eq_append_cons_of_mem h
  obtain ⟨rest, hrest, heven⟩ : ∃ rest, i.text = (i.name ++ m) ++ '=' :: (m' ++ rest) ∧
      rest.count '(' = rest.count ')' := by
    refine ⟨valueText i.value, ?_, ?_⟩
    · rw [text, itemText, hmacros]
      simp only [List.append_assoc, List.cons_append]
    · cases hvalue : i.value with
      | none => rfl
      | some v =>
        rw [valueText, List.count_cons_of_ne (by decide), List.count_cons_of_ne (by decide)]
        exact count_of_nests (i.nests v hvalue)
  have hexcess := i.isMacros.count_behind hmacros (by decide) (by decide)
    (And.intro (by decide) (by decide))
  obtain ⟨v, hv, hcount⟩ : ∃ v, valueOf? (m' ++ rest) = some v ∧ v.count '(' < v.count ')' := by
    refine exists_valueOf? ?_
    rw [List.count_append, List.count_append]
    omega
  have hleft : '=' ∉ i.name ++ m := fun hmem =>
    (List.mem_append.mp hmem).elim i.equals_notMem_name hfirst
  have hcut : (cutAt? '=' (trimEnd i.text)).getD (trimEnd i.text, []) =
      (i.name ++ m, trimEnd (m' ++ rest)) := by
    rw [hrest, trimEnd_append_cons (by decide), cutAt?_append hleft]
    rfl
  have hvalue : valueOf? (trimEnd (m' ++ rest)) = some v := by
    rw [← hv]
    simp only [valueOf?, Attribute.strip_trimEnd]
  intro hmember
  rw [i.enumMember?_text hb hcut, hvalue] at hmember
  obtain ⟨name, -, heq⟩ := Option.map_eq_some_iff.mp hmember
  have hsame : i.member.value = some v := by rw [← heq]
  have heven' := i.count_of_member hsame
  omega

/-- **An item declares the member it means** exactly if it is plain. -/
theorem enumMember?_iff {b : Text} (hb : ∀ c ∈ b, isBlank c = true) :
    Scan.enumMember? (b ++ i.text) = some i.member ↔ i.IsPlain := by
  by_cases h : '=' ∈ i.macros
  · exact iff_of_false (i.enumMember?_ne_of_mem hb h) fun hplain => hplain.2 h
  · rw [i.enumMember?_of_notMem hb h, IsPlain]
    cases isMacroName i.name <;> simp [h]

end Item

end CommonHeaders
