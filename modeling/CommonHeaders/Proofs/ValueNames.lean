import CommonHeaders.Header.Scan
import CommonHeaders.Proofs.Identifiers
import CommonHeaders.Proofs.Recognisers
import CommonHeaders.Proofs.WordSubstitution

/-! # Platform names in value expressions

A value expression is put into common names word by word. It can also be searched from left to right
for a platform tag with an uppercase letter behind it, at places where no word goes on, and what is
found be replaced as far as the word goes; the search looks for the beginning of a word only, and
still it never replaces a part of one. The names of members are put into common names in the same
way, so an expression that refers to a member refers to it under the name that is stored.

* `replaceNames_eq_unifyWords`: searching and replacing is replacing word by word.
* `unifyWords_unifyWords`: common names stay.
* `unifyWords_append_name`: a name in an expression, with its surroundings.
* `unifyWords_by_word`: what a value expression becomes. -/

namespace CommonHeaders

open Naming Text

/-! ### Words and their surroundings -/

namespace Text

/-- Words are replaced apart from what comes before, if that does not end within one. -/
theorem mapWords_append_of_getLast? (f : Text → Text) {t : Text}
    (ht : t.getLast?.any isWordChar = false) (r : Text) :
    mapWords f (t ++ r) = mapWords f t ++ mapWords f r := by
  induction t using word_induction with
  | nil => rfl
  | other c t hc ih =>
    have hrest : t.getLast?.any isWordChar = false := by
      cases t with
      | nil => rfl
      | cons d t => rwa [List.getLast?_cons_cons] at ht
    rw [List.cons_append, mapWords_cons f _ hc, ih hrest, mapWords_cons f t hc]
    rfl
  | word w t hw hends ih =>
    cases t with
    | nil =>
      -- the text would end within the word
      obtain ⟨init, c, rfl⟩ := (List.eq_nil_or_concat w).resolve_left hw.ne_nil
      have hc : isWordChar c = true := hw.chars c (by simp)
      rw [List.append_nil, List.concat_eq_append, List.getLast?_concat, Option.any_some, hc] at ht
      cases ht
    | cons c t =>
      rw [List.getLast?_append_of_ne_nil _ (List.cons_ne_nil c t)] at ht
      have hmore : EndsWord (c :: t ++ r) := endsWord_cons (hends c rfl)
      rw [List.append_assoc, mapWords_append f hw hmore, ih ht, mapWords_append f hw hends,
        List.append_assoc]

/-- Replacing words by words, twice. -/
theorem mapWords_mapWords {f g : Text → Text} {t : Text} (hg : ∀ w ∈ words t, IsWord (g w)) :
    mapWords f (mapWords g t) = mapWords (fun w => f (g w)) t := by
  induction t using word_induction with
  | nil => rfl
  | other c t hc ih =>
    rw [words_cons t hc] at hg
    rw [mapWords_cons g t hc, mapWords_cons f _ hc, ih hg, mapWords_cons _ t hc]
  | word w t hw ht ih =>
    rw [words_append hw ht] at hg
    have hfirst : IsWord (g w) := hg w List.mem_cons_self
    have hrest := ih fun v hv => hg v (List.mem_cons_of_mem _ hv)
    rw [mapWords_append g hw ht, mapWords_append f hfirst (endsWord_mapWords g ht), hrest,
      mapWords_append _ hw ht]

end Text

namespace Naming

/-! ### Searching for platform names -/

/-- What a word becomes: its common name, unless it is a constant in capitals. -/
def respell (word : Text) : Text := if isConstantName word then word else toUnified word

/-- The word at a place where none goes on, if it begins with a platform tag and an uppercase
letter, and what follows it. -/
def platformName? (before : Option Char) (t : Text) : Option (Text × Text) :=
  if before.any isWordChar then none
  else if (platformRest? t).isSome then word? t
  else none

theorem platformName?_rest_lt {before : Option Char} {t name rest : Text}
    (h : platformName? before t = some (name, rest)) : rest.length < t.length := by
  have hword : word? t = some (name, rest) := by
    unfold platformName? at h
    split at h
    · cases h
    · split at h
      · exact h
      · cases h
  obtain ⟨rfl, hname⟩ := exists_of_word? hword
  have hpos := List.length_pos_iff.mpr hname.ne_nil
  rw [List.length_append]
  omega

/-- **Searching and replacing**: from left to right, every platform name that is found is replaced
and the search goes on behind it. -/
def replaceNames (before : Option Char) : Text → Text
  | [] => []
  | c :: r =>
    match _hfound : platformName? before (c :: r) with
    | some (name, rest) => respell name ++ replaceNames name.getLast? rest
    | none => c :: replaceNames (some c) r
termination_by t => t.length
decreasing_by
  · exact platformName?_rest_lt _hfound
  · exact Nat.lt_succ_self _

/-- An uppercase letter that does not stand behind a word stands in it. -/
theorem startsUpper_of_endsWord {more tail : Text} (htail : EndsWord tail)
    (h : startsUpper (more ++ tail) = true) : startsUpper more = true := by
  cases more with
  | cons c more => exact h
  | nil =>
    cases tail with
    | nil => cases h
    | cons c tail =>
      have hupper : c.isUpper = true := h
      have halpha : c.isAlpha = true := (Bool.or_eq_true _ _).mpr (Or.inl hupper)
      have hstart : isIdentStart c = true := (Bool.or_eq_true _ _).mpr (Or.inl halpha)
      have hword := isWordChar_of_isIdentChar (isIdentChar_of_isIdentStart hstart)
      rw [htail c rfl] at hword
      cases hword

theorem startsUpper_append {rest : Text} (h : startsUpper rest = true) (t : Text) :
    startsUpper (rest ++ t) = true := by
  cases rest with
  | nil => cases h
  | cons c rest => exact h

/-- **A text begins with a platform tag** where its first word does. -/
theorem isSome_platformRest?_append {w t : Text} (hw : IsWord w) (ht : EndsWord t) :
    (platformRest? (w ++ t)).isSome = (platformRest? w).isSome := by
  cases hword : platformRest? w with
  | some rest =>
    obtain ⟨tag, -, hspells, rfl⟩ := (spells_of_platformRest? hword).isWord_tag
    have hupper := startsUpper_append (platformRest?_eq_some_iff.mp hword).1 t
    rw [List.append_assoc, (hspells (rest ++ t)).platformRest? hupper]
    rfl
  | none =>
    cases hmore : platformRest? (w ++ t) with
    | none => rfl
    | some rest =>
      obtain ⟨tag, htag, hspells, htext⟩ := (spells_of_platformRest? hmore).isWord_tag
      -- the first word is the tag and the word characters behind it
      obtain ⟨more, tail, rfl, hfirst, htail⟩ := htag.exists_more rest
      have hread : word? (w ++ t) = some (w, t) := word?_append hw ht
      rw [htext, ← List.append_assoc, word?_append hfirst htail] at hread
      obtain ⟨rfl, rfl⟩ := Prod.mk.inj (Option.some.inj hread)
      have hupper := startsUpper_of_endsWord htail (platformRest?_eq_some_iff.mp hmore).1
      rw [(hspells more).platformRest? hupper] at hword
      cases hword

theorem respell_of_platformRest?_none {w : Text} (h : platformRest? w = none) : respell w = w := by
  rw [respell, toUnified_of_not h, ite_self]

/-- Within a word nothing is found. -/
theorem replaceNames_within {w : Text} (hw : ∀ c ∈ w, isWordChar c = true) {before : Option Char}
    (hbefore : before.any isWordChar = true) (t : Text) :
    replaceNames before (w ++ t) = w ++ replaceNames (w.getLast?.or before) t := by
  induction w generalizing before with
  | nil => rfl
  | cons c r ih =>
    have hc : (some c).any isWordChar = true := hw c List.mem_cons_self
    have hrest := ih (fun d hd => hw d (List.mem_cons_of_mem c hd)) hc
    have hnone : platformName? before (c :: (r ++ t)) = none := if_pos hbefore
    have hlast : (c :: r).getLast?.or before = r.getLast?.or (some c) := by
      rw [List.getLast?_cons]
      cases r.getLast? <;> rfl
    rw [List.cons_append, replaceNames, hnone, hlast]
    exact congrArg (c :: ·) hrest

/-- **Searching for platform names and replacing them is replacing word by word.** -/
theorem replaceNames_eq_unifyWords (t : Text) : replaceNames none t = unifyWords t := by
  -- the search may also begin behind a word, if the text does not go on with it
  suffices h : ∀ before : Option Char, (before.any isWordChar = true → EndsWord t) →
      replaceNames before t = mapWords respell t from h none fun h => by cases h
  induction t using word_induction with
  | nil => exact fun _ _ => by rw [replaceNames]; rfl
  | other c t hc ih =>
    intro before hbefore
    have hnone : platformName? before (c :: t) = none := by
      have hword : word? (c :: t) = none := by simp [word?, hc]
      simp only [platformName?, hword, ite_self]
    have hrest := ih (some c) fun h => by
      rw [Option.any_some, hc] at h
      cases h
    rw [replaceNames, hnone, mapWords_cons respell t hc]
    exact congrArg (c :: ·) hrest
  | word w t hw ht ih =>
    intro before hbefore
    obtain ⟨c, r, rfl⟩ := List.exists_cons_of_ne_nil hw.ne_nil
    have hc : isWordChar c = true := hw.chars c List.mem_cons_self
    have hfree : ¬ before.any isWordChar = true := fun h => by
      have hends := hbefore h c rfl
      rw [hc] at hends
      cases hends
    have hrest := ih (c :: r).getLast? fun _ => ht
    have hread : word? (c :: r ++ t) = some (c :: r, t) := word?_append hw ht
    have htagged := isSome_platformRest?_append hw ht
    rw [mapWords_append respell hw ht]
    cases hfirst : platformRest? (c :: r) with
    | some rest =>
      rw [hfirst] at htagged
      have hfound : platformName? before (c :: (r ++ t)) = some (c :: r, t) :=
        (if_neg hfree).trans ((if_pos htagged).trans hread)
      rw [List.cons_append, replaceNames, hfound]
      exact congrArg (respell (c :: r) ++ ·) hrest
    | none =>
      rw [hfirst] at htagged
      have hnone : platformName? before (c :: (r ++ t)) = none :=
        (if_neg hfree).trans (if_neg fun h => Bool.false_ne_true (htagged.symm.trans h))
      have hinside : (some c).any isWordChar = true := hc
      have hwithin : replaceNames (some c) (r ++ t) =
          r ++ replaceNames (r.getLast?.or (some c)) t :=
        replaceNames_within (fun d hd => hw.chars d (List.mem_cons_of_mem c hd)) hinside t
      have hlast : (c :: r).getLast? = r.getLast?.or (some c) := by
        rw [List.getLast?_cons]
        cases r.getLast? <;> rfl
      rw [List.cons_append, replaceNames, hnone, respell_of_platformRest?_none hfirst]
      rw [hlast] at hrest
      exact congrArg (c :: ·) (hwithin.trans (congrArg (r ++ ·) hrest))

/-! ### What words become -/

/-- **What a word of a value expression becomes**: a platform name, unless it is made of capitals,
digits and underscores, has the common tag in place of its own; every other word stays. -/
def Respelled (w w' : Text) : Prop :=
  (∃ rest, Spells w rest ∧ startsUpper rest = true ∧ isConstantName w = false ∧
      w' = unifiedTag ++ rest) ∨
    w' = w ∧ ∀ rest, Spells w rest → startsUpper rest = true → isConstantName w = true

theorem respelled_iff (w w' : Text) : Respelled w w' ↔ w' = respell w := by
  cases hword : platformRest? w with
  | none =>
    rw [respell_of_platformRest?_none hword]
    constructor
    · rintro (⟨rest, hspells, hupper, -⟩ | ⟨hw', -⟩)
      · rw [hspells.platformRest? hupper] at hword
        cases hword
      · exact hw'
    · intro hw'
      refine Or.inr ⟨hw', fun rest hspells hupper => ?_⟩
      rw [hspells.platformRest? hupper] at hword
      cases hword
  | some rest =>
    have hspells := spells_of_platformRest? hword
    have hupper := (platformRest?_eq_some_iff.mp hword).1
    rw [respell, toUnified_of_platformRest? hword]
    constructor
    · rintro (⟨rest', hspells', hupper', hcaps, rfl⟩ | ⟨rfl, hcaps⟩)
      · rw [hspells'.platformRest? hupper'] at hword
        rw [if_neg (by simp [hcaps]), Option.some.inj hword]
      · rw [if_pos (hcaps rest hspells hupper)]
    · intro hw'
      cases hcaps : isConstantName w with
      | true =>
        rw [hcaps, if_pos rfl] at hw'
        exact Or.inr ⟨hw', fun _ _ _ => hcaps⟩
      | false =>
        rw [hcaps, if_neg Bool.false_ne_true] at hw'
        exact Or.inl ⟨rest, hspells, hupper, hcaps, hw'⟩

theorem isWord_respell {w : Text} (hw : IsWord w) : IsWord (respell w) := by
  unfold respell
  split
  · exact hw
  · exact isWord_toUnified hw

/-- A common name carries no platform tag. -/
theorem toUnified_toUnified (name : Text) : toUnified (toUnified name) = toUnified name := by
  cases hname : platformRest? name with
  | none => rw [toUnified_of_not hname, toUnified_of_not hname]
  | some rest =>
    have hnone : platformRest? (unifiedTag ++ rest) = none := by
      refine Option.eq_none_iff_forall_ne_some.mpr fun rest' hrest' => ?_
      exact not_spells_unifiedTag rest rest' (spells_of_platformRest? hrest')
    rw [toUnified_of_platformRest? hname, toUnified_of_not hnone]

theorem respell_respell (w : Text) : respell (respell w) = respell w := by
  cases hcaps : isConstantName w with
  | true =>
    have hstays : respell w = w := if_pos hcaps
    rw [hstays, hstays]
  | false =>
    have hchanges : respell w = toUnified w := if_neg (by simp [hcaps])
    rw [hchanges, respell, toUnified_toUnified, ite_self]

/-- **Common names stay**: a second pass changes nothing. -/
theorem unifyWords_unifyWords (t : Text) : unifyWords (unifyWords t) = unifyWords t := by
  have htwice : mapWords respell (mapWords respell t) = mapWords (fun w => respell (respell w)) t :=
    mapWords_mapWords fun w hw => isWord_respell (isWord_of_mem_words hw)
  simp only [respell_respell] at htwice
  exact htwice

/-- **A name in an expression**, where no word goes on on either side, becomes its common name. -/
theorem unifyWords_append_name {name : Text} (hname : IsWord name)
    (hcaps : isConstantName name = false) {a b : Text} (ha : a.getLast?.any isWordChar = false)
    (hb : EndsWord b) :
    unifyWords (a ++ (name ++ b)) = unifyWords a ++ (toUnified name ++ unifyWords b) := by
  have hrespell : respell name = toUnified name := if_neg (by simp [hcaps])
  have hsplit : mapWords respell (a ++ (name ++ b)) =
      mapWords respell a ++ (respell name ++ mapWords respell b) := by
    rw [mapWords_append_of_getLast? respell ha, mapWords_append respell hname hb]
  rw [hrespell] at hsplit
  exact hsplit

end Naming

/-! ### Names of members -/

namespace Scan

/-- The name with which an item of an enumeration body is written: the first identifier of its left
side, attribute macros aside. -/
def writtenName? (item : Text) : Option Text :=
  leadingIdentifier? (Attribute.strip .all ((cutAt? '=' (trim item)).getD (trim item, [])).1)

/-- A member is stored under the common name of the name it is written with. -/
theorem exists_writtenName {item : Text} {m : Member} (h : enumMember? item = some m) :
    ∃ name, writtenName? item = some name ∧ IsName name ∧ m.name = toUnified name := by
  unfold enumMember? at h
  dsimp only at h
  split at h
  · cases h
  · obtain ⟨name, hname, rfl⟩ := Option.map_eq_some_iff.mp h
    obtain ⟨⟨name', rest⟩, hread, rfl⟩ := Option.map_eq_some_iff.mp hname
    exact ⟨name', hname, (isName_of_identifier? hread).1, rfl⟩

end Scan

/-- **Value expressions are put into common names word by word**, in step with the names of members.
A search for platform names, which looks for the beginning of a word only, replaces the same; a
second pass changes nothing; and where an expression refers to a member by the name with which it is
written, unless that is made of capitals, the name stands under which the member is stored. -/
theorem unifyWords_by_word (t : Text) :
    (∀ t', ByWord Respelled t t' ↔ t' = unifyWords t) ∧ replaceNames none t = unifyWords t ∧
      unifyWords (unifyWords t) = unifyWords t ∧
      ∀ item m, Scan.enumMember? item = some m → ∃ name, Scan.writtenName? item = some name ∧
        m.name = toUnified name ∧ (isConstantName name = false → ∀ a b, t = a ++ (name ++ b) →
          a.getLast?.any isWordChar = false → EndsWord b →
            unifyWords t = unifyWords a ++ (m.name ++ unifyWords b)) := by
  refine ⟨fun t' => byWord_iff respelled_iff, replaceNames_eq_unifyWords t, unifyWords_unifyWords t,
    fun item m hitem => ?_⟩
  obtain ⟨name, hwritten, hname, hstored⟩ := Scan.exists_writtenName hitem
  refine ⟨name, hwritten, hstored, ?_⟩
  rintro hcaps a b rfl ha hb
  rw [hstored]
  exact unifyWords_append_name hname.isWord hcaps ha hb

/-- An expression with a constant in capitals, a tag behind another, a tag within a word, and a
member that carries a macro where it is declared. -/
theorem unifyWords_by_word_masks :
    let item := "NSMaskAll NS_AVAILABLE_MAC(10_0) = 3".toList
    let m : Member := ⟨"MAIMaskAll".toList, some "3".toList⟩
    let before := "UINT_MAX|UINSBit|éUIBit|~".toList
    let t := before ++ ("NSMaskAll".toList ++ ")".toList)
    Scan.enumMember? item = some m ∧ isConstantName "NSMaskAll".toList = false ∧
      before.getLast?.any isWordChar = false ∧ EndsWord ")".toList ∧
      ByWord Respelled t "UINT_MAX|MAINSBit|éUIBit|~MAIMaskAll)".toList ∧
      unifyWords t = unifyWords before ++ (m.name ++ unifyWords ")".toList) := by
  intro item m before t
  have hfacts : Scan.enumMember? item = some m ∧ Scan.writtenName? item = some "NSMaskAll".toList ∧
      isConstantName "NSMaskAll".toList = false ∧ before.getLast?.any isWordChar = false ∧
      "UINT_MAX|MAINSBit|éUIBit|~MAIMaskAll)".toList = unifyWords t := by decide +kernel
  obtain ⟨hitem, hwritten, hcaps, hbefore, hvalue⟩ := hfacts
  have hbehind : EndsWord ")".toList := endsWord_cons (by decide)
  obtain ⟨hwords, -, -, hmembers⟩ := unifyWords_by_word t
  obtain ⟨name, hname, -, hreference⟩ := hmembers item m hitem
  obtain rfl := Option.some.inj (hwritten.symm.trans hname)
  exact ⟨hitem, hcaps, hbefore, hbehind, (hwords _).mpr hvalue,
    hreference hcaps before ")".toList rfl hbefore hbehind⟩

end CommonHeaders
