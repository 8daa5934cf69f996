import CommonHeaders.Header.Line
import CommonHeaders.Proofs.EnumItems
import CommonHeaders.Proofs.Groups
import CommonHeaders.Proofs.Identifiers
import CommonHeaders.Proofs.Recognisers
import CommonHeaders.Proofs.SeparatedItems

/-! # Angled lists

The header of a class has up to three lists in angle brackets: the type parameters behind its name,
their arguments behind the superclass, and the adopted protocols. Each is left out if it is empty,
so a list behind the superclass may be either of the last two; it has the arguments if it names
nothing but parameters.

* `Gap`, `Space`, `Ident`, `Listed`, `Parameter`, `Angled`: what is written.
* `Angled.group?_text`, `Angled.optionalAngled_text`, `parameterNames_inside`: what is read of a
  list.
* `adoptionList?_text`: the adopted protocols are told from the arguments. -/

namespace CommonHeaders

open Text

namespace Line

/-! ### Tokens -/

/-- May the character stand between two tokens of a line? -/
def isGapChar (c : Char) : Bool := isBlank c && c != '\n'

/-- Blanks between two tokens, if there are any. -/
abbrev Gap := { g : Text // g.all isGapChar = true }

/-- Blanks between two tokens that would be one without them. -/
abbrev Space := { g : Text // g ≠ [] ∧ g.all isGapChar = true }

/-- An identifier. -/
abbrev Ident := { t : Text // IsName t }

/-- The keywords in front of a type parameter. -/
inductive Variance where
  | covariant
  | contravariant

def Variance.keyword : Variance → Text
  | .covariant => "__covariant".toList
  | .contravariant => "__contravariant".toList

/-- **A name in an angled list**, with the blanks around it. -/
structure Listed where
  front : Gap
  name : Ident
  back : Gap

def Listed.text (e : Listed) : Text := e.front.1 ++ (e.name.1 ++ e.back.1)

/-- **A type parameter**: a name in an angled list, perhaps with a keyword in front of it. -/
structure Parameter extends Listed where
  variance : Option (Variance × Space)

namespace Parameter

variable (p : Parameter)

/-- The keyword and the blanks behind it. -/
def mark : Text :=
  match p.variance with
  | some (v, space) => v.keyword ++ space.1
  | none => []

def text : Text := p.front.1 ++ (p.mark ++ (p.name.1 ++ p.back.1))

end Parameter

/-- **An angled list** of items, each written as `write` says, with the blanks in front of it. -/
structure Angled {α : Type} (write : α → Text) where
  gap : Gap
  items : List α

namespace Angled

variable {α : Type} {write : α → Text} (l : Angled write)

/-- The text between the brackets, if there are items. -/
def inside? : Option Text := written? ',' (l.items.map write)

/-- The list with its brackets; without items it is left out. -/
def text : Text :=
  match l.inside? with
  | some inside => l.gap.1 ++ '<' :: (inside ++ ['>'])
  | none => []

end Angled

/-! ### Characters -/

/-- A character of an identifier, or between two tokens. -/
def isTokenChar (c : Char) : Bool := isIdentChar c || isGapChar c

/-- A text without punctuation. -/
def Plain (t : Text) : Prop := ∀ c ∈ t, isTokenChar c = true

theorem Plain.append {a b : Text} (ha : Plain a) (hb : Plain b) : Plain (a ++ b) := fun c hc =>
  (List.mem_append.mp hc).elim (ha c) (hb c)

theorem Plain.notMem {t : Text} (h : Plain t) {c : Char} (hc : isTokenChar c = false) : c ∉ t :=
  fun hmem => ne_of_kind (h c hmem) hc rfl

theorem plain_of_isName {t : Text} (h : IsName t) : Plain t := fun c hc => by
  rw [isTokenChar, h.chars c hc, Bool.true_or]

theorem plain_of_isGapChar {g : Text} (h : g.all isGapChar = true) : Plain g := fun c hc => by
  rw [isTokenChar, List.all_eq_true.mp h c hc, Bool.or_true]

theorem isBlank_of_isGapChar {g : Text} (h : g.all isGapChar = true) :
    ∀ c ∈ g, isBlank c = true := fun c hc =>
  ((Bool.and_eq_true _ _).mp (List.all_eq_true.mp h c hc)).1

theorem Gap.isBlank (g : Gap) : ∀ c ∈ g.1, isBlank c = true := isBlank_of_isGapChar g.2

theorem Space.isBlank (g : Space) : ∀ c ∈ g.1, isBlank c = true := isBlank_of_isGapChar g.2.2

section

variable {c : Char} (hc : isTokenChar c = false)
include hc

theorem Gap.notMem (g : Gap) : c ∉ g.1 := (plain_of_isGapChar g.2).notMem hc

theorem Space.notMem (g : Space) : c ∉ g.1 := (plain_of_isGapChar g.2.2).notMem hc

theorem Ident.notMem (name : Ident) : c ∉ name.1 := (plain_of_isName name.2).notMem hc

end

theorem Listed.plain (e : Listed) : Plain e.text :=
  (plain_of_isGapChar e.front.2).append
    ((plain_of_isName e.name.2).append (plain_of_isGapChar e.back.2))

theorem Variance.isName_keyword (v : Variance) : IsName v.keyword := by cases v <;> decide

theorem Parameter.plain_mark (p : Parameter) : Plain p.mark := by
  unfold Parameter.mark
  split
  · rename_i v space _
    exact (plain_of_isName v.isName_keyword).append (plain_of_isGapChar space.2.2)
  · exact fun c hc => absurd hc List.not_mem_nil

theorem Parameter.plain (p : Parameter) : Plain p.text :=
  (plain_of_isGapChar p.front.2).append
    (p.plain_mark.append ((plain_of_isName p.name.2).append (plain_of_isGapChar p.back.2)))

/-! ### Names in a list -/

/-- Trimming an item leaves its name. -/
theorem Listed.trim_text (e : Listed) : trim e.text = e.name.1 := by
  have hback : trimEnd e.back.1 = [] := dropEndWhile_eq_nil_iff.mpr e.back.isBlank
  rw [trim, Listed.text, trimStart_blanks_append e.front.isBlank, e.name.2.trimStart_append,
    e.name.2.isPiece.trimEnd_append, hback, List.append_nil]

/-- The name of a type parameter is the last of its words. -/
theorem Parameter.getLast?_blankWords (p : Parameter) :
    (blankWords p.text).getLast? = some p.name.1 := by
  have hname : blankWords (p.name.1 ++ p.back.1) = [p.name.1] := by
    have hpiece := blankWords_of_isPiece p.name.2.isPiece
    by_cases hback : p.back.1 = []
    · rw [hback, List.append_nil, hpiece]
    · have happend := blankWords_append_blanks p.back.isBlank hback p.name.1 []
      rw [List.append_nil] at happend
      rw [happend, hpiece]
      rfl
  rw [Parameter.text, blankWords_blanks_append p.front.isBlank, Parameter.mark]
  split
  · rename_i v space _
    rw [List.append_assoc, blankWords_append_blanks space.isBlank space.2.1,
      blankWords_of_isPiece v.isName_keyword.isPiece, hname]
    rfl
  · rw [List.nil_append, hname]
    rfl

/-! ### Lists that are read -/

theorem encloses_of_notMem {opener closer : Char} {t : Text} (hopener : opener ∉ t)
    (hcloser : closer ∉ t) : Encloses opener closer t := by
  have hnone : t.filter (fun c => c == opener || c == closer) = [] := by
    refine List.filter_eq_nil_iff.mpr fun c hc h => ?_
    rcases (Bool.or_eq_true _ _).mp h with h | h
    · exact hopener (eq_of_beq h ▸ hc)
    · exact hcloser (eq_of_beq h ▸ hc)
  rw [← encloses_filter (p := fun c => c == opener || c == closer) (by simp) (by simp), hnone]
  rfl

namespace Angled

variable {α : Type} {write : α → Text}

/-- A list with items, and one without. -/
theorem text_cases (l : Angled write) :
    (∃ inside, l.items ≠ [] ∧ l.inside? = some inside ∧
        l.text = l.gap.1 ++ '<' :: (inside ++ ['>'])) ∨
      (l.items = [] ∧ l.inside? = none ∧ l.text = []) := by
  rw [text, inside?, written?]
  cases hitems : l.items with
  | nil => exact Or.inr ⟨rfl, rfl, rfl⟩
  | cons first rest => exact Or.inl ⟨_, List.cons_ne_nil _ _, rfl, rfl⟩

theorem endsWord_append (l : Angled write) {rest : Text} (hrest : EndsWord rest) :
    EndsWord (l.text ++ rest) := by
  obtain ⟨inside, -, -, htext⟩ | ⟨-, -, htext⟩ := l.text_cases
  · rw [htext, List.append_assoc]
    exact endsWord_blanks_cons l.gap.isBlank (by decide) _
  · rwa [htext]

theorem endsWord (l : Angled write) : EndsWord l.text := by
  have hnil := l.endsWord_append endsWord_nil
  rwa [List.append_nil] at hnil

variable (hwrite : ∀ a, Plain (write a)) (l : Angled write)
include hwrite

/-- The characters between the brackets. -/
theorem notMem_inside {inside : Text} (h : l.inside? = some inside) {c : Char}
    (hc : isTokenChar c = false) (hcomma : c ≠ ',') : c ∉ inside := by
  unfold inside? written? at h
  split at h
  · cases h
  · intro hmem
    rw [← Option.some.inj h] at hmem
    rcases mem_join hmem with hmem | ⟨t, ht, hmem⟩
    · exact hcomma (List.mem_singleton.mp hmem)
    · obtain ⟨a, -, rfl⟩ := List.mem_map.mp ht
      exact (hwrite a).notMem hc hmem

theorem notMem_text {c : Char} (hc : isTokenChar c = false) (hlist : c ∉ ['<', ',', '>']) :
    c ∉ l.text := by
  simp only [List.mem_cons, List.not_mem_nil, or_false, not_or] at hlist
  obtain ⟨inside, -, hinside, htext⟩ | ⟨-, -, htext⟩ := l.text_cases
  · have hgap := (plain_of_isGapChar l.gap.2).notMem hc
    have hin := l.notMem_inside hwrite hinside hc hlist.2.1
    rw [htext]
    simp [hgap, hin, hlist]
  · rw [htext]
    exact List.not_mem_nil

/-- The items of a list are its parts. -/
theorem splitItems_inside {inside : Text} (h : l.inside? = some inside) :
    splitItems ',' inside = l.items.map write := by
  unfold inside? written? at h
  cases hitems : l.items.map write with
  | nil => rw [hitems] at h; cases h
  | cons first rest =>
    rw [hitems] at h
    rw [← Option.some.inj h]
    refine splitItems_join_whole (by decide) (by decide) fun t ht => ?_
    obtain ⟨a, -, rfl⟩ := List.mem_map.mp (hitems ▸ ht)
    exact whole_of_kind (by decide) (by decide) (by decide) (hwrite a)

/-- **A list is read** as a group. -/
theorem group?_text {inside : Text} (h : l.inside? = some inside) (rest : Text) :
    group? '<' '>' (trimStart (l.text ++ rest)) = some (inside, rest) := by
  have htext : l.text = l.gap.1 ++ '<' :: (inside ++ ['>']) := by rw [text, h]
  have hencloses : Encloses '<' '>' inside :=
    encloses_of_notMem (l.notMem_inside hwrite h (by decide) (by decide))
      (l.notMem_inside hwrite h (by decide) (by decide))
  rw [htext, List.append_assoc, List.cons_append, List.append_assoc, List.singleton_append,
    trimStart_blanks_cons l.gap.isBlank (by decide)]
  exact (group?_eq_some_iff (by decide)).mpr ⟨rfl, hencloses⟩

/-- A list at the end of a text. -/
theorem map_group?_text : (group? '<' '>' (trimStart l.text)).map Prod.fst = l.inside? := by
  obtain ⟨inside, -, hinside, -⟩ | ⟨-, hinside, htext⟩ := l.text_cases
  · have hread := l.group?_text hwrite hinside []
    rw [List.append_nil] at hread
    rw [hread, hinside]
    rfl
  · rw [htext, hinside]
    rfl

/-- **A list is read up to its closing bracket**, if there is one. -/
theorem optionalAngled_text {rest : Text} (hrest : (trimStart rest).head? ≠ some '<') :
    ∃ behind, optionalAngled (trimStart (l.text ++ rest)) = (l.inside?.getD [], behind) ∧
      trimStart behind = trimStart rest := by
  obtain ⟨inside, -, hinside, htext⟩ | ⟨-, hinside, htext⟩ := l.text_cases
  · have hopen : trimStart (l.text ++ rest) = '<' :: (inside ++ '>' :: rest) := by
      rw [htext, List.append_assoc, List.cons_append, List.append_assoc, List.singleton_append]
      exact trimStart_blanks_cons l.gap.isBlank (by decide) _
    have hcut : cutAt? '>' (inside ++ '>' :: rest) = some (inside, rest) :=
      cutAt?_append (l.notMem_inside hwrite hinside (by decide) (by decide)) rest
    refine ⟨rest, ?_, rfl⟩
    rw [hopen, optionalAngled, angled?, char?, if_pos rfl, Option.bind_some, hcut, hinside]
    rfl
  · refine ⟨trimStart rest, ?_, trimStart_trimStart rest⟩
    rw [htext, List.nil_append, hinside, optionalAngled, angled?]
    cases hstart : trimStart rest with
    | nil => rfl
    | cons c r =>
      have hc : c ≠ '<' := fun he => hrest (by rw [hstart, he]; rfl)
      rw [char?, if_neg hc]
      rfl

end Angled

/-- The names of the parameters in a list. -/
theorem parameterNames_inside (l : Angled Parameter.text) :
    parameterNames (l.inside?.getD []) = l.items.map fun p => p.name.1 := by
  obtain ⟨inside, -, hinside, -⟩ | ⟨hitems, hinside, -⟩ := l.text_cases
  · rw [hinside, Option.getD_some, parameterNames,
      l.splitItems_inside Parameter.plain hinside, List.filterMap_map]
    have hname : (fun item => (blankWords item).getLast?) ∘ Parameter.text =
        fun p => some p.name.1 := funext Parameter.getLast?_blankWords
    rw [hname, ← List.filterMap_eq_map]
    rfl
  · rw [hinside, hitems]
    rfl

/-- An adoption list behind a name without parameters. -/
theorem adoptionList?_nil (tail : Text) :
    adoptionList? tail [] = (group? '<' '>' (trimStart tail)).map Prod.fst := by
  have hnone : parameterNames [] = [] := rfl
  rw [adoptionList?, hnone]
  cases group? '<' '>' (trimStart tail) with
  | none => rfl
  | some found => rfl

/-- Does a list behind a superclass have its arguments? -/
def areArguments (parameters : Angled Parameter.text) (l : Angled Listed.text) : Bool :=
  let names := parameters.items.map fun p => p.name.1
  !names.isEmpty && l.items.all fun e => names.contains e.name.1

theorem areArguments_iff {parameters : Angled Parameter.text} {l : Angled Listed.text} :
    areArguments parameters l = true ↔ parameters.items ≠ [] ∧
      ∀ e ∈ l.items, ∃ p ∈ parameters.items, p.name = e.name := by
  simp [areArguments, Subtype.ext_iff]

/-- A list behind a superclass: it is passed over if it has the arguments. -/
theorem adoptionList?_append (parameters : Angled Parameter.text) (l : Angled Listed.text)
    {inside : Text} (h : l.inside? = some inside) (rest : Text) :
    adoptionList? (l.text ++ rest) (parameters.inside?.getD []) =
      if areArguments parameters l then (group? '<' '>' (trimStart rest)).map Prod.fst
      else some inside := by
  have hall (names : List Text) : ((splitItems ',' inside).all fun item =>
      names.contains (trim item)) = l.items.all fun e => names.contains e.name.1 := by
    rw [l.splitItems_inside Listed.plain h, List.all_map]
    exact congrArg l.items.all (funext fun e => congrArg names.contains e.trim_text)
  rw [adoptionList?, l.group?_text Listed.plain h, parameterNames_inside, areArguments, ← hall]
  rfl

/-- **The adoption list of a class** is told from the arguments of its superclass. -/
theorem adoptionList?_text {parameters : Angled Parameter.text}
    {arguments protocols : Angled Listed.text}
    (harguments : ∀ a ∈ arguments.items, ∃ p ∈ parameters.items, p.name = a.name)
    (hprotocols : ∀ q ∈ protocols.items, ∀ p ∈ parameters.items, p.name ≠ q.name) :
    adoptionList? (arguments.text ++ protocols.text) (parameters.inside?.getD []) =
      protocols.inside? := by
  obtain ⟨inside, hitems, hinside, -⟩ | ⟨-, -, htext⟩ := arguments.text_cases
  · have hskip : areArguments parameters arguments = true := by
      obtain ⟨first, hfirst⟩ := List.exists_mem_of_ne_nil _ hitems
      obtain ⟨p, hp, -⟩ := harguments first hfirst
      exact areArguments_iff.mpr ⟨List.ne_nil_of_mem hp, harguments⟩
    rw [adoptionList?_append parameters arguments hinside, if_pos hskip,
      protocols.map_group?_text Listed.plain]
  · rw [htext, List.nil_append]
    obtain ⟨inside, hitems, hinside, -⟩ | ⟨-, hinside, hnil⟩ := protocols.text_cases
    · have hkeep : ¬ areArguments parameters protocols = true := by
        intro h
        obtain ⟨first, hfirst⟩ := List.exists_mem_of_ne_nil _ hitems
        obtain ⟨p, hp, hname⟩ := (areArguments_iff.mp h).2 first hfirst
        exact hprotocols first hfirst p hp hname
      have hread := adoptionList?_append parameters protocols hinside []
      rw [List.append_nil] at hread
      rw [hread, if_neg hkeep, hinside]
    · rw [hnil, hinside]
      rfl

end Line

end CommonHeaders
