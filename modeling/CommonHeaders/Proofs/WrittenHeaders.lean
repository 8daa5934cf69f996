import CommonHeaders.Proofs.AngledLists
import CommonHeaders.Proofs.EnumItems
import CommonHeaders.Proofs.EnumOpenings
import CommonHeaders.Proofs.Recognisers

/-! # Headers of interfaces as they are written

The header of a class has its superclass behind a colon and its angled lists, that of a category has
its name in parentheses, that of a protocol has the adopted protocols only, and a protocol that is
declared elsewhere has a semicolon or a comma. Between the tokens are blanks. None of them opens
anything else than it says, since the marks that would do so are not in it.

* `Header`, `Header.text`, `Header.line`: what is written, and what it says.
* `exists_behind_parameters`: the name and its parameters; `classOpening?_text`,
  `categoryOpening?_text`, `protocolOpening?_append`: the openings that are read.
* `Header.opensNone_text`, `Header.search_text_eq_none`: a header opens nothing else.
* `Header.classify_text`: a header is read as it is written. -/

namespace CommonHeaders

open Text

namespace Line

/-! ### Headers -/

def interfaceKeyword : Text := "@interface".toList

def protocolKeyword : Text := "@protocol".toList

/-- A name that may be left out. -/
def nameText (name : Option Ident) : Text := (name.map Subtype.val).getD []

/-- **A header of an interface**, token by token. -/
inductive Header where
  | ofClass (space : Space) (name : Ident) (parameters : Angled Parameter.text)
      (before behind : Gap) (superclass : Ident) (arguments protocols : Angled Listed.text)
  | ofCategory (space : Space) (name : Ident) (parameters : Angled Parameter.text)
      (before inner : Gap) (category : Option Ident) (inner' : Gap)
      (protocols : Angled Listed.text)
  | ofProtocol (space : Space) (name : Ident) (protocols : Angled Listed.text)
  /-- A protocol that is declared elsewhere, with what is written behind its mark. -/
  | forward (space : Space) (name : Ident) (behind : Gap) (mark : Char) (rest : Text)

namespace Header

def keyword : Header → Text
  | ofClass .. => interfaceKeyword
  | ofCategory .. => interfaceKeyword
  | ofProtocol .. => protocolKeyword
  | forward .. => protocolKeyword

/-- What is written behind the keyword. -/
def body : Header → Text
  | ofClass space name parameters before behind superclass arguments protocols =>
    space.1 ++ (name.1 ++ (parameters.text ++ (before.1 ++ ':' :: (behind.1 ++ (superclass.1 ++
      (arguments.text ++ protocols.text))))))
  | ofCategory space name parameters before inner category inner' protocols =>
    space.1 ++ (name.1 ++ (parameters.text ++ (before.1 ++ '(' :: (inner.1 ++
      (nameText category ++ (inner'.1 ++ ')' :: protocols.text))))))
  | ofProtocol space name protocols => space.1 ++ (name.1 ++ protocols.text)
  | forward space name behind mark rest => space.1 ++ (name.1 ++ (behind.1 ++ mark :: rest))

/-- **The header as it is written.** -/
def text (h : Header) : Text := h.keyword ++ h.body

/-- **What goes together in a header.** The arguments of a superclass name parameters of the class,
and no protocol is named as one of them is. What is written behind the semicolon or the comma of a
forward declaration opens nothing of its own; if the declaration ends there, this asks for nothing. -/
def WellFormed : Header → Prop
  | ofClass _ _ parameters _ _ _ arguments protocols =>
    (∀ a ∈ arguments.items, ∃ p ∈ parameters.items, p.name = a.name) ∧
      ∀ q ∈ protocols.items, ∀ p ∈ parameters.items, p.name ≠ q.name
  | ofCategory .. => True
  | ofProtocol .. => True
  | forward _ _ _ mark rest =>
    (mark = ';' ∨ mark = ',') ∧ '\n' ∉ rest ∧ ¬ interfaceKeyword <:+: rest ∧ OpensNone rest

/-- What the header says. -/
def line : Header → Line
  | ofClass _ name _ _ _ superclass _ protocols =>
    .classOpen name.1 superclass.1 protocols.inside? false
  | ofCategory _ name _ _ _ category _ protocols =>
    .categoryOpen name.1 (nameText category) protocols.inside?
  | ofProtocol _ name protocols => .protocolOpen name.1 protocols.inside?
  | forward .. => .forward

end Header

/-! ### Openings that are read -/

theorem blanks?_append_name (space : Space) (name : Ident) (t : Text) :
    blanks? (space.1 ++ (name.1 ++ t)) = some (name.1 ++ t) := by
  obtain ⟨c, r, hspace⟩ := List.exists_cons_of_ne_nil space.2.1
  have hblank := space.isBlank
  rw [hspace] at hblank ⊢
  rw [List.cons_append, blanks?, if_pos (hblank c List.mem_cons_self),
    trimStart_blanks_append fun d hd => hblank d (List.mem_cons_of_mem c hd),
    name.2.trimStart_append]

theorem after?_interfaceKeyword (t : Text) :
    after? "@interface".toList (interfaceKeyword ++ t) = some t :=
  Naming.after?_eq_some_iff.mpr rfl

theorem restOfLine?_of_notMem {t : Text} (h : '\n' ∉ t) : restOfLine? t = some t := if_neg h

section

variable (space : Space) (name : Ident) (parameters : Angled Parameter.text) (before : Gap)

/-- **A name and its parameters** are read up to the mark behind them. -/
theorem exists_behind_parameters {mark : Char} (hmark : mark = ':' ∨ mark = '(') (t : Text) :
    word? (name.1 ++ (parameters.text ++ (before.1 ++ mark :: t))) =
        some (name.1, parameters.text ++ (before.1 ++ mark :: t)) ∧
      ∃ behind, optionalAngled (trimStart (parameters.text ++ (before.1 ++ mark :: t))) =
          (parameters.inside?.getD [], behind) ∧
        trimStart behind = mark :: t := by
  have hpunctuation : isBlank mark = false ∧ isWordChar mark = false ∧ mark ≠ '<' := by
    rcases hmark with rfl | rfl <;> decide
  have hstart : trimStart (before.1 ++ mark :: t) = mark :: t :=
    trimStart_blanks_cons before.isBlank hpunctuation.1 t
  have hends : EndsWord (before.1 ++ mark :: t) :=
    endsWord_blanks_cons before.isBlank hpunctuation.2.1 t
  have hopen : (trimStart (before.1 ++ mark :: t)).head? ≠ some '<' := fun h => by
    rw [hstart] at h
    exact hpunctuation.2.2 (Option.some.inj h)
  obtain ⟨behind, hangled, hbehind⟩ := parameters.optionalAngled_text Parameter.plain hopen
  exact ⟨word?_append name.2.isWord (parameters.endsWord_append hends), behind, hangled,
    hbehind.trans hstart⟩

/-- **A class is opened** by the colon behind its parameters. -/
theorem classOpening?_text (behind : Gap) (superclass : Ident)
    (arguments protocols : Angled Listed.text) :
    classOpening? (Header.text (.ofClass space name parameters before behind superclass arguments
      protocols)) = some ⟨name.1, parameters.inside?.getD [], superclass.1,
        arguments.text ++ protocols.text⟩ := by
  obtain ⟨tail, htail⟩ : ∃ tail, tail = arguments.text ++ protocols.text := ⟨_, rfl⟩
  obtain ⟨hname, r, hangled, hr⟩ := exists_behind_parameters name parameters before
    (Or.inl rfl) (behind.1 ++ (superclass.1 ++ tail))
  have hcolon : spacedChar? ':' r = some (superclass.1 ++ tail) := by
    rw [spacedChar?, hr, char?, if_pos rfl, Option.map_some,
      trimStart_blanks_append behind.isBlank, superclass.2.trimStart_append]
  have hsuperclass : word? (superclass.1 ++ tail) = some (superclass.1, tail) :=
    word?_append superclass.2.isWord (htail ▸ arguments.endsWord_append protocols.endsWord)
  have hbreak : '\n' ∉ tail := by
    rw [htail, List.mem_append, not_or]
    exact ⟨arguments.notMem_text Listed.plain (by decide) (by decide),
      protocols.notMem_text Listed.plain (by decide) (by decide)⟩
  rw [Header.text, Header.keyword, Header.body, ← htail]
  simp only [classOpening?, after?_interfaceKeyword, blanks?_append_name, hname, hangled, hcolon,
    hsuperclass, restOfLine?_of_notMem hbreak, Option.bind_eq_bind, Option.bind_some]

variable (inner : Gap) (category : Option Ident) (inner' : Gap) (protocols : Angled Listed.text)

/-- **A category is opened** by the parentheses behind the parameters of its class, -/
theorem categoryOpening?_text :
    categoryOpening? (Header.text (.ofCategory space name parameters before inner category inner'
      protocols)) = some ⟨name.1, nameText category, protocols.text⟩ := by
  obtain ⟨tail, htail⟩ : ∃ tail, tail = inner'.1 ++ ')' :: protocols.text := ⟨_, rfl⟩
  obtain ⟨hname, r, hangled, hr⟩ := exists_behind_parameters name parameters before
    (Or.inr rfl) (inner.1 ++ (nameText category ++ tail))
  have hopen : spacedChar? '(' r = some (trimStart (nameText category ++ tail)) := by
    rw [spacedChar?, hr, char?, if_pos rfl, Option.map_some, trimStart_blanks_append inner.isBlank]
  have hclose : trimStart tail = ')' :: protocols.text :=
    htail ▸ trimStart_blanks_cons inner'.isBlank (by decide) _
  -- without a name only the parenthesis is left
  have hspan : (trimStart (nameText category ++ tail)).takeWhile isWordChar = nameText category ∧
      trimStart ((trimStart (nameText category ++ tail)).dropWhile isWordChar) =
        ')' :: protocols.text := by
    cases category with
    | none =>
      have hnil : nameText none = [] := rfl
      rw [hnil, List.nil_append, hclose]
      exact ⟨rfl, rfl⟩
    | some C =>
      have hC : nameText (some C) = C.1 := rfl
      have hstop : EndsWord tail := htail ▸ endsWord_blanks_cons inner'.isBlank (by decide) _
      obtain ⟨htake, hdrop⟩ := span_isWordChar_append C.2.isWord.chars hstop
      rw [hC, C.2.trimStart_append, htake, hdrop, hclose]
      exact ⟨rfl, rfl⟩
  have hbreak : '\n' ∉ protocols.text := protocols.notMem_text Listed.plain (by decide) (by decide)
  rw [Header.text, Header.keyword, Header.body, ← htail]
  simp only [categoryOpening?, after?_interfaceKeyword, blanks?_append_name, hname, hangled, hopen,
    hspan, char?, if_true, restOfLine?_of_notMem hbreak, Option.bind_eq_bind, Option.bind_some]

/-- and is no class. -/
theorem classOpening?_ofCategory :
    classOpening? (Header.text (.ofCategory space name parameters before inner category inner'
      protocols)) = none := by
  obtain ⟨t, ht⟩ : ∃ t, t = inner.1 ++ (nameText category ++ (inner'.1 ++ ')' :: protocols.text)) :=
    ⟨_, rfl⟩
  obtain ⟨hname, r, hangled, hr⟩ := exists_behind_parameters name parameters before (Or.inr rfl) t
  have hcolon : spacedChar? ':' r = none := by
    rw [spacedChar?, hr]
    rfl
  rw [Header.text, Header.keyword, Header.body, ← ht]
  simp only [classOpening?, after?_interfaceKeyword, blanks?_append_name, hname, hangled, hcolon,
    Option.bind_eq_bind, Option.bind_some, Option.bind_none]

end

/-- The opening of a protocol. -/
theorem protocolOpening?_append (space : Space) (name : Ident) {rest : Text}
    (hends : EndsWord rest) (hbreak : '\n' ∉ rest) :
    protocolOpening? (protocolKeyword ++ (space.1 ++ (name.1 ++ rest))) =
      some (name.1, rest) := by
  have hafter (t : Text) : after? "@protocol".toList (protocolKeyword ++ t) = some t :=
    Naming.after?_eq_some_iff.mpr rfl
  simp only [protocolOpening?, hafter, blanks?_append_name, word?_append name.2.isWord hends,
    restOfLine?_of_notMem hbreak, Option.bind_eq_bind, Option.bind_some]

/-! ### Headers open no enumeration -/

namespace Header

/-- The punctuation of a header, and what is written behind a forward declaration. -/
def punctuation : Header → Text
  | ofClass .. => [':', '<', ',', '>']
  | ofCategory .. => ['(', ')', '<', ',', '>']
  | ofProtocol .. => ['<', ',', '>']
  | forward _ _ _ mark rest => mark :: rest

/-- **Behind its keyword** a header has names, blanks and its punctuation. -/
theorem notMem_body {h : Header} {c : Char} (hc : isTokenChar c = false)
    (hmarks : c ∉ h.punctuation) : c ∉ h.body := by
  have hlisted (l : Angled Listed.text) (hlist : c ∉ ['<', ',', '>']) : c ∉ l.text :=
    l.notMem_text Listed.plain hc hlist
  have hparameters (l : Angled Parameter.text) (hlist : c ∉ ['<', ',', '>']) : c ∉ l.text :=
    l.notMem_text Parameter.plain hc hlist
  cases h with
  | ofClass space name parameters before behind superclass arguments protocols =>
    obtain ⟨hcolon, hlist⟩ := not_or.mp (mt List.mem_cons.mpr hmarks)
    simp [body, space.notMem hc, name.notMem hc, hparameters _ hlist, before.notMem hc, hcolon,
      behind.notMem hc, superclass.notMem hc, hlisted _ hlist]
  | ofCategory space name parameters before inner category inner' protocols =>
    obtain ⟨hopen, hmarks⟩ := not_or.mp (mt List.mem_cons.mpr hmarks)
    obtain ⟨hclose, hlist⟩ := not_or.mp (mt List.mem_cons.mpr hmarks)
    have hcategory : c ∉ nameText category := by
      cases category with
      | none => exact List.not_mem_nil
      | some C => exact C.notMem hc
    simp [body, space.notMem hc, name.notMem hc, hparameters _ hlist, before.notMem hc, hopen,
      inner.notMem hc, hcategory, inner'.notMem hc, hclose, hlisted _ hlist]
  | ofProtocol space name protocols =>
    simp [body, space.notMem hc, name.notMem hc, hlisted _ hmarks]
  | forward space name behind mark rest =>
    obtain ⟨hmark, hrest⟩ := not_or.mp (mt List.mem_cons.mpr hmarks)
    simp [body, space.notMem hc, name.notMem hc, behind.notMem hc, hmark, hrest]

/-- **A header opens no enumeration.** -/
theorem opensNone_text {h : Header} (hwf : h.WellFormed) : OpensNone h.text := by
  have hc : isTokenChar '(' = false := by decide
  have hinterface : '(' ∉ interfaceKeyword := by decide
  have hprotocol : '(' ∉ protocolKeyword := by decide
  cases h with
  | ofClass =>
    refine opensNone_of_notMem (mt List.mem_append.mp (not_or.mpr ⟨hinterface, ?_⟩))
    exact notMem_body hc (by simp [punctuation])
  | ofCategory space name parameters before inner category inner' protocols =>
    have hfront : '(' ∉ interfaceKeyword ++ (space.1 ++ (name.1 ++ (parameters.text ++
        before.1))) := by
      have hparameters := parameters.notMem_text Parameter.plain hc (by decide)
      simp [hinterface, space.notMem hc, name.notMem hc, hparameters, before.notMem hc]
    have hgap (g : Gap) : ∀ c ∈ g.1, isWordChar c = true ∨ isBlank c = true := fun c hc =>
      Or.inr (g.isBlank c hc)
    have hcategory : ∀ c ∈ nameText category, isWordChar c = true ∨ isBlank c = true := by
      cases category with
      | none => exact fun c hc => absurd hc List.not_mem_nil
      | some C => exact fun c hc => Or.inl (C.2.isWord.chars c hc)
    have hinside : ∀ c ∈ inner.1 ++ (nameText category ++ inner'.1),
        isWordChar c = true ∨ isBlank c = true :=
      List.forall_mem_append.mpr ⟨hgap inner, List.forall_mem_append.mpr ⟨hcategory, hgap inner'⟩⟩
    have h := opensNone_append_parentheses hfront hinside
      (protocols.notMem_text Listed.plain hc (by decide))
    simpa only [text, keyword, body, List.append_assoc, List.cons_append] using h
  | ofProtocol =>
    refine opensNone_of_notMem (mt List.mem_append.mp (not_or.mpr ⟨hprotocol, ?_⟩))
    exact notMem_body hc (by simp [punctuation])
  | forward space name behind mark rest =>
    obtain ⟨hmark, -, -, hrest⟩ := hwf
    have hfront : '(' ∉ protocolKeyword ++ (space.1 ++ (name.1 ++ behind.1)) := by
      simp [hprotocol, space.notMem hc, name.notMem hc, behind.notMem hc]
    have h : OpensNone (protocolKeyword ++ (space.1 ++ (name.1 ++ behind.1)) ++ mark :: rest) := by
      rcases hmark with rfl | rfl <;>
        exact opensNone_append_mark hfront hrest (by decide) (by decide) (by decide)
    simpa only [text, keyword, body, List.append_assoc] using h

end Header

/-! ### Headers that are read -/

/-- The text ends without a blank. -/
def EndsSolid (t : Text) : Prop := ∃ c ∈ t.getLast?, isBlank c = false

theorem EndsSolid.append_left {t : Text} (h : EndsSolid t) (a : Text) : EndsSolid (a ++ t) := by
  obtain ⟨c, hc, hsolid⟩ := h
  have hne : t ≠ [] := List.ne_nil_of_mem (List.mem_of_getLast? hc)
  exact ⟨c, by rwa [List.getLast?_append_of_ne_nil _ hne], hsolid⟩

theorem EndsSolid.cons {t : Text} (h : EndsSolid t) (c : Char) : EndsSolid (c :: t) :=
  h.append_left [c]

theorem endsSolid_of_isName {t : Text} (h : IsName t) : EndsSolid t :=
  ⟨t.getLast h.ne_nil, List.getLast?_eq_some_getLast h.ne_nil,
    h.isPiece.chars _ (List.getLast_mem h.ne_nil)⟩

theorem Angled.endsSolid_append {α : Type} {write : α → Text} (l : Angled write) {t : Text}
    (h : EndsSolid t) : EndsSolid (t ++ l.text) := by
  obtain ⟨inside, -, -, htext⟩ | ⟨-, -, htext⟩ := l.text_cases
  · have hclose : EndsSolid (['>'] : Text) := ⟨'>', rfl, by decide⟩
    have hlist := (hclose.append_left ('<' :: inside)).append_left (t ++ l.gap.1)
    rw [htext, ← List.append_assoc, ← List.cons_append]
    exact hlist
  · rwa [htext, List.append_nil]

theorem interfaceKeyword_eq : interfaceKeyword = '@' :: "interface".toList := by decide

theorem protocolKeyword_eq : protocolKeyword = '@' :: "protocol".toList := by decide

theorem infix_of_notMem_append {c : Char} {k a b : Text} (ha : c ∉ a) (h : c :: k <:+: a ++ b) :
    c :: k <:+: b := by
  induction a with
  | nil => exact h
  | cons d a ih =>
    obtain ⟨hd, ha⟩ := not_or.mp (mt List.mem_cons.mpr ha)
    rcases List.infix_cons_iff.mp h with h | h
    · obtain ⟨r, hr⟩ := h
      exact absurd (List.cons.inj hr).1 hd
    · exact ih ha h

theorem interfaceKeyword_of_classOpening? (t : Text) (o : ClassOpening)
    (h : classOpening? t = some o) : interfaceKeyword <+: t := by
  simp only [classOpening?, bind, Option.bind_eq_some_iff] at h
  obtain ⟨r, hafter, -⟩ := h
  exact ⟨r, (Naming.after?_eq_some_iff.mp hafter).symm⟩

theorem interfaceKeyword_of_categoryOpening? (t : Text) (o : CategoryOpening)
    (h : categoryOpening? t = some o) : interfaceKeyword <+: t := by
  simp only [categoryOpening?, bind, Option.bind_eq_some_iff] at h
  obtain ⟨r, hafter, -⟩ := h
  exact ⟨r, (Naming.after?_eq_some_iff.mp hafter).symm⟩

namespace Header

variable {h : Header}

theorem keyword_cases (h : Header) :
    h.keyword = interfaceKeyword ∨ h.keyword = protocolKeyword := by
  cases h with
  | ofClass => exact Or.inl rfl
  | ofCategory => exact Or.inl rfl
  | ofProtocol => exact Or.inr rfl
  | forward => exact Or.inr rfl

theorem exists_keyword (h : Header) : ∃ word, h.keyword = '@' :: word ∧ '@' ∉ word := by
  rcases h.keyword_cases with hk | hk
  · exact ⟨_, hk.trans interfaceKeyword_eq, by decide⟩
  · exact ⟨_, hk.trans protocolKeyword_eq, by decide⟩

theorem trimStart_text (h : Header) : trimStart h.text = h.text := by
  obtain ⟨word, hword, -⟩ := h.exists_keyword
  refine trimStart_eq_self fun c hc => ?_
  rw [text, hword] at hc
  exact Option.some.inj hc ▸ by decide

/-- A line that is a header is read as an opening. -/
theorem classify_of_trim {line : Text} (hline : trim line = h.text) :
    classify line = classifyOpening h.text := by
  unfold classify
  rw [hline, text]
  rcases h.keyword_cases with hk | hk <;>
  · rw [hk]
    rfl

/-- No interface is opened behind the keyword. -/
theorem not_infix_body (hwf : h.WellFormed) : ¬ interfaceKeyword <:+: h.body := by
  have hc : isTokenChar '@' = false := by decide
  have hkeyword {r : Text} (hr : '@' ∉ r) : ¬ interfaceKeyword <:+: r := fun h =>
    hr (h.subset (interfaceKeyword_eq ▸ List.mem_cons_self))
  cases h with
  | ofClass => exact hkeyword (notMem_body hc (by simp [punctuation]))
  | ofCategory => exact hkeyword (notMem_body hc (by simp [punctuation]))
  | ofProtocol => exact hkeyword (notMem_body hc (by simp [punctuation]))
  | forward space name behind mark rest =>
    obtain ⟨hmark, -, hrest, -⟩ := hwf
    have hfront : '@' ∉ space.1 ++ (name.1 ++ (behind.1 ++ [mark])) := by
      rcases hmark with rfl | rfl <;> simp [space.notMem hc, name.notMem hc, behind.notMem hc]
    intro h
    have hbody : body (.forward space name behind mark rest) =
        space.1 ++ (name.1 ++ (behind.1 ++ [mark])) ++ rest := by
      simp only [body, List.append_assoc, List.singleton_append]
    rw [hbody, interfaceKeyword_eq] at h
    exact hrest (interfaceKeyword_eq ▸ infix_of_notMem_append hfront h)

/-- A search for what begins with the keyword of a class comes to nothing if it does so at the start
of a header. -/
theorem search_text_eq_none (hwf : h.WellFormed) {α : Type} {recognise : Text → Option α}
    (hrecognise : ∀ t a, recognise t = some a → interfaceKeyword <+: t)
    (hnone : recognise h.text = none) : search recognise h.text = none := by
  obtain ⟨word, hword, hat⟩ := h.exists_keyword
  rw [text, hword] at hnone ⊢
  refine search_eq_none_of_keyword hrecognise hnone fun hinfix => not_infix_body hwf ?_
  rw [interfaceKeyword_eq] at hinfix ⊢
  exact infix_of_notMem_append hat hinfix

/-- Only a forward declaration may end with blanks. -/
theorem endsSolid_text (hline : h.line ≠ .forward) : EndsSolid h.text := by
  cases h with
  | ofClass space name parameters before behind superclass arguments protocols =>
    have hlists := protocols.endsSolid_append
      (arguments.endsSolid_append (endsSolid_of_isName superclass.2))
    rw [List.append_assoc] at hlists
    exact (((((hlists.append_left behind.1).cons ':').append_left before.1).append_left
      parameters.text).append_left name.1).append_left space.1 |>.append_left interfaceKeyword
  | ofCategory space name parameters before inner category inner' protocols =>
    have hclose : EndsSolid ([')'] : Text) := ⟨')', rfl, by decide⟩
    have hlist := ((protocols.endsSolid_append hclose).append_left inner'.1).append_left
      (nameText category)
    exact ((((hlist.append_left inner.1).cons '(').append_left before.1).append_left
      parameters.text).append_left name.1 |>.append_left space.1 |>.append_left interfaceKeyword
  | ofProtocol space name protocols =>
    have hname := protocols.endsSolid_append (endsSolid_of_isName name.2)
    exact (hname.append_left space.1).append_left protocolKeyword
  | forward => exact absurd rfl hline

theorem classify_of_endsSolid (hsolid : EndsSolid h.text) :
    classify h.text = classifyOpening h.text := by
  obtain ⟨c, hc, hlast⟩ := hsolid
  refine classify_of_trim ?_
  rw [trim, h.trimStart_text]
  exact trimEnd_eq_self fun d hd => by rwa [← Option.some.inj (hc.symm.trans hd)]

/-- The opening of a protocol behind its name. -/
theorem ofProtocolOpening_text (name : Text) (protocols : Angled Listed.text) :
    ofProtocolOpening name protocols.text = .protocolOpen name protocols.inside? := by
  have hlist : adoptionList? (trimStart protocols.text) [] = protocols.inside? := by
    rw [adoptionList?_nil, trimStart_trimStart, protocols.map_group?_text Listed.plain]
  have hfirst : ∀ c ∈ (trimStart protocols.text).head?, c ≠ ';' ∧ c ≠ ',' := by
    obtain ⟨inside, -, -, htext⟩ | ⟨-, -, htext⟩ := protocols.text_cases
    · rw [htext, trimStart_blanks_cons protocols.gap.isBlank (by decide)]
      exact fun c hc => Option.some.inj hc ▸ by decide
    · rw [htext]
      exact fun c hc => nomatch hc
  unfold ofProtocolOpening
  split
  · rename_i r hr
    rw [hr] at hfirst
    exact absurd rfl (hfirst ';' rfl).1
  · rename_i r hr
    rw [hr] at hfirst
    exact absurd rfl (hfirst ',' rfl).2
  · rw [hlist]

/-- What opens a protocol is read if nothing else is opened in the text. -/
theorem classifyOpening_of_protocol (hwf : h.WellFormed) (hkeyword : h.keyword = protocolKeyword)
    {name tail : Text} (hfound : protocolOpening? h.text = some (name, tail)) :
    classifyOpening h.text = ofProtocolOpening name tail := by
  have hnone : searchFrom enumOpening? none h.text = none := opensNone_text hwf
  have hclass : classOpening? h.text = none := by
    rw [text, hkeyword]
    rfl
  have hcategory : categoryOpening? h.text = none := by
    rw [text, hkeyword]
    rfl
  rw [classifyOpening, hnone, search_text_eq_none hwf interfaceKeyword_of_classOpening? hclass,
    search_text_eq_none hwf interfaceKeyword_of_categoryOpening? hcategory, search_of_some hfound]

section

variable {space : Space} {name : Ident} {behind : Gap} {mark : Char} {rest : Text}

/-- A forward declaration, without the blanks at its end. -/
theorem trim_forward (hmark : isBlank mark = false) :
    trim (forward space name behind mark rest).text =
      (forward space name behind mark (trimEnd rest)).text := by
  have hend := trimEnd_append_cons hmark (protocolKeyword ++ (space.1 ++ (name.1 ++ behind.1))) rest
  rw [trim, trimStart_text]
  simpa only [text, keyword, body, List.append_assoc] using hend

theorem wellFormed_trimEnd (hwf : (forward space name behind mark rest).WellFormed) :
    (forward space name behind mark (trimEnd rest)).WellFormed := by
  obtain ⟨hmark, hbreak, hinfix, hnone⟩ := hwf
  obtain ⟨b, hb, -⟩ := exists_append_trimEnd rest
  rw [hb] at hbreak hinfix hnone
  refine ⟨hmark, fun h => hbreak (List.mem_append_left b h), fun h => hinfix ?_, ?_⟩
  · exact h.trans (List.prefix_append _ b).isInfix
  · rw [opensNone_iff] at hnone ⊢
    intro a call r hr
    refine hnone a call (r ++ b) ?_
    rw [hr, List.append_assoc, List.append_assoc]

/-- **A protocol that is declared elsewhere.** -/
theorem classify_forward (hwf : (forward space name behind mark rest).WellFormed) :
    classify (forward space name behind mark rest).text = .forward := by
  obtain ⟨hmark, hbreak, -, -⟩ := wellFormed_trimEnd hwf
  have hpunctuation : isBlank mark = false ∧ isWordChar mark = false := by
    rcases hmark with rfl | rfl <;> decide
  have htail : '\n' ∉ behind.1 ++ mark :: trimEnd rest := by
    have hgap : '\n' ∉ behind.1 := behind.notMem (by decide)
    have hne : '\n' ≠ mark := by rcases hmark with rfl | rfl <;> decide
    simp [hgap, hne, hbreak]
  have hfound := protocolOpening?_append space name
    (endsWord_blanks_cons behind.isBlank hpunctuation.2 (trimEnd rest)) htail
  rw [classify_of_trim (trim_forward hpunctuation.1),
    classifyOpening_of_protocol (wellFormed_trimEnd hwf) rfl hfound, ofProtocolOpening,
    trimStart_blanks_cons behind.isBlank hpunctuation.1]
  rcases hmark with rfl | rfl <;> rfl

end

/-- **Headers are read as they are written.** Whatever blanks stand between the tokens, and
whichever lists are left out, a header opens the class, the category or the protocol of its name,
with its superclass and with the text of its adoption list. -/
theorem classify_text {h : Header} (hwf : h.WellFormed) : classify h.text = h.line := by
  have hnone : searchFrom enumOpening? none h.text = none := opensNone_text hwf
  cases h with
  | ofClass space name parameters before behind superclass arguments protocols =>
    have hfound := classOpening?_text space name parameters before behind superclass arguments
      protocols
    rw [classify_of_endsSolid (endsSolid_text Line.noConfusion), classifyOpening, hnone,
      search_of_some hfound]
    dsimp only
    rw [adoptionList?_text hwf.1 hwf.2]
    rfl
  | ofCategory space name parameters before inner category inner' protocols =>
    have hclass := search_text_eq_none hwf interfaceKeyword_of_classOpening?
      (classOpening?_ofCategory space name parameters before inner category inner' protocols)
    have hfound := categoryOpening?_text space name parameters before inner category inner'
      protocols
    rw [classify_of_endsSolid (endsSolid_text Line.noConfusion), classifyOpening, hnone, hclass,
      search_of_some hfound]
    dsimp only
    rw [adoptionList?_nil, protocols.map_group?_text Listed.plain]
    rfl
  | ofProtocol space name protocols =>
    have hbreak : '\n' ∉ protocols.text :=
      protocols.notMem_text Listed.plain (by decide) (by decide)
    have hfound := protocolOpening?_append space name protocols.endsWord hbreak
    rw [classify_of_endsSolid (endsSolid_text Line.noConfusion),
      classifyOpening_of_protocol hwf rfl hfound, ofProtocolOpening_text]
    rfl
  | forward space name behind mark rest => exact classify_forward hwf

/-- A class with parameters, whose arguments stand in front of its protocols, with blanks at odd
places; and two protocols that are declared elsewhere. -/
theorem classify_text_generic :
    classify "@interface Box\t< __covariant  Kind ,Other> :Base<Other> < First,  Second >".toList =
        .classOpen "Box".toList "Base".toList (some " First,  Second ".toList) false ∧
      classify "@protocol First , Second; ".toList = .forward := by
  let none' : Gap := ⟨[], by decide⟩
  let one : Gap := ⟨[' '], by decide⟩
  let space : Space := ⟨[' '], by decide⟩
  let kind : Parameter := ⟨⟨one, ⟨"Kind".toList, by decide⟩, one⟩,
    some (.covariant, ⟨[' ', ' '], by decide⟩)⟩
  let other : Listed := ⟨none', ⟨"Other".toList, by decide⟩, none'⟩
  let first : Listed := ⟨one, ⟨"First".toList, by decide⟩, none'⟩
  let second : Listed := ⟨⟨[' ', ' '], by decide⟩, ⟨"Second".toList, by decide⟩, one⟩
  let box : Header := .ofClass space ⟨"Box".toList, by decide⟩
    ⟨⟨['\t'], by decide⟩, [kind, ⟨other, none⟩]⟩ one none' ⟨"Base".toList, by decide⟩
    ⟨none', [other]⟩ ⟨one, [first, second]⟩
  let names : Header := .forward space first.name one ',' " Second; ".toList
  have hbox : box.text =
      "@interface Box\t< __covariant  Kind ,Other> :Base<Other> < First,  Second >".toList := by
    decide +kernel
  have hnames : names.text = "@protocol First , Second; ".toList := by decide +kernel
  have hclass : classify box.text = box.line :=
    classify_text ⟨by decide +kernel, by decide +kernel⟩
  have hforward : classify names.text = names.line :=
    classify_text ⟨Or.inr rfl, by decide +kernel, by decide +kernel, by decide +kernel⟩
  rw [hbox] at hclass
  rw [hnames] at hforward
  exact ⟨hclass, hforward⟩

end Header

end Line

end CommonHeaders
