import CommonHeaders.Header.Scan
import CommonHeaders.Proofs.Brackets
import CommonHeaders.Proofs.Recognisers
import Mathlib.Data.Fin.VecNotation
import Mathlib.Data.List.Basic

/-! # Texts that open no enumeration

An enumeration is opened by one of its macros with two words as arguments, anywhere in a line but
not within a word. Such a call begins with a letter, ends with a parenthesis, has no braces, and its
one comma stands inside of its parentheses. So texts that open none do not come to open one when
they are put together with a comma or a brace between them, as long as their brackets are nested.

* `EnumCall`, `enumCall?_text`, `exists_enumCall`: how an enumeration is opened.
* `opensNone_iff`: every call in a text that opens none goes on a word.
* `opensNone_append_cons`: texts put together.
* `opensNone_of_notMem`, `opensNone_append_parentheses`: texts that cannot have a call in them.
* `opensEnum_eq_false`: a line that opens no enumeration. -/

namespace CommonHeaders

open Text

namespace Line

/-! ### Calls that open an enumeration -/

/-- **A call that opens an enumeration**: a macro with two words as arguments. -/
structure EnumCall where
  macroName : Text
  underlying : Text
  name : Text
  /-- The blanks around the punctuation, from left to right. -/
  blanks : Fin 5 → Text
  isMacro : macroName ∈ enumMacros
  underlying_isWord : IsWord underlying
  name_isWord : IsWord name
  blanks_isBlank : ∀ k, ∀ c ∈ blanks k, isBlank c = true

namespace EnumCall

variable (call : EnumCall)

/-- The call up to the comma between its arguments. -/
def beforeComma : Text :=
  call.macroName ++ (call.blanks 0 ++ '(' :: (call.blanks 1 ++ (call.underlying ++ call.blanks 2)))

/-- The call from behind the comma on. -/
def behindComma : Text := call.blanks 3 ++ (call.name ++ (call.blanks 4 ++ [')']))

def text : Text := call.beforeComma ++ ',' :: call.behindComma

/-- The call up to its opening parenthesis. -/
def front : Text := call.macroName ++ call.blanks 0

/-- The call from behind the parenthesis up to the comma. -/
def firstArgument : Text := call.blanks 1 ++ (call.underlying ++ call.blanks 2)

end EnumCall

/-- **A call is read**, whatever stands behind it. -/
theorem enumCall?_text (call : EnumCall) (tail : Text) :
    enumCall? call.macroName (call.text ++ tail) =
      some ⟨call.macroName, call.underlying, call.name, tail⟩ := by
  have hb := call.blanks_isBlank
  have htext : call.text ++ tail = call.macroName ++ (call.blanks 0 ++ '(' :: (call.blanks 1 ++
      (call.underlying ++ (call.blanks 2 ++ ',' :: (call.blanks 3 ++ (call.name ++
        (call.blanks 4 ++ ')' :: tail))))))) := by
    simp only [EnumCall.text, EnumCall.beforeComma, EnumCall.behindComma, List.append_assoc,
      List.cons_append, List.nil_append]
  have hafter (r : Text) : after? call.macroName (call.macroName ++ r) = some r := by
    rw [Naming.after?_eq_some_iff]
  have hopen (r : Text) := spacedChar?_append (c := '(') (by decide) (hb 0) (hb 1) r
  have hcomma (r : Text) := spacedChar?_append (c := ',') (by decide) (hb 2) (hb 3) r
  have hclose (r : Text) := char?_append (c := ')') (by decide) (hb 4) r
  have hunderlying (r : Text) := word?_append call.underlying_isWord
    (endsWord_blanks_cons (hb 2) (c := ',') (by decide) r)
  have hname (r : Text) := word?_append call.name_isWord
    (endsWord_blanks_cons (hb 4) (c := ')') (by decide) r)
  rw [htext, enumCall?]
  simp only [hafter, hopen, call.underlying_isWord.trimStart_append, hunderlying, hcomma,
    call.name_isWord.trimStart_append, hname, hclose, Option.bind_eq_bind, Option.bind_some]

/-- **What is read is a call.** -/
theorem exists_enumCall {m t : Text} {o : EnumOpening} (hm : m ∈ enumMacros)
    (h : enumCall? m t = some o) : ∃ call : EnumCall, t = call.text ++ o.tail := by
  simp only [enumCall?, bind, Option.bind_eq_some_iff, Prod.exists, Option.some.injEq] at h
  obtain ⟨r, hafter, r1, hopen, underlying, r2, hunderlying, r3, hcomma, name, r4, hname, tail,
    hclose, rfl⟩ := h
  obtain rfl := Naming.after?_eq_some_iff.mp hafter
  obtain ⟨b0, b1, hb0, hb1, rfl⟩ := exists_of_spacedChar? hopen
  obtain ⟨rfl, hword⟩ := exists_of_word? hunderlying
  obtain ⟨b2, b3, hb2, hb3, rfl⟩ := exists_of_spacedChar? hcomma
  obtain ⟨rfl, hword'⟩ := exists_of_word? hname
  obtain ⟨b4, hb4, rfl⟩ := exists_of_char? hclose
  refine ⟨⟨m, underlying, name, ![b0, b1, b2, b3, b4], hm, hword, hword', ?_⟩, ?_⟩
  · intro k
    match k with
    | 0 => exact hb0
    | 1 => exact hb1
    | 2 => exact hb2
    | 3 => exact hb3
    | 4 => exact hb4
  · simp only [EnumCall.text, EnumCall.beforeComma, EnumCall.behindComma, List.append_assoc,
      List.cons_append, List.nil_append]
    rfl

/-! ### The shape of a call -/

namespace EnumCall

variable (call : EnumCall)

theorem macroName_cases : ∃ r, call.macroName = 'N' :: r ∧ ∀ c ∈ r, isWordChar c = true := by
  have hall : ∀ m ∈ enumMacros, m = 'N' :: m.tail ∧ m.tail.all isWordChar = true := by
    decide +kernel
  obtain ⟨hhead, htail⟩ := hall call.macroName call.isMacro
  exact ⟨_, hhead, List.all_eq_true.mp htail⟩

theorem head?_text : call.text.head? = some 'N' := by
  obtain ⟨r, hr, -⟩ := call.macroName_cases
  rw [text, beforeComma, hr]
  rfl

theorem text_ne_nil : call.text ≠ [] := fun he => by
  have hhead := call.head?_text
  rw [he] at hhead
  cases hhead

theorem beforeComma_eq : call.beforeComma = call.front ++ '(' :: call.firstArgument := by
  simp only [beforeComma, front, firstArgument, List.append_assoc]

/-- A call is of word characters, blanks, and punctuation of its own. -/
theorem chars_front : ∀ c ∈ call.front, isWordChar c = true ∨ isBlank c = true := by
  obtain ⟨r, hr, hchars⟩ := call.macroName_cases
  intro c hc
  rcases List.mem_append.mp hc with hc | hc
  · rw [hr] at hc
    rcases List.mem_cons.mp hc with rfl | hc
    · exact Or.inl (by decide)
    · exact Or.inl (hchars c hc)
  · exact Or.inr (call.blanks_isBlank 0 c hc)

theorem chars_firstArgument : ∀ c ∈ call.firstArgument, isWordChar c = true ∨ isBlank c = true := by
  intro c hc
  rcases List.mem_append.mp hc with hc | hc
  · exact Or.inr (call.blanks_isBlank 1 c hc)
  · rcases List.mem_append.mp hc with hc | hc
    · exact Or.inl (call.underlying_isWord.chars c hc)
    · exact Or.inr (call.blanks_isBlank 2 c hc)

theorem chars_beforeComma : ∀ c ∈ call.beforeComma,
    isWordChar c = true ∨ isBlank c = true ∨ c = '(' := by
  intro c hc
  rw [beforeComma_eq] at hc
  rcases List.mem_append.mp hc with hc | hc
  · exact (call.chars_front c hc).imp_right Or.inl
  · rcases List.mem_cons.mp hc with rfl | hc
    · exact Or.inr (Or.inr rfl)
    · exact (call.chars_firstArgument c hc).imp_right Or.inl

theorem chars_behindComma : ∀ c ∈ call.behindComma,
    isWordChar c = true ∨ isBlank c = true ∨ c = ')' := by
  intro c hc
  simp only [behindComma, List.mem_append, List.mem_singleton] at hc
  rcases hc with hc | hc | hc | hc
  · exact Or.inr (Or.inl (call.blanks_isBlank 3 c hc))
  · exact Or.inl (call.name_isWord.chars c hc)
  · exact Or.inr (Or.inl (call.blanks_isBlank 4 c hc))
  · exact Or.inr (Or.inr hc)

/-- A character of punctuation that is in no call. -/
theorem notMem_text {c : Char} (hword : isWordChar c = false) (hblank : isBlank c = false)
    (hc : c ≠ '(' ∧ c ≠ ',' ∧ c ≠ ')') : c ∉ call.text := by
  rintro hmem
  rcases List.mem_append.mp hmem with hmem | hmem
  · rcases call.chars_beforeComma c hmem with h | h | h
    · exact absurd (hword.symm.trans h) Bool.false_ne_true
    · exact absurd (hblank.symm.trans h) Bool.false_ne_true
    · exact hc.1 h
  · rcases List.mem_cons.mp hmem with h | hmem
    · exact hc.2.1 h
    · rcases call.chars_behindComma c hmem with h | h | h
      · exact absurd (hword.symm.trans h) Bool.false_ne_true
      · exact absurd (hblank.symm.trans h) Bool.false_ne_true
      · exact hc.2.2 h

/-- **The comma of a call** stands inside of its parentheses. -/
theorem nest?_of_comma {outside : Char → Bool} {a b waiting after : Text}
    (h : call.text = a ++ ',' :: b) (hnest : nest? outside waiting a = some after) :
    after ≠ [] := by
  have hbefore : ',' ∉ call.beforeComma := fun hmem => by
    rcases call.chars_beforeComma _ hmem with h | h | h
    · exact ne_of_kind h (by decide) rfl
    · exact ne_of_kind h (by decide) rfl
    · exact absurd h (by decide)
  have hbehind : ',' ∉ call.behindComma := fun hmem => by
    rcases call.chars_behindComma _ hmem with h | h | h
    · exact ne_of_kind h (by decide) rfl
    · exact ne_of_kind h (by decide) rfl
    · exact absurd h (by decide)
  obtain ⟨ha, -, -⟩ := (List.append_cons_inj_of_notMem hbefore hbehind).mp h
  -- behind the opening parenthesis come blanks and a word
  have hinside (below : Text) :
      nest? outside (')' :: below) call.firstArgument = some (')' :: below) := by
    refine nest?_of_not_isBracket (fun c hc => ?_) (Or.inl (List.cons_ne_nil _ _))
    rcases call.chars_firstArgument c hc with hword | hblank
    · exact eq_false_of_kind mem_brackets (by decide) hword
    · exact eq_false_of_kind mem_brackets (by decide) hblank
  rw [← ha, beforeComma_eq, nest?_append] at hnest
  obtain ⟨w, -, hnest⟩ := Option.bind_eq_some_iff.mp hnest
  have hopen : nestStep? outside w '(' = some (')' :: w) := rfl
  rw [nest?, hopen, Option.bind_some, hinside] at hnest
  rw [← Option.some.inj hnest]
  exact List.cons_ne_nil _ _

end EnumCall

/-! ### Texts without openings -/

/-- **The text opens no enumeration.** -/
def OpensNone (t : Text) : Prop := searchFrom enumOpening? none t = none

instance (t : Text) : Decidable (OpensNone t) :=
  decidable_of_iff ((searchFrom enumOpening? none t).isNone = true) Option.isNone_iff_eq_none

/-- **A text opens no enumeration** exactly if every call in it goes on a word. -/
theorem opensNone_iff {t : Text} : OpensNone t ↔
    ∀ (a : Text) (call : EnumCall) (b : Text), t = a ++ (call.text ++ b) →
      a.getLast?.any isWordChar = true := by
  rw [OpensNone, searchFrom_eq_none_iff]
  constructor
  · intro h a call b hab
    by_contra hword
    have hnone := h a (call.text ++ b) hab
    rw [Option.or_none, enumOpening?, if_neg hword, List.findSome?_eq_none_iff] at hnone
    have hcall := hnone call.macroName call.isMacro
    rw [enumCall?_text] at hcall
    cases hcall
  · intro h a b hab
    rw [Option.or_none, enumOpening?]
    split
    · rfl
    · rename_i hword
      refine List.findSome?_eq_none_iff.mpr fun m hm => ?_
      refine Option.eq_none_iff_forall_ne_some.mpr fun o ho => ?_
      obtain ⟨call, rfl⟩ := exists_enumCall hm ho
      exact hword (h a call o.tail hab)

/-- **Texts that open no enumeration, put together** around a character that no call goes over. -/
theorem opensNone_append_cons {t r : Text} {c : Char} (ht : OpensNone t) (hr : OpensNone r)
    (hword : isWordChar c = false)
    (hcall : ∀ (call : EnumCall) (a x y : Text), t = a ++ x → call.text ≠ x ++ c :: y) :
    OpensNone (t ++ c :: r) := by
  rw [opensNone_iff] at ht hr ⊢
  intro a call b hab
  rcases List.append_eq_append_iff.mp hab with ⟨a', rfl, ha'⟩ | ⟨x, htx, hx⟩
  · cases a' with
    | nil =>
      -- the call would begin with the character
      have hhead := congrArg List.head? ha'
      rw [List.nil_append, List.head?_append_of_ne_nil _ call.text_ne_nil, call.head?_text] at hhead
      rw [Option.some.inj hhead] at hword
      exact absurd hword (by decide)
    | cons d a' =>
      obtain ⟨rfl, hr'⟩ := List.cons.inj ha'
      have hlast := hr a' call b hr'
      have hne : a' ≠ [] := fun he => by rw [he] at hlast; cases hlast
      rwa [List.getLast?_append_of_ne_nil _ (List.cons_ne_nil _ _),
        List.getLast?_cons_of_ne_nil hne]
  · rcases List.append_eq_append_iff.mp hx with ⟨y, rfl, -⟩ | ⟨y, hy, hcons⟩
    · exact ht a call y htx
    · cases y with
      | nil =>
        rw [List.append_nil] at hy
        exact ht a call [] (by rw [List.append_nil, hy]; exact htx)
      | cons d y =>
        obtain ⟨rfl, -⟩ := List.cons.inj hcons
        exact absurd hy (hcall call a x y htx)

/-- Without a parenthesis no enumeration is opened, -/
theorem opensNone_of_notMem {t : Text} (h : '(' ∉ t) : OpensNone t := by
  refine opensNone_iff.mpr fun a call b hab => absurd ?_ h
  rw [hab, EnumCall.text, EnumCall.beforeComma_eq]
  simp

/-- nor is one behind such a text and a mark. -/
theorem opensNone_append_mark {t r : Text} {c : Char} (ht : '(' ∉ t) (hr : OpensNone r)
    (hword : isWordChar c = false) (hblank : isBlank c = false) (hc : c ≠ '(') :
    OpensNone (t ++ c :: r) := by
  refine opensNone_append_cons (opensNone_of_notMem ht) hr hword fun call a x y htx hcall => ?_
  have hx : '(' ∉ x := fun h => ht (htx ▸ List.mem_append_right a h)
  rw [EnumCall.text, EnumCall.beforeComma_eq, List.append_assoc, List.cons_append] at hcall
  -- the mark would stand in front of the parenthesis of the call
  have hmem : c ∈ call.front := by
    rcases List.append_eq_append_iff.mp hcall with ⟨x', rfl, hx'⟩ | ⟨y', hfront, hy'⟩
    · cases x' with
      | nil => exact absurd (List.cons.inj hx').1.symm hc
      | cons d x' =>
        obtain ⟨rfl, -⟩ := List.cons.inj hx'
        exact absurd (List.mem_append_right _ List.mem_cons_self) hx
    · cases y' with
      | nil => exact absurd (List.cons.inj hy').1 hc
      | cons d y' =>
        obtain ⟨rfl, -⟩ := List.cons.inj hy'
        rw [hfront]
        exact List.mem_append_right x List.mem_cons_self
  rcases call.chars_front c hmem with h | h
  · exact Bool.false_ne_true (hword.symm.trans h)
  · exact Bool.false_ne_true (hblank.symm.trans h)

/-- A word or blanks in parentheses open no enumeration. -/
theorem opensNone_append_parentheses {t w r : Text} (ht : '(' ∉ t)
    (hw : ∀ c ∈ w, isWordChar c = true ∨ isBlank c = true) (hr : '(' ∉ r) :
    OpensNone (t ++ '(' :: (w ++ ')' :: r)) := by
  refine opensNone_iff.mpr fun a call b hab => ?_
  have hrest : '(' ∉ w ++ ')' :: r := by
    have hparen : '(' ∉ w := fun h => absurd (hw _ h) (by decide)
    simp [hparen, hr]
  have hcall : a ++ (call.text ++ b) =
      (a ++ call.front) ++ '(' :: (call.firstArgument ++ ',' :: (call.behindComma ++ b)) := by
    simp only [EnumCall.text, EnumCall.beforeComma_eq, List.append_assoc, List.cons_append]
  rw [hcall] at hab
  obtain ⟨-, -, hinside⟩ := (List.append_cons_inj_of_notMem ht hrest).mp hab
  have hdrop := congrArg (List.dropWhile fun c => isWordChar c || isBlank c) hinside
  rw [List.dropWhile_append_of_pos fun c hc => (Bool.or_eq_true _ _).mpr (hw c hc),
    List.dropWhile_append_of_pos fun c hc =>
      (Bool.or_eq_true _ _).mpr (call.chars_firstArgument c hc),
    List.dropWhile_cons_of_neg (by decide), List.dropWhile_cons_of_neg (by decide)] at hdrop
  exact absurd (List.cons.inj hdrop).1 (by decide)

/-- Blanks in front open none either. -/
theorem opensNone_blanks_append {b t : Text} (hb : ∀ c ∈ b, isBlank c = true) (h : OpensNone t) :
    OpensNone (b ++ t) := by
  induction b with
  | nil => exact h
  | cons c b ih =>
    have hc := hb c List.mem_cons_self
    refine opensNone_append_cons (t := []) rfl (ih fun d hd => hb d (List.mem_cons_of_mem c hd))
      (isWordChar_of_isBlank hc) fun call a x y hax hcall => ?_
    obtain ⟨-, rfl⟩ := List.append_eq_nil_iff.mp hax.symm
    have hhead := call.head?_text
    rw [hcall] at hhead
    exact ne_of_kind hc (by decide) (Option.some.inj hhead)

/-- **Nested texts with a comma between them.** -/
theorem opensNone_append_comma {outside : Char → Bool} {t r : Text} (ht : OpensNone t)
    (hnests : Nests outside t) (hr : OpensNone r) : OpensNone (t ++ ',' :: r) := by
  refine opensNone_append_cons ht hr (by decide) fun call a x y htx hcall => ?_
  rw [Nests, htx, nest?_append] at hnests
  obtain ⟨waiting, -, hx⟩ := Option.bind_eq_some_iff.mp hnests
  exact call.nest?_of_comma hcall hx rfl

/-- **Texts with a brace between them.** -/
theorem opensNone_append_brace {t r : Text} {c : Char} (hc : c = '\x7b' ∨ c = '\x7d')
    (ht : OpensNone t) (hr : OpensNone r) : OpensNone (t ++ c :: r) := by
  refine opensNone_append_cons ht hr (by rcases hc with rfl | rfl <;> decide)
    fun call a x y _ hcall => ?_
  have hno : c ∉ call.text := by
    rcases hc with rfl | rfl <;>
      exact call.notMem_text (by decide) (by decide) (And.intro (by decide)
        (And.intro (by decide) (by decide)))
  exact hno (by rw [hcall]; exact List.mem_append_right x List.mem_cons_self)

/-- Trimming leaves no opening. -/
theorem opensNone_trim {t : Text} (h : OpensNone t) : OpensNone (trim t) := by
  rw [opensNone_iff] at h ⊢
  intro a call b hab
  obtain ⟨front, hfront, ht⟩ := exists_blanks_trimStart t
  obtain ⟨back, hback, -⟩ := exists_append_trimEnd (trimStart t)
  have htext : t = (front ++ a) ++ (call.text ++ (b ++ back)) := by
    conv_lhs => rw [ht, hback]
    change front ++ (trim t ++ back) = _
    rw [hab]
    simp only [List.append_assoc]
  have hlast := h (front ++ a) call (b ++ back) htext
  cases a with
  | nil =>
    obtain ⟨c, hc, hword⟩ := (Option.any_eq_true _ _).mp hlast
    rw [List.append_nil] at hc
    rw [isWordChar_of_isBlank (hfront c (List.mem_of_getLast? hc))] at hword
    cases hword
  | cons d a => rwa [List.getLast?_append_of_ne_nil _ (List.cons_ne_nil _ _)] at hlast

/-- **A line without an opening** opens no enumeration. -/
theorem classify_ne_enumOpen {line : Text} (h : OpensNone line) {kind : EnumKind}
    {underlying name : Text} {body : Option Text} :
    classify line ≠ .enumOpen kind underlying name body := by
  have hopening : classifyOpening (trim line) ≠ .enumOpen kind underlying name body := by
    have hnone : searchFrom enumOpening? none (trim line) = none := opensNone_trim h
    rw [classifyOpening, hnone]
    dsimp only
    split
    · simp
    · split
      · simp
      · split
        · unfold ofProtocolOpening
          split <;> simp
        · split <;> simp
  unfold classify
  dsimp only
  repeat' split
  all_goals first | exact hopening | simp

end Line

theorem Scan.opensEnum_eq_false {line : Text} (h : Line.OpensNone line) :
    Scan.opensEnum line = false := by
  unfold Scan.opensEnum
  split
  · rename_i hclassify
    exact absurd hclassify (Line.classify_ne_enumOpen h)
  · rfl

end CommonHeaders
