import CommonHeaders.Command.Run
import Mathlib.Data.List.Basic

/-! # Failed runs

A run loads its settings, then the headers of either platform, and only when all of this is done
does it begin to write. So whatever stands in the way of loading, and however much has been loaded
before it is met, the run leaves no trace but its message.

* `Blocked`, `Obstacle`: what may stand in the way, each wherever it stands among the patterns.
* `fails_loadSources_iff`, `fails_load_iff`: loading fails exactly if there is an obstacle.
* `run_without_trace`: what a run leaves behind if there is one. -/

namespace CommonHeaders

open Files Text

/-! ### Failing in a row -/

section Fails

variable {ε ε' α β : Type}

/-- The computation ends with an error. -/
def Fails (x : Except ε α) : Prop := ∃ e, x = .error e

theorem fails_error (e : ε) : Fails (.error e : Except ε α) := ⟨e, rfl⟩

theorem not_fails_ok (a : α) : ¬ Fails (.ok a : Except ε α) := by
  rintro ⟨e, h⟩
  cases h

theorem exists_of_not_fails {x : Except ε α} (h : ¬ Fails x) : ∃ a, x = .ok a := by
  cases x with
  | error e => exact absurd (fails_error e) h
  | ok a => exact ⟨a, rfl⟩

/-- **One thing after another** fails if the first does, or the second on what the first has given. -/
theorem fails_bind_iff {x : Except ε α} {f : α → Except ε β} :
    Fails (x >>= f) ↔ Fails x ∨ ∃ a, x = .ok a ∧ Fails (f a) := by
  cases x with
  | error e =>
    have hfirst : Fails (.error e >>= f) := fails_error e
    exact iff_of_true hfirst (Or.inl (fails_error e))
  | ok a =>
    have hsecond : (.ok a >>= f) = f a := rfl
    rw [hsecond]
    constructor
    · exact fun h => Or.inr ⟨a, rfl, h⟩
    · rintro (h | ⟨b, hb, h⟩)
      · exact absurd h (not_fails_ok a)
      · rw [Except.ok.inj hb]
        exact h

theorem fails_mapError_iff {x : Except ε α} {f : ε → ε'} : Fails (x.mapError f) ↔ Fails x := by
  cases x with
  | error e => exact iff_of_true (fails_error (f e)) (fails_error e)
  | ok a => exact iff_of_false (not_fails_ok a) (not_fails_ok a)

/-- **The same for every member of a list** fails if it does for one of them. -/
theorem fails_mapM_iff {f : α → Except ε β} {l : List α} :
    Fails (l.mapM f) ↔ ∃ a ∈ l, Fails (f a) := by
  induction l with
  | nil => exact iff_of_false (not_fails_ok []) (by simp)
  | cons a rest ih =>
    rw [List.mapM_cons, fails_bind_iff, List.exists_mem_cons_iff, ← ih]
    constructor
    · rintro (h | ⟨b, -, h⟩)
      · exact Or.inl h
      · rcases fails_bind_iff.mp h with h | ⟨bs, -, h⟩
        · exact Or.inr h
        · exact absurd h (not_fails_ok _)
    · rintro (h | h)
      · exact Or.inl h
      · by_cases hfirst : Fails (f a)
        · exact Or.inl hfirst
        · obtain ⟨b, hb⟩ := exists_of_not_fails hfirst
          exact Or.inr ⟨b, hb, fails_bind_iff.mpr (Or.inl h)⟩

/-- What has been made of a list has been made of its members. -/
theorem mem_of_mapM_eq_ok {f : α → Except ε β} {l : List α} {bs : List β}
    (h : l.mapM f = .ok bs) (b : β) : b ∈ bs ↔ ∃ a ∈ l, f a = .ok b := by
  induction l generalizing bs with
  | nil =>
    have hnil : bs = [] := (Except.ok.inj h).symm
    simp [hnil]
  | cons a rest ih =>
    rw [List.mapM_cons] at h
    cases hfirst : f a with
    | error e =>
      rw [hfirst] at h
      cases h
    | ok first =>
      cases hrest : rest.mapM f with
      | error e =>
        rw [hfirst, hrest] at h
        cases h
      | ok others =>
        rw [hfirst, hrest] at h
        have hbs : bs = first :: others := (Except.ok.inj h).symm
        rw [hbs, List.mem_cons, List.exists_mem_cons_iff, ih hrest, hfirst, Except.ok.injEq,
          eq_comm]

end Fails

namespace Command

variable {a : Answers}

/-! ### Obstacles -/

/-- **No text can be read** at the path: no content is given, or its bytes are no text. -/
def Unreadable (a : Answers) (path : Text) : Prop :=
  ∀ content, a.content path = .ok content → ¬ content.IsValidUTF8

/-- **The path is selected** by a given pattern: it is the pattern, if that has no special
characters, or is found by it. -/
inductive Selects (a : Answers) (given : Text) : Text → Prop where
  | itself (h : isSearched (effectivePattern a given) = false) :
    Selects a given (effectivePattern a given)
  | found {entries : List (Except Refused Text)} {path : Text}
    (h : isSearched (effectivePattern a given) = true)
    (hfound : a.found (effectivePattern a given) = .ok entries) (hpath : .ok path ∈ entries) :
    Selects a given path

/-- **The headers of a platform cannot be loaded**: one of the patterns is malformed, or finds
nothing, or comes to a path that is refused, or selects what cannot be read. -/
inductive Blocked (a : Answers) (patterns : List Text) : Prop where
  | malformed {given : Text} {e : PatternError} (hgiven : given ∈ patterns)
    (h : isSearched (effectivePattern a given) = true)
    (he : a.found (effectivePattern a given) = .error e)
  | nothingFound {given : Text} (hgiven : given ∈ patterns)
    (h : isSearched (effectivePattern a given) = true)
    (hnone : a.found (effectivePattern a given) = .ok [])
  | refused {given : Text} {entries : List (Except Refused Text)} {r : Refused}
    (hgiven : given ∈ patterns) (h : isSearched (effectivePattern a given) = true)
    (hfound : a.found (effectivePattern a given) = .ok entries) (hr : .error r ∈ entries)
  | unreadable {given path : Text} (hgiven : given ∈ patterns) (hpath : Selects a given path)
    (h : Unreadable a path)

/-- **What stands in the way** of loading the whole input. -/
inductive Obstacle (a : Answers) (inputs : Inputs) : Prop where
  | settingsUnreadable {path : Text} (hpath : inputs.settings = some path)
    (h : Unreadable a path)
  | settingsRefused {path text : Text} {e : Settings.ReadError}
    (hpath : inputs.settings = some path) (htext : a.read path = .ok text)
    (he : Settings.read text = .error e)
  | mobile (h : Blocked a inputs.mobile)
  | desktop (h : Blocked a inputs.desktop)

/-! ### Loading fails at obstacles -/

/-- Bytes are a text exactly if they are valid. -/
theorem fails_textOf_iff {content : ByteArray} :
    Fails (textOf content) ↔ ¬ content.IsValidUTF8 := by
  by_cases hvalid : content.IsValidUTF8
  · have htext : String.fromUTF8? content = some (String.fromUTF8 content hvalid) := dif_pos hvalid
    rw [textOf, htext]
    exact iff_of_false (not_fails_ok _) (not_not_intro hvalid)
  · have htext : String.fromUTF8? content = none := dif_neg hvalid
    rw [textOf, htext]
    exact iff_of_true (fails_error Failure.notText) hvalid

theorem fails_read_iff {path : Text} : Fails (a.read path) ↔ Unreadable a path := by
  rw [Answers.read, fails_bind_iff, Unreadable]
  simp only [fails_textOf_iff]
  cases hcontent : a.content path with
  | error e => exact iff_of_true (Or.inl (fails_error e)) fun content h => by cases h
  | ok content =>
    constructor
    · rintro (h | ⟨content', hc, h⟩) content'' hc'
      · exact absurd h (not_fails_ok content)
      · rw [← Except.ok.inj hc', Except.ok.inj hc]
        exact h
    · exact fun h => Or.inr ⟨content, rfl, h content rfl⟩

theorem fails_loadSource_iff {path : Text} : Fails (loadSource a path) ↔ Unreadable a path := by
  rw [← fails_read_iff, loadSource]
  cases a.read path with
  | error e => exact iff_of_true (fails_error _) (fails_error e)
  | ok text => exact iff_of_false (not_fails_ok _) (not_fails_ok text)

theorem foundPath_eq_ok_iff {entry : Except Refused Text} {path : Text} :
    foundPath entry = .ok path ↔ entry = .ok path := by
  cases entry with
  | error r => exact iff_of_false nofun nofun
  | ok found =>
    have hok : foundPath (.ok found) = .ok found := rfl
    rw [hok, Except.ok.injEq, Except.ok.injEq]

/-- A pattern without special characters stands for itself. -/
theorem lookUp_plain {given : Text} (h : isSearched (effectivePattern a given) = false) :
    lookUp a given = .ok [effectivePattern a given] := by
  rw [lookUp, h]
  rfl

theorem lookUp_malformed {given : Text} {e : PatternError}
    (h : isSearched (effectivePattern a given) = true)
    (he : a.found (effectivePattern a given) = .error e) :
    lookUp a given = .error (.badPattern (effectivePattern a given) e) := by
  rw [lookUp, h, he]
  rfl

/-- A pattern that can be read stands for what it finds, which may not be nothing. -/
theorem lookUp_searched {given : Text} {entries : List (Except Refused Text)}
    (h : isSearched (effectivePattern a given) = true)
    (hfound : a.found (effectivePattern a given) = .ok entries) :
    lookUp a given =
      if entries = [] then .error (.nothingFound (effectivePattern a given))
      else entries.mapM foundPath := by
  rw [lookUp, h, hfound]
  cases entries with
  | nil => rfl
  | cons first rest => rfl

/-- What a look-up gives is what the pattern selects. -/
theorem mem_lookUp {given : Text} {paths : List Text} (h : lookUp a given = .ok paths)
    (path : Text) : path ∈ paths ↔ Selects a given path := by
  cases hsearched : isSearched (effectivePattern a given) with
  | false =>
    rw [lookUp_plain hsearched] at h
    rw [← Except.ok.inj h, List.mem_singleton]
    constructor
    · rintro rfl
      exact .itself hsearched
    · rintro (_ | ⟨htrue, -, -⟩)
      · rfl
      · rw [hsearched] at htrue
        cases htrue
  | true =>
    cases hfound : a.found (effectivePattern a given) with
    | error e =>
      rw [lookUp_malformed hsearched hfound] at h
      cases h
    | ok entries =>
      have hpaths : entries.mapM foundPath = .ok paths := by
        rw [lookUp_searched hsearched hfound] at h
        split at h
        · cases h
        · exact h
      rw [mem_of_mapM_eq_ok hpaths]
      simp only [foundPath_eq_ok_iff, exists_eq_right]
      constructor
      · exact .found hsearched hfound
      · rintro (hfalse | ⟨-, hfound', hpath⟩)
        · rw [hsearched] at hfalse
          cases hfalse
        · rw [hfound] at hfound'
          rw [Except.ok.inj hfound']
          exact hpath

/-- A look-up fails if the pattern is malformed, finds nothing, or comes to a path that is
refused. -/
theorem fails_lookUp_iff {given : Text} : Fails (lookUp a given) ↔
    isSearched (effectivePattern a given) = true ∧
      (Fails (a.found (effectivePattern a given)) ∨
        ∃ entries, a.found (effectivePattern a given) = .ok entries ∧
          (entries = [] ∨ ∃ r, .error r ∈ entries)) := by
  cases hsearched : isSearched (effectivePattern a given) with
  | false =>
    rw [lookUp_plain hsearched]
    exact iff_of_false (not_fails_ok _) fun h => Bool.false_ne_true h.1
  | true =>
    cases hfound : a.found (effectivePattern a given) with
    | error e =>
      rw [lookUp_malformed hsearched hfound]
      exact iff_of_true (fails_error _) ⟨rfl, Or.inl (fails_error e)⟩
    | ok entries =>
      have hrefused : Fails (entries.mapM foundPath) ↔ ∃ r, .error r ∈ entries := by
        rw [fails_mapM_iff]
        constructor
        · rintro ⟨entry, hentry, h⟩
          obtain ⟨r, rfl⟩ := fails_mapError_iff.mp h
          exact ⟨r, hentry⟩
        · rintro ⟨r, hr⟩
          exact ⟨.error r, hr, fails_error _⟩
      rw [lookUp_searched hsearched hfound]
      by_cases hnone : entries = []
      · rw [if_pos hnone]
        exact iff_of_true (fails_error _) ⟨rfl, Or.inr ⟨entries, rfl, Or.inl hnone⟩⟩
      · rw [if_neg hnone, hrefused]
        constructor
        · exact fun h => ⟨rfl, Or.inr ⟨entries, rfl, Or.inr h⟩⟩
        · rintro ⟨-, h | ⟨entries', hentries, h⟩⟩
          · exact absurd h (not_fails_ok entries)
          · rw [← Except.ok.inj hentries] at h
            exact h.resolve_left hnone

/-- **The headers of a platform** fail to load exactly if they are blocked. -/
theorem fails_loadSources_iff {patterns : List Text} :
    Fails (loadSources a patterns) ↔ Blocked a patterns := by
  rw [loadSources, fails_bind_iff, fails_mapM_iff]
  constructor
  · rintro (⟨given, hgiven, h⟩ | ⟨paths, hpaths, h⟩)
    · obtain ⟨hsearched, ⟨e, he⟩ | ⟨entries, hfound, rfl | ⟨r, hr⟩⟩⟩ := fails_lookUp_iff.mp h
      · exact .malformed hgiven hsearched he
      · exact .nothingFound hgiven hsearched hfound
      · exact .refused hgiven hsearched hfound hr
    · obtain ⟨path, hpath, h⟩ := fails_mapM_iff.mp h
      obtain ⟨found, hfound, hpath⟩ := List.mem_flatten.mp hpath
      obtain ⟨given, hgiven, hlook⟩ := (mem_of_mapM_eq_ok hpaths found).mp hfound
      exact .unreadable hgiven ((mem_lookUp hlook path).mp hpath) (fails_loadSource_iff.mp h)
  · rintro (⟨hgiven, hsearched, he⟩ | ⟨hgiven, hsearched, hnone⟩ | ⟨hgiven, hsearched, hfound, hr⟩ |
      ⟨hgiven, hpath, h⟩)
    · exact Or.inl ⟨_, hgiven, fails_lookUp_iff.mpr ⟨hsearched, Or.inl ⟨_, he⟩⟩⟩
    · have hlook := fails_lookUp_iff.mpr ⟨hsearched, Or.inr ⟨[], hnone, Or.inl rfl⟩⟩
      exact Or.inl ⟨_, hgiven, hlook⟩
    · have hlook := fails_lookUp_iff.mpr ⟨hsearched, Or.inr ⟨_, hfound, Or.inr ⟨_, hr⟩⟩⟩
      exact Or.inl ⟨_, hgiven, hlook⟩
    · -- either another pattern fails before, or all are looked up and this path is among the found
      by_cases hlook : Fails (patterns.mapM (lookUp a))
      · exact Or.inl (fails_mapM_iff.mp hlook)
      · obtain ⟨paths, hpaths⟩ := exists_of_not_fails hlook
        have hgiven' := fun hfail => hlook (fails_mapM_iff.mpr ⟨_, hgiven, hfail⟩)
        obtain ⟨found, hfound⟩ := exists_of_not_fails hgiven'
        have hmem := (mem_of_mapM_eq_ok hpaths found).mpr ⟨_, hgiven, hfound⟩
        have hpath' := List.mem_flatten.mpr ⟨found, hmem, (mem_lookUp hfound _).mpr hpath⟩
        exact Or.inr ⟨paths, hpaths,
          fails_mapM_iff.mpr ⟨_, hpath', fails_loadSource_iff.mpr h⟩⟩

/-- The settings fail to load if their file cannot be read or is refused. -/
theorem fails_loadSettings_iff {given : Option Text} : Fails (loadSettings a given) ↔
    ∃ path, given = some path ∧
      (Unreadable a path ∨ ∃ text, a.read path = .ok text ∧ Fails (Settings.read text)) := by
  cases given with
  | none =>
    refine iff_of_false (not_fails_ok _) ?_
    rintro ⟨path, h, -⟩
    cases h
  | some path =>
    have hpath : ∀ {P : Text → Prop}, (∃ p, some path = some p ∧ P p) ↔ P path := by simp
    rw [hpath, loadSettings, ← fails_read_iff]
    cases a.read path with
    | error e => exact iff_of_true (fails_error _) (Or.inl (fails_error e))
    | ok text =>
      cases hread : Settings.read text with
      | error e =>
        simp only [hread]
        exact iff_of_true (fails_error _) (Or.inr ⟨text, rfl, e, hread⟩)
      | ok s =>
        simp only [hread]
        refine iff_of_false (not_fails_ok _) ?_
        rintro (h | ⟨text', htext, e, he⟩)
        · exact not_fails_ok text h
        · rw [← Except.ok.inj htext, hread] at he
          cases he

/-- **The whole input fails to load** exactly if something stands in the way. -/
theorem fails_load_iff {inputs : Inputs} : Fails (load a inputs) ↔ Obstacle a inputs := by
  have hmobile : Fails ((loadSources a inputs.mobile).mapError (Error.sources .mobile)) ↔
      Blocked a inputs.mobile := fails_mapError_iff.trans fails_loadSources_iff
  have hdesktop : Fails ((loadSources a inputs.desktop).mapError (Error.sources .desktop)) ↔
      Blocked a inputs.desktop := fails_mapError_iff.trans fails_loadSources_iff
  rw [load, fails_bind_iff, fails_loadSettings_iff]
  constructor
  · rintro (⟨path, hpath, h | ⟨text, htext, e, he⟩⟩ | ⟨settings, -, h⟩)
    · exact .settingsUnreadable hpath h
    · exact .settingsRefused hpath htext he
    · rcases fails_bind_iff.mp h with h | ⟨sources, -, h⟩
      · exact .mobile (hmobile.mp h)
      · rcases fails_bind_iff.mp h with h | ⟨others, -, h⟩
        · exact .desktop (hdesktop.mp h)
        · exact absurd h (not_fails_ok _)
  · intro h
    by_cases hsettings : Fails (loadSettings a inputs.settings)
    · exact Or.inl (fails_loadSettings_iff.mp hsettings)
    obtain ⟨settings, hs⟩ := exists_of_not_fails hsettings
    refine Or.inr ⟨settings, hs, fails_bind_iff.mpr ?_⟩
    by_cases hfirst : Blocked a inputs.mobile
    · exact Or.inl (hmobile.mpr hfirst)
    obtain ⟨sources, hsources⟩ := exists_of_not_fails (mt hmobile.mp hfirst)
    refine Or.inr ⟨sources, hsources, fails_bind_iff.mpr (Or.inl (hdesktop.mpr ?_))⟩
    rcases h with ⟨hpath, h⟩ | ⟨hpath, htext, he⟩ | h | h
    · exact absurd (fails_loadSettings_iff.mpr ⟨_, hpath, Or.inl h⟩) hsettings
    · exact absurd (fails_loadSettings_iff.mpr ⟨_, hpath, Or.inr ⟨_, htext, _, he⟩⟩) hsettings
    · exact absurd h hfirst
    · exact h

/-! ### Runs -/

/-- **A run that meets an obstacle leaves no trace**, whatever the file system answers: it fails,
writes nothing to the output, makes no change, and the file system is as it was. Without an obstacle
the whole input is loaded. A run on a file system that answers for itself is a case of this. -/
theorem run_without_trace (colours : Bool) (a : Answers) (fs : FileSystem) {arguments : List Text}
    {request : Request} {inputs : Inputs} (hrequest : parse arguments = some request)
    (hinputs : request.inputs? = some inputs) :
    (Obstacle a inputs → (runOn colours a fs arguments).code = 1 ∧
      (runOn colours a fs arguments).output = [] ∧ (runOn colours a fs arguments).changes = [] ∧
      fs.apply (runOn colours a fs arguments).changes = fs) ∧
    (¬ Obstacle a inputs → ∃ loaded, load a inputs = .ok loaded) := by
  constructor
  · intro h
    obtain ⟨e, he⟩ := fails_load_iff.mpr h
    have hrun : runOn colours a fs arguments = .failed colours e [] :=
      run_of_load_error hrequest hinputs he
    rw [hrun]
    exact ⟨rfl, rfl, rfl, FileSystem.apply_nil fs⟩
  · intro h
    exact exists_of_not_fails (mt fails_load_iff.mp h)

/-- Two headers, the second of which is no text, and settings. -/
def lateFiles : FileSystem where
  root := .directory [("a.h".toList, .file "@interface UIThing : A".toUTF8),
    ("b.h".toList, .file ⟨#[0x40, 0xFF]⟩), ("c.json".toList, .file "\x7b\x7d".toUTF8)]
  workingDirectory := []

/-- The headers of `lateFiles`, one for either platform, and its settings. -/
def lateInputs : Inputs := ⟨["a.h".toList], ["b.h".toList], some "c.json".toList⟩

def lateArguments : List Text :=
  ["model", "--mobile", "a.h", "--desktop=b.h", "--config", "c.json", "-oout/model.json"].map
    String.toList

theorem run_without_trace_late :
    parse lateArguments = some (.model lateInputs (some "out/model.json".toList)) ∧
      Obstacle lateFiles.answers lateInputs ∧ (run false lateFiles lateArguments).code = 1 ∧
      (run false lateFiles lateArguments).output = [] ∧
      (run false lateFiles lateArguments).changes = [] ∧
      lateFiles.apply (run false lateFiles lateArguments).changes = lateFiles := by
  have hparse : parse lateArguments = some (.model lateInputs (some "out/model.json".toList)) := by
    decide +kernel
  have hcontent : lateFiles.answers.content "b.h".toList = .ok ⟨#[0x40, 0xFF]⟩ := rfl
  have hunreadable : Unreadable lateFiles.answers "b.h".toList := by
    intro content h
    rw [hcontent] at h
    cases h
    decide
  have hself : effectivePattern lateFiles.answers "b.h".toList = "b.h".toList := by
    decide +kernel
  have hselected : Selects lateFiles.answers "b.h".toList "b.h".toList := by
    have h : Selects lateFiles.answers "b.h".toList
        (effectivePattern lateFiles.answers "b.h".toList) := .itself (by rw [hself]; decide)
    rwa [hself] at h
  have hobstacle : Obstacle lateFiles.answers lateInputs :=
    .desktop (.unreadable (List.mem_singleton.mpr rfl) hselected hunreadable)
  exact ⟨hparse, hobstacle,
    (run_without_trace false lateFiles.answers lateFiles hparse rfl).1 hobstacle⟩

end Command

end CommonHeaders
