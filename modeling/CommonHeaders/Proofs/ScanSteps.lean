import CommonHeaders.Header.Scan

/-! # What a scan can do

Whatever the lines of a header say, a scan does only a few things: it leaves an interface or an
enumeration, takes a note of a mark or of a waiting declaration, reads a member, opens a class, a
category, a protocol or an enumeration, or reads members of the open enumeration. A property of
scans that each of these keeps is *stable*, and holds after every line and every header.

* `Stable.feed`, `Stable.feedAll`: what every step keeps, every line and every run of lines keeps.
* `Corpus.Scanned.of_stable`: and so does every corpus that comes from scanning headers.
* `Corpus.scanned_ofFiles`: the corpus of some headers is a scanned one. -/

namespace CommonHeaders

namespace Scan

/-- **Stable properties**: those that every step of a scan keeps. The openings are known to be read
off a line. -/
structure Stable (settings : Settings) (P : Scan → Prop) : Prop where
  leave : ∀ {s}, P s → P { s with place := none }
  endEnum : ∀ {s}, P s → P { s with enumeration := none }
  note : ∀ {s} required deprecated pending, P s →
    P { s with required := required, deprecated := deprecated, pending := pending }
  addMember : ∀ {s} text, P s → P (s.addMember text)
  openClass : ∀ {s line name superclass adopted deprecated},
    Line.classify line = .classOpen name superclass adopted deprecated → P s →
      P (s.openClass name superclass adopted deprecated)
  openCategory : ∀ {s line className category adopted},
    Line.classify line = .categoryOpen className category adopted → P s →
      P (s.openCategory settings className category adopted)
  openProtocol : ∀ {s line name adopted}, Line.classify line = .protocolOpen name adopted → P s →
    P (s.openProtocol name adopted)
  openEnum : ∀ {s line kind underlying name body},
    Line.classify line = .enumOpen kind underlying name body → P s →
      P (s.openEnum settings kind underlying name none)
  enumBody : ∀ {s} text, P s → P (s.enumBody text)

namespace Stable

variable {settings : Settings} {P : Scan → Prop} (h : Stable settings P) {s : Scan}
include h

theorem beginMember (text : Text) (hs : P s) : P (s.beginMember text) := by
  unfold Scan.beginMember
  split
  · exact hs
  · split
    · exact h.addMember text hs
    · exact h.note s.required s.deprecated (some text) hs

theorem feedLine (line : Text) (hs : P s) : P (s.feedLine settings line) := by
  unfold Scan.feedLine
  split
  case h_1 hline => exact h.openClass hline hs
  case h_2 hline => exact h.openCategory hline hs
  case h_3 hline => exact h.openProtocol hline hs
  case h_4 kind underlying name body hline =>
    have hopen := h.openEnum hline hs
    cases body with
    | none => exact hopen
    | some body => exact h.enumBody body hopen
  case h_5 text _ => exact h.beginMember text hs
  case h_6 text _ => exact h.beginMember text hs
  case h_7 => exact h.note true false s.pending (h.leave hs)
  case h_8 => exact h.note true s.deprecated s.pending hs
  case h_9 => exact h.note false s.deprecated s.pending hs
  case h_10 => exact h.note s.required true s.pending hs
  case h_11 => exact hs
  case h_12 => exact hs

theorem feedOpen (line : Text) (hs : P s) : P (s.feedOpen settings line) := by
  unfold Scan.feedOpen
  split
  · split
    · exact h.feedLine line (h.endEnum hs)
    · exact h.enumBody line hs
  · exact h.feedLine line hs

/-- **What every step keeps, every line keeps.** -/
theorem feed (line : Text) (hs : P s) : P (s.feed settings line) := by
  have hcleared : P { s with pending := none } := h.note s.required s.deprecated none hs
  unfold Scan.feed
  split
  · exact h.feedOpen line hs
  · simp only
    split
    · exact h.feedOpen line hcleared
    · split
      · exact h.addMember _ hcleared
      · exact h.note s.required s.deprecated _ hs

theorem feedAll (lines : List Text) (hs : P s) : P (s.feedAll settings lines) := by
  induction lines generalizing s with
  | nil => exact hs
  | cons line rest ih => exact ih (h.feed line hs)

end Stable

end Scan

/-! ### Headers -/

namespace Corpus

/-- **Scanned corpora**: those that come from the empty one by scanning headers. -/
inductive Scanned (settings : Settings) : Corpus → Prop where
  | empty : Scanned settings empty
  | scanText {c : Corpus} (text : Text) (h : Scanned settings c) :
    Scanned settings (c.scanText settings text)

theorem scanned_foldl {settings : Settings} {c : Corpus} (files : List SourceFile)
    (h : Scanned settings c) :
    Scanned settings (files.foldl (fun c f => c.scanText settings f.text) c) := by
  induction files generalizing c with
  | nil => exact h
  | cons f rest ih => exact ih (h.scanText f.text)

/-- The corpus of some headers is a scanned one. -/
theorem scanned_ofFiles (settings : Settings) (files : List SourceFile) :
    Scanned settings (ofFiles settings files) := scanned_foldl _ .empty

/-- **A stable property of the corpus of a scan holds of every scanned corpus.** -/
theorem Scanned.of_stable {settings : Settings} {Q : Corpus → Prop}
    (hstable : Scan.Stable settings fun s => Q s.corpus) (hempty : Q .empty) {c : Corpus}
    (h : Scanned settings c) : Q c := by
  induction h with
  | empty => exact hempty
  | @scanText c text _ ih =>
    have hstart : (fun s : Scan => Q s.corpus) { corpus := c } := ih
    exact hstable.feedAll (linesOf (Comments.strip text)) hstart

end Corpus

end CommonHeaders
