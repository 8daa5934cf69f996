import CommonHeaders.Interface
import CommonHeaders.Enumeration

/-! # Corpora

A corpus holds what the headers of one platform declare: classes and protocols under their own
names, and enumerations under their common names. -/

namespace CommonHeaders

/-- A header as it is handed in: its name and its text. -/
structure SourceFile where
  name : Text
  text : Text
deriving DecidableEq

/-- **A corpus.** -/
structure Corpus where
  classes : Table Interface := .empty
  protocols : Table Interface := .empty
  enums : Table Enumeration := .empty
deriving DecidableEq, Inhabited

namespace Corpus

/-- The corpus in which nothing is declared. -/
def empty : Corpus := {}

end Corpus

end CommonHeaders
