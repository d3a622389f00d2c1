import FormLetter.Span
import FormLetter.Validation.Finding

namespace FormLetter

/-- Where a tag stands in a document. Offsets are UTF-16 units in the paragraph. -/
structure Location where
  part : String
  paragraph : Nat
  run : Nat
  start : Nat
  stop : Nat
  deriving DecidableEq, Repr

def Span.location (s : Span) : Location :=
  ⟨s.part, s.paragraph, s.run, s.start, s.stop⟩

namespace Validation

/-- What identifies the tag of an issue. -/
structure TagRef where
  raw : String
  inner : String
  ordinal : Nat
  anchor : String
  deriving DecidableEq, Repr

structure Issue where
  severity : Severity
  code : IssueCode
  message : String
  tag : TagRef
  location : Location
  suggestions : List String
  deriving DecidableEq, Repr

/-- A finding at a tag. -/
structure Remark where
  span : Span
  finding : Finding

def Remark.issue (severity : Severity) (r : Remark) : Issue where
  severity
  code := r.finding.code
  message := r.finding.message
  tag := ⟨r.span.raw, r.span.inner, r.span.ordinal, r.span.anchor⟩
  location := r.span.location
  suggestions := r.finding.suggestions

/-- Errors come before warnings. -/
def Severity.rank : Severity → Nat
  | error => 0
  | warning => 1

/-- Ordered by part, place, code and severity, and last by what is said. -/
def Issue.compare (a b : Issue) : Ordering :=
  (Ord.compare a.location.part b.location.part).then <|
    (Ord.compare a.tag.ordinal b.tag.ordinal).then <|
    (Ord.compare a.location.start b.location.start).then <|
    (Ord.compare a.code.text b.code.text).then <|
    (Ord.compare a.severity.rank b.severity.rank).then <|
    Ord.compare a.message b.message

/-- Issues that compare as equal keep their order. -/
def Issue.sort (issues : List Issue) : List Issue :=
  issues.mergeSort fun a b => (a.compare b).isLE

end Validation

end FormLetter
