import FormLetter.Text.Case
import FormLetter.Text.EditDistance

namespace FormLetter.Validation

/-- The greatest distance of a suggestion. -/
def maxDistance : Nat := 3

/-- The greatest number of suggestions. -/
def maxSuggestions : Nat := 3

/-- Capital and small letters count as the same. -/
def nameDistance (name candidate : String) : Nat :=
  Text.editDistance (Text.lower name.toList) (Text.lower candidate.toList)

/-- Ordered by distance, then by text. -/
def nearer (a b : Nat × String) : Bool :=
  a.1 < b.1 || (a.1 == b.1 && a.2 ≤ b.2)

/-- The nearest of other names, nearest first. -/
def suggestions (name : String) (candidates : List String) : List String :=
  let scored := (candidates.filter (· ≠ name)).map fun c => (nameDistance name c, c)
  let near := (scored.filter (·.1 ≤ maxDistance)).mergeSort nearer
  (near.eraseReps.take maxSuggestions).map Prod.snd

end FormLetter.Validation
