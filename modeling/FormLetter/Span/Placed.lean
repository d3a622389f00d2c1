import FormLetter.Document.Paragraph
import FormLetter.Span.Fault
import FormLetter.Text.Size

namespace FormLetter

/-- A character of a paragraph. Word processors split a tag over several runs, so every character
keeps the run it comes from. -/
structure Placed where
  char : Char
  /-- The run that holds the character. -/
  run : Nat
  /-- Where the character starts in its paragraph, in UTF-16 units. -/
  offset : Nat
  deriving DecidableEq, Repr

namespace Placed

/-- The characters of a run whose text starts at an offset. -/
def ofText (run offset : Nat) : List Char → List Placed
  | [] => []
  | c :: cs => ⟨c, run, offset⟩ :: ofText run (offset + Text.units16 c) cs

/-- The characters of runs, the first of which starts at an offset. -/
def ofRuns (offset : Nat) : List Document.Run → List Placed
  | [] => []
  | r :: runs => ofText r.index offset r.text ++ ofRuns (offset + Text.size16 r.text) runs

/-- Whether two characters make up a delimiter. -/
def arePair (delimiter : Char) (a b : Placed) : Bool :=
  a.char == delimiter && b.char == delimiter

/-- What an opening delimiter is followed by. -/
structure Stretch where
  /-- The characters up to the next delimiter of either kind. -/
  inner : List Placed
  fault : Option SpanFault
  /-- The characters after the tag. A delimiter that opens another tag is among them. -/
  rest : List Placed

/-- Walks from an opening delimiter to the next delimiter. -/
def stretch : List Placed → Stretch
  | a :: b :: rest =>
    if arePair '}' a b then ⟨[], none, rest⟩
    else if arePair '{' a b then ⟨[], some .reopened, a :: b :: rest⟩
    else
      let s := stretch (b :: rest)
      { s with inner := a :: s.inner }
  | cs => ⟨cs, some .unclosed, []⟩

theorem stretch_length (cs : List Placed) : (stretch cs).rest.length ≤ cs.length := by
  fun_induction stretch cs with
  | case1 a b rest => simp only [List.length_cons]; omega
  | case2 a b rest => exact Nat.le_refl _
  | case3 a b rest _ _ s ih => exact Nat.le_succ_of_le ih
  | case4 cs => exact Nat.zero_le _

/-- The tags among characters: the first character of each, and what follows its opening
delimiter. -/
def tags : List Placed → List (Placed × Stretch)
  | a :: b :: rest =>
    if arePair '{' a b then (a, stretch rest) :: tags (stretch rest).rest else tags (b :: rest)
  | _ => []
termination_by cs => cs.length
decreasing_by
  · have := stretch_length rest
    simp only [List.length_cons]
    omega
  · simp

end Placed

end FormLetter
