namespace FormLetter.Text

/-- The next row of distances, after its last entry so far, given the rest of the row above: the
entry above to the left, and those above the rest of the text. -/
def nextRow (c : Char) (left diagonal : Nat) : List Char → List Nat → List Nat
  | d :: ds, above :: row =>
    let here := min (min (above + 1) (left + 1)) (diagonal + if c = d then 0 else 1)
    here :: nextRow c here above ds row
  | _, _ => []

/-- From the distances of a text to the starts of `ds`, those with one more character to it. -/
def distanceRow (ds : List Char) (row : List Nat) (c : Char) : List Nat :=
  match row with
  | [] => []
  | first :: row => (first + 1) :: nextRow c (first + 1) first ds row

/-- How many characters have to be inserted, deleted or replaced to make one text of the other. -/
def editDistance (cs ds : List Char) : Nat :=
  ((cs.foldl (distanceRow ds) (List.range (ds.length + 1))).getLast?).getD 0

end FormLetter.Text
