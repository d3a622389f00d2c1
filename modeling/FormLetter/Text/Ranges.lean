namespace FormLetter.Text

/-- Closed ranges of code points, in increasing order. -/
abbrev Ranges := List (Nat × Nat)

/-- The search stops at the first range that starts beyond the character. -/
def Ranges.has (c : Char) : Ranges → Bool
  | [] => false
  | (first, last) :: rest => first ≤ c.toNat && (c.toNat ≤ last || Ranges.has c rest)

end FormLetter.Text
