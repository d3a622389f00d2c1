import FormLetter.Archive.Code

namespace FormLetter.Archive.Symbol

/-- The least value of a symbol and the width of what is added to it. -/
abbrev Steps := List (Nat × Nat)

/-- The lengths of copies, from symbol 257 on. -/
def lengthSteps : Steps :=
  [(3, 0), (4, 0), (5, 0), (6, 0), (7, 0), (8, 0), (9, 0), (10, 0), (11, 1), (13, 1), (15, 1),
    (17, 1), (19, 2), (23, 2), (27, 2), (31, 2), (35, 3), (43, 3), (51, 3), (59, 3), (67, 4),
    (83, 4), (99, 4), (115, 4), (131, 5), (163, 5), (195, 5), (227, 5), (258, 0)]

def distanceSteps : Steps :=
  [(1, 0), (2, 0), (3, 0), (4, 0), (5, 1), (7, 1), (9, 2), (13, 2), (17, 3), (25, 3), (33, 4),
    (49, 4), (65, 5), (97, 5), (129, 6), (193, 6), (257, 7), (385, 7), (513, 8), (769, 8),
    (1025, 9), (1537, 9), (2049, 10), (3073, 10), (4097, 11), (6145, 11), (8193, 12), (12289, 12),
    (16385, 13), (24577, 13)]

/-- The value of a symbol, with what the bits after it add. -/
def stepValue? (steps : Steps) (n : Nat) (bits : Bits) : Option (Nat × Bits) :=
  match steps[n]? with
  | none => none
  | some (base, width) => (bits.number? width).map fun (more, rest) => (base + more, rest)

theorem stepValue?_length (h : stepValue? steps n bits = some (value, rest)) :
    rest.length ≤ bits.length := by
  unfold stepValue? at h
  grind [→ number?_length, Option.map_eq_some_iff]

/-- The distance of a copy. -/
def distance? (code : Code) (bits : Bits) : Option (Nat × Bits) :=
  match code.next? bits with
  | none => none
  | some (n, rest) => stepValue? distanceSteps n rest

theorem distance?_length (h : distance? code bits = some (n, rest)) :
    rest.length ≤ bits.length := by
  unfold distance? at h
  grind [→ Code.next?_length, → stepValue?_length]

/-- The literal code that needs no description. -/
def fixedLiterals : List Nat :=
  List.replicate 144 8 ++ List.replicate 112 9 ++ List.replicate 24 7 ++ List.replicate 8 8

def fixedDistances : List Nat := List.replicate 30 5 ++ List.replicate 2 5

/-- The order in which the lengths of the code for lengths are given. -/
def lengthOrder : List Nat :=
  [16, 17, 18, 0, 8, 7, 9, 6, 10, 5, 11, 4, 12, 3, 13, 2, 14, 1, 15]

/-- So many numbers of one width. -/
def numbers? (width : Nat) : Nat → Bits → Option (List Nat × Bits)
  | 0, bits => some ([], bits)
  | count + 1, bits =>
    match bits.number? width with
    | none => none
    | some (n, rest) => (numbers? width count rest).map fun (more, rest) => (n :: more, rest)

theorem numbers?_length (h : numbers? width count bits = some (ns, rest)) :
    rest.length ≤ bits.length := by
  fun_induction numbers? width count bits generalizing ns <;>
    grind [→ number?_length, Option.map_eq_some_iff]

/-- A symbol of the code for lengths: a length and how often it stands. -/
def lengthRun? (code : Code) (previous : Option Nat) (bits : Bits) : Option (Nat × Nat × Bits) :=
  match code.next? bits with
  | none => none
  | some (n, rest) =>
    if n < 16 then some (n, 1, rest)
    else
      match n, previous with
      | 16, none => none
      | 16, some length => (rest.number? 2).map fun (more, rest) => (length, 3 + more, rest)
      | 17, _ => (rest.number? 3).map fun (more, rest) => (0, 3 + more, rest)
      | _, _ => (rest.number? 7).map fun (more, rest) => (0, 11 + more, rest)

theorem lengthRun?_length (h : lengthRun? code previous bits = some (length, count, rest)) :
    rest.length < bits.length := by
  unfold lengthRun? at h
  grind [→ Code.next?_length, → number?_length, Option.map_eq_some_iff]

/-- So many lengths, after a previous one. -/
def lengths? (code : Code) (left : Nat) (previous : Option Nat) (bits : Bits) :
    Option (List Nat × Bits) :=
  if left = 0 then some ([], bits)
  else
    match _h : lengthRun? code previous bits with
    | none => none
    | some (length, count, rest) =>
      if count ≤ left then
        (lengths? code (left - count) (some length) rest).map fun (more, rest) =>
          (List.replicate count length ++ more, rest)
      else none
termination_by bits.length
decreasing_by exact lengthRun?_length _h

theorem lengths?_length (h : lengths? code left previous bits = some (ns, rest)) :
    rest.length ≤ bits.length := by
  fun_induction lengths? code left previous bits generalizing ns <;>
    grind [→ lengthRun?_length, Option.map_eq_some_iff]

/-- The lengths of the symbols of a code, in their own order. -/
def arrange (given : List Nat) : List Nat :=
  (List.range 19).map fun n => ((lengthOrder.zip given).lookup n).getD 0

/-- The numbers of symbols of two codes, and the lengths of the code for their lengths. -/
def sizes? (bits : Bits) : Option (Nat × Nat × List Nat × Bits) :=
  match numbers? 5 2 bits with
  | some ([literals, distances], rest) =>
    match rest.number? 4 with
    | none => none
    | some (count, rest) => (numbers? 3 (count + 4) rest).map fun (given, rest) =>
        (literals + 257, distances + 1, given, rest)
  | _ => none

theorem sizes?_length (h : sizes? bits = some (literals, distances, given, rest)) :
    rest.length ≤ bits.length := by
  unfold sizes? at h
  grind [→ numbers?_length, → number?_length, Option.map_eq_some_iff]

/-- The lengths of the symbols of two codes. No more symbols may be given than have a meaning. -/
def describedLengths? (bits : Bits) : Option (List Nat × List Nat × Bits) :=
  match sizes? bits with
  | none => none
  | some (literals, distances, given, rest) =>
    if literals ≤ 257 + lengthSteps.length ∧ distances ≤ distanceSteps.length then
      match Code.fullOfLengths? (arrange given) with
      | none => none
      | some code => (lengths? code (literals + distances) none rest).map fun (all, rest) =>
          (all.take literals, all.drop literals, rest)
    else none

theorem describedLengths?_length (h : describedLengths? bits = some (literals, distances, rest)) :
    rest.length ≤ bits.length := by
  unfold describedLengths? at h
  grind [→ sizes?_length, → lengths?_length, Option.map_eq_some_iff]

/-- The codes for literals and distances of given lengths. -/
def codes? (literals distances : List Nat) : Option (Code × Code) := do
  return (← Code.ofLengths? literals, ← Code.ofLengths? distances)

/-- The two codes that a block describes. -/
def describedCodes? (bits : Bits) : Option (Code × Code × Bits) :=
  match describedLengths? bits with
  | none => none
  | some (literals, distances, rest) =>
    (codes? literals distances).map fun (literals, distances) => (literals, distances, rest)

theorem describedCodes?_length (h : describedCodes? bits = some (literals, distances, rest)) :
    rest.length ≤ bits.length := by
  unfold describedCodes? at h
  grind [→ describedLengths?_length, Option.map_eq_some_iff]

def fixedCodes? : Option (Code × Code) :=
  codes? fixedLiterals fixedDistances

end FormLetter.Archive.Symbol
