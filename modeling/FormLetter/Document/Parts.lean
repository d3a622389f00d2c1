import FormLetter.Decimal.Digits
import FormLetter.Document.Package

namespace FormLetter.Document

/-- A group of parts whose names differ in their numbers. -/
inductive PartGroup where
  | header
  | footer
  deriving DecidableEq, Repr

/-- What the names of a group start with. -/
def PartGroup.stem : PartGroup → List Char
  | header => "word/header".toList
  | footer => "word/footer".toList

def partEnding : List Char := ".xml".toList

/-- The digits in the name of a part of a group. -/
def PartGroup.digits? (group : PartGroup) (name : String) : Option (List Char) := do
  let rest ← group.stem.isPrefixOf? name.toList
  let digits ← partEnding.isSuffixOf? rest
  if digits.all Decimal.isDigit then some digits else none

/-- The number of a part, below 2³². No digits stand for zero. -/
def PartGroup.number? (group : PartGroup) (name : String) : Option Nat :=
  ((group.digits? name).map Decimal.toNat).filter (· < UInt32.size)

/-- Ordered by number, then by name. -/
def partBefore (a b : Nat × String) : Bool :=
  a.1 < b.1 || (a.1 == b.1 && a.2 ≤ b.2)

def PartGroup.parts (group : PartGroup) (names : List String) : List String :=
  let numbered := names.filterMap fun name => (group.number? name).map (·, name)
  (numbered.mergeSort partBefore).map Prod.snd

/-- The parts that hold text of a template, in the order in which they are read. -/
def templateParts (names : List String) : List String :=
  (if names.contains mainPart then [mainPart] else []) ++
    PartGroup.parts .header names ++ PartGroup.parts .footer names

def Package.templateParts (p : Package) : List String :=
  Document.templateParts p.parts.names

end FormLetter.Document
