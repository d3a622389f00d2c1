import FormLetter.Document.Paragraph
import FormLetter.Document.Parts

namespace FormLetter

/-- Why a document cannot be read. -/
inductive DocumentError where
  | package (error : Document.PackageError)
  /-- A part is not text, or not well formed. -/
  | malformed (part : String)
  deriving DecidableEq, Repr

namespace Document

/-- The paragraphs of a part with the given octets. -/
def partParagraphs (part : String) (octets : List UInt8) : Except DocumentError (List Paragraph) :=
  match readParagraphs? octets with
  | some paragraphs => .ok paragraphs
  | none => .error (.malformed part)

def readPackage (archive : List UInt8) : Except DocumentError Package :=
  (Package.read archive).mapError .package

def Package.getPart (p : Package) (name : String) : Except DocumentError (List UInt8) :=
  (p.part name).mapError .package

/-- Lines with a line break between each two. -/
def joinLines : List (List Char) → List Char
  | [] => []
  | [line] => line
  | line :: lines => line ++ '\n' :: joinLines lines

/-- The text of the main part, a line for each paragraph. -/
def bodyText (archive : List UInt8) : Except DocumentError (List Char) := do
  let package ← readPackage archive
  let octets ← package.getPart mainPart
  let paragraphs ← partParagraphs mainPart octets
  return joinLines (paragraphs.map Paragraph.text)

end Document

end FormLetter
