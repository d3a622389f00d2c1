import FormLetter.Archive.File

namespace FormLetter.Document

def mainPart : String := "word/document.xml"

/-- Why a package or a part of it is not there. -/
inductive PackageError where
  | notReadable
  | noMainPart
  | missingPart (name : String)
  deriving DecidableEq, Repr

/-- What is to be said of an error, if it is known. -/
def PackageError.message? : PackageError → Option String
  | .notReadable => none
  | .noMainPart => some s!"Invalid document package: not a word document: {mainPart} is missing"
  | .missingPart name => some s!"Invalid document package: missing part {name}"

/-- An archive whose files are the parts of a document. -/
structure Package where
  parts : Dict (List UInt8)

def Package.read (archive : List UInt8) : Except PackageError Package :=
  match Archive.files? archive with
  | none => .error .notReadable
  | some parts => if parts.has mainPart then .ok ⟨parts⟩ else .error .noMainPart

def Package.part (p : Package) (name : String) : Except PackageError (List UInt8) :=
  match p.parts.get? name with
  | some octets => .ok octets
  | none => .error (.missingPart name)

end FormLetter.Document
