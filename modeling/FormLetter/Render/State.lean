import FormLetter.Decimal.Digits
import FormLetter.Dict

namespace FormLetter

/-- Stands in the output for what text cannot say. -/
inductive Marker where
  | pageBreak
  deriving DecidableEq, Repr

structure RenderState where
  /-- The open fragments, the outermost first. -/
  stack : List String
  markers : Dict Marker
  /-- The number of the next marker. -/
  next : Nat

namespace RenderState

def fresh : RenderState := ⟨[], [], 0⟩

def depth (s : RenderState) : Nat :=
  s.stack.length

def markerName (n : Nat) : String :=
  "docxlate:pagebreak:" ++ String.ofList (Decimal.ofNat n)

def setMarker (s : RenderState) (marker : Marker) : RenderState :=
  { s with markers := s.markers.insert (markerName s.next) marker, next := s.next + 1 }

end RenderState

/-- A piece of output. -/
inductive OutputPiece where
  | text (s : String)
  /-- The place of the page break with a number. -/
  | pageBreak (n : Nat)
  deriving DecidableEq, Repr

abbrev Output := List OutputPiece

def OutputPiece.chars : OutputPiece → List Char
  | text s => s.toList
  | pageBreak n => '⟦' :: (RenderState.markerName n).toList ++ ['⟧']

def Output.toString (output : Output) : String :=
  String.ofList (output.flatMap OutputPiece.chars)

end FormLetter
