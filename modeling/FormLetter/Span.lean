import FormLetter.Decimal.Digits
import FormLetter.Digest
import FormLetter.Document
import FormLetter.Markup
import FormLetter.Span.Placed

namespace FormLetter

/-- A tag located in a paragraph of a document. -/
structure Span where
  part : String
  paragraph : Nat
  /-- The run that holds the start of the tag. -/
  run : Nat
  /-- Where the tag starts in its paragraph, in UTF-16 units. -/
  start : Nat
  /-- Where the tag ends, in the same units. -/
  stop : Nat
  raw : String
  /-- The trimmed text after the opening delimiter. -/
  inner : String
  /-- The place among all tags of the document. -/
  ordinal : Nat
  content : Except SpanFault MarkupToken

namespace Span

/-- The text that a tag is known by: where it is and what it says. -/
def key (part : String) (paragraph start stop : Nat) (raw : String) : String :=
  let number (n : Nat) := String.ofList (Decimal.ofNat n)
  "\x1f".intercalate [part, number paragraph, number start, number stop, raw]

/-- A short name for a tag, the same as long as its place and text are. -/
def anchorOf (part : String) (paragraph start stop : Nat) (raw : String) : String :=
  Digest.hex ((Digest.ofBytes (key part paragraph start stop raw).toUTF8.toList).take 8)

def anchor (s : Span) : String :=
  anchorOf s.part s.paragraph s.start s.stop s.raw

end Span

open Document (Paragraph)

/-- The characters of a paragraph, with their places. -/
def Document.Paragraph.placed (p : Paragraph) : List Placed :=
  Placed.ofRuns 0 p.runs

namespace Span

/-- The span of a tag in a paragraph, given its first character, what follows its opening delimiter
and the number of spans before it. -/
def ofStretch (part : String) (p : Paragraph) (ordinal : Nat) (first : Placed)
    (s : Placed.Stretch) : Span :=
  let inner := s.inner.map Placed.char
  { part
    paragraph := p.index
    run := first.run
    start := first.offset
    stop := (s.rest.head?.map Placed.offset).getD (Text.size16 p.text)
    raw := String.ofList ('{' :: '{' :: inner ++ if s.fault.isNone then ['}', '}'] else [])
    inner := String.ofList (Text.trim inner)
    ordinal
    content := match s.fault with
      | none => .ok (Markup.classify inner)
      | some fault => .error fault }

/-- The spans of a paragraph, after so many others. -/
def ofParagraph (part : String) (ordinal : Nat) (p : Paragraph) : List Span :=
  (Placed.tags p.placed).mapIdx fun n (first, s) => ofStretch part p (ordinal + n) first s

/-- The spans of paragraphs, each with the name of its part, after those found before. -/
def scan (found : List Span) (paragraphs : List (String × Paragraph)) : List Span :=
  paragraphs.foldl (fun found (part, p) => found ++ ofParagraph part found.length p) found

/-- The spans of all parts that hold text of a template, given the names of the parts and how to
read one. -/
def scanParts (names : List String) (read : String → Except DocumentError (List UInt8)) :
    Except DocumentError (List Span) :=
  (Document.templateParts names).foldlM (fun found part => do
    let paragraphs ← Document.partParagraphs part (← read part)
    return scan found (paragraphs.map (part, ·))) []

def ofPackage (p : Document.Package) : Except DocumentError (List Span) :=
  scanParts p.parts.names p.getPart

def ofDocument (archive : List UInt8) : Except DocumentError (List Span) := do
  ofPackage (← Document.readPackage archive)

end Span

end FormLetter
