import FormLetter.Document.Event
import FormLetter.Text.Utf8
import FormLetter.Xml.Reference

namespace FormLetter.Document

structure Run where
  /-- The place of the run in its paragraph. -/
  index : Nat
  text : List Char
  deriving DecidableEq, Repr

structure Paragraph where
  /-- The place of its opening tag among those of the part. -/
  index : Nat
  runs : List Run
  deriving DecidableEq, Repr

def Paragraph.text (p : Paragraph) : List Char :=
  p.runs.flatMap Run.text

structure OpenParagraph where
  index : Nat
  /-- The runs before the last one. -/
  earlier : List Run
  /-- The text of the last run. -/
  last : Option (List Char)
  runOpen : Bool
  deriving DecidableEq, Repr

namespace OpenParagraph

def runs (p : OpenParagraph) : List Run :=
  match p.last with
  | none => p.earlier
  | some text => p.earlier ++ [⟨p.earlier.length, text⟩]

def paragraph (p : OpenParagraph) : Paragraph :=
  ⟨p.index, p.runs⟩

def openRun (p : OpenParagraph) : OpenParagraph :=
  { p with earlier := p.runs, last := some [], runOpen := true }

def closeRun (p : OpenParagraph) : OpenParagraph :=
  { p with runOpen := false }

def pushText (text : List Char) (p : OpenParagraph) : OpenParagraph :=
  if p.runOpen then { p with last := p.last.map (· ++ text) } else p

end OpenParagraph

/-- Reads a part event by event. Text goes to the last run of the innermost open paragraph, as long
as that run is open. A paragraph inside another one is a paragraph of its own. -/
structure Collector where
  /-- The innermost first. -/
  opened : List OpenParagraph
  /-- The last one closed first. -/
  closed : List Paragraph
  /-- The paragraphs opened so far. -/
  count : Nat
  inText : Bool
  deriving DecidableEq, Repr

namespace Collector

def start : Collector := ⟨[], [], 0, false⟩

/-- Changes the innermost paragraph. -/
def inner (f : OpenParagraph → OpenParagraph) (c : Collector) : Collector :=
  match c.opened with
  | [] => c
  | p :: opened => { c with opened := f p :: opened }

def openParagraph (c : Collector) : Collector :=
  { c with opened := ⟨c.count, [], none, false⟩ :: c.opened, count := c.count + 1 }

def closeParagraph (c : Collector) : Collector :=
  match c.opened with
  | [] => c
  | p :: opened => { c with opened, closed := p.paragraph :: c.closed }

def openElement (c : Collector) : Element → Collector
  | .paragraph => c.openParagraph
  | .run => c.inner .openRun
  | .text => { c with inText := true }
  | .tab => c.inner (.pushText ['\t'])
  | .lineBreak => c.inner (.pushText ['\n'])
  | .other => c

def closeElement (c : Collector) : Element → Collector
  | .paragraph => c.closeParagraph
  | .run => c.inner .closeRun
  | .text => { c with inText := false }
  | .tab | .lineBreak | .other => c

/-- An empty text element says nothing on where text is read. -/
def emptyElement (c : Collector) : Element → Collector
  | .text => c
  | element => (c.openElement element).closeElement element

/-- The references of a text count only where text is read. -/
def step? (c : Collector) : Event → Option Collector
  | .start element => some (c.openElement element)
  | .empty element => some (c.emptyElement element)
  | .stop element => some (c.closeElement element)
  | .text raw =>
    if c.inText then (Xml.unescape? raw).map fun text => c.inner (.pushText text) else some c
  | .characters raw => some (if c.inText then c.inner (.pushText raw) else c)

/-- The paragraphs closed and still open, in the order of their opening tags. -/
def finish (c : Collector) : List Paragraph :=
  (c.opened.map (·.paragraph) ++ c.closed).mergeSort fun a b => a.index ≤ b.index

end Collector

/-- The paragraphs that a stream of events holds. -/
def paragraphs? (events : List Event) : Option (List Paragraph) :=
  (events.foldlM Collector.step? Collector.start).map Collector.finish

/-- The paragraphs of a part: its octets are text, its text is well formed, and the references in
its text elements are sound. -/
def readParagraphs? (octets : List UInt8) : Option (List Paragraph) := do
  let source ← Text.decode? octets
  paragraphs? (← readEvents? source)

end FormLetter.Document
