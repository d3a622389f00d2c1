import FormLetter.Text.Blank
import FormLetter.Text.Letter
import FormLetter.Text.Size

namespace FormLetter

inductive MarkupKind where
  | text
  | value
  | ifTag
  | elsifTag
  | elseTag
  | unlessTag
  | forTag
  | endTag
  | includeTag
  | pageBreak
  deriving DecidableEq, Repr

namespace MarkupKind

def keyword : MarkupKind → String
  | text => "text"
  | value => "variable"
  | ifTag => "if"
  | elsifTag => "elsif"
  | elseTag => "else"
  | unlessTag => "unless"
  | forTag => "for"
  | endTag => "end"
  | includeTag => "include"
  | pageBreak => "pageBreak"

def all : List MarkupKind :=
  [text, value, ifTag, elsifTag, elseTag, unlessTag, forTag, endTag, includeTag, pageBreak]

def ofKeyword? (s : String) : Option MarkupKind :=
  all.find? (·.keyword == s)

/-- Tags that do more than stand for a value. -/
def isControl : MarkupKind → Bool
  | text | value => false
  | _ => true

end MarkupKind

/-- The value of a tag is what follows its keyword; that of a text is the text. -/
structure MarkupToken where
  kind : MarkupKind
  value : String
  /-- Byte offset of the value in the text that the token was read from. -/
  offset : Nat
  deriving DecidableEq

namespace Markup

def openDelimiter : String := "\x7b\x7b"

def closeDelimiter : String := "\x7d\x7d"

/-- What follows a keyword at the start of a text, unless the text goes on with the same word. -/
def dropKeyword : List Char → List Char → Option (List Char)
  | [], cs => if cs.head?.any Text.continuesName then none else some cs
  | _ :: _, [] => none
  | k :: keyword, c :: cs => if k = c then dropKeyword keyword cs else none

/-- The keywords that a tag can start with, `else` apart. -/
def keywords : List MarkupKind :=
  [.elsifTag, .ifTag, .unlessTag, .forTag, .endTag, .includeTag]

/-- The kind of a tag and its value, from its trimmed text. An `else` with an `if` after it is an
`elsif`. -/
def kindAndValue (cs : List Char) : MarkupKind × List Char :=
  if cs = "pageBreak".toList then (.pageBreak, [])
  else
    match dropKeyword "else".toList cs with
    | some rest =>
      match dropKeyword "if".toList (Text.trimStart rest) with
      | some condition => (.elsifTag, Text.trimStart condition)
      | none => (.elseTag, Text.trimStart rest)
    | none =>
      match keywords.findSome? fun k =>
          (dropKeyword k.keyword.toList cs).map fun rest => (k, Text.trimStart rest) with
      | some found => found
      | none => (.value, cs)

/-- Classifies the text between the delimiters of a tag. The value stands at the end of the trimmed
text. -/
def classify (inner : List Char) : MarkupToken :=
  let trimmed := Text.trim inner
  let (kind, value) := kindAndValue trimmed
  let stop := Text.size8 (inner.takeWhile Text.isBlank) + Text.size8 trimmed
  ⟨kind, String.ofList value, stop - Text.size8 value⟩

end Markup

end FormLetter
