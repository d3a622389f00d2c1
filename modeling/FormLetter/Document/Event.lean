import FormLetter.Xml.Event
import FormLetter.Xml.Scope

namespace FormLetter.Document

inductive Element where
  | paragraph
  | run
  | text
  | tab
  | lineBreak
  | other
  deriving DecidableEq, Repr

/-- What a reader of text knows of a part. Fallback elements repeat other content in an older form
and are left out. -/
inductive Event where
  | start (element : Element)
  | empty (element : Element)
  | stop (element : Element)
  /-- Text as it is written, with its references. -/
  | text (raw : List Char)
  | characters (raw : List Char)
  deriving DecidableEq

def wordSpaces : List (List Char) :=
  ["http://schemas.openxmlformats.org/wordprocessingml/2006/main".toList,
    "http://purl.oclc.org/ooxml/wordprocessingml/main".toList]

def compatibilitySpace : List Char :=
  "http://schemas.openxmlformats.org/markup-compatibility/2006".toList

/-- The namespace of a name in a scope, and its local name. -/
def resolve (scope : Xml.Scope) (name : List Char) : Option (List Char) × String :=
  let (qualifier, localName) := Xml.splitName name
  (scope.space? qualifier, String.ofList localName)

def isFallback (scope : Xml.Scope) (name : List Char) : Bool :=
  resolve scope name = (some compatibilitySpace, "Fallback")

def Element.ofName (scope : Xml.Scope) (name : List Char) : Element :=
  let (space, localName) := resolve scope name
  if space.any (wordSpaces.contains ·) then
    match localName with
    | "p" => .paragraph
    | "r" => .run
    | "t" => .text
    | "tab" => .tab
    | "br" | "cr" => .lineBreak
    | _ => .other
  else .other

/-- What follows the end of an element, some of whose namesakes are still open in it. -/
def skip? (name : List Char) (depth : Nat) : List Xml.Event → Option (List Xml.Event)
  | [] => none
  | .start tag :: events => skip? name (if tag.name = name then depth + 1 else depth) events
  | .stop closed :: events =>
    if closed = name then
      match depth with
      | 0 => some events
      | depth + 1 => skip? name depth events
    else skip? name depth events
  | _ :: events => skip? name depth events

theorem skip?_length (h : skip? name depth events = some rest) :
    rest.length < events.length := by
  fun_induction skip? name depth events <;> grind

/-- The events of a part, given the scopes that were entered and not left, the latest first. An end
tag leaves the latest one. That of a skipped element is passed over, so that the scope of the
element is left with the next end tag only. -/
def events? (scopes : List Xml.Scope) (found : List Xml.Event) : Option (List Event) :=
  let scope := scopes.headD []
  match found with
  | [] => some []
  | .start tag :: rest =>
    match scope.enter? tag with
    | none => none
    | some inner =>
      if isFallback inner tag.name then
        match _h : skip? tag.name 0 rest with
        | none => none
        | some after => events? (inner :: scopes) after
      else
        (events? (inner :: scopes) rest).map (.start (.ofName inner tag.name) :: ·)
  | .empty tag :: rest =>
    match scope.enter? tag with
    | none => none
    | some inner => (events? scopes rest).map (.empty (.ofName inner tag.name) :: ·)
  | .stop name :: rest => (events? scopes.tail rest).map (.stop (.ofName scope name) :: ·)
  | .text raw :: rest => (events? scopes rest).map (.text raw :: ·)
  | .characters raw :: rest => (events? scopes rest).map (.characters raw :: ·)
termination_by found.length
decreasing_by
  · have := skip?_length _h
    simp_all only [List.length_cons]
    omega
  all_goals simp_all

/-- The events of the text of a part, if it is well formed. -/
def readEvents? (source : List Char) : Option (List Event) :=
  (Xml.events? source).bind (events? [])

end FormLetter.Document
