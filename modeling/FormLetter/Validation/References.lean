import FormLetter.Expr.Parser
import FormLetter.Expr.Path
import FormLetter.Validation.Issue

namespace FormLetter.Validation

inductive ReferenceKind where
  /-- A path of data. -/
  | path
  | control
  | function
  deriving DecidableEq, Repr

namespace ReferenceKind

def name : ReferenceKind → String
  | path => "variable"
  | control => "control"
  | function => "function"

def all : List ReferenceKind := [path, control, function]

def ofName? (s : String) : Option ReferenceKind :=
  all.find? (·.name = s)

end ReferenceKind

structure Reference where
  raw : String
  kind : ReferenceKind
  /-- The path, the name of the function, or the text of the control tag. -/
  expression : String
  ordinal : Nat
  location : Location
  deriving DecidableEq, Repr

abbrev Mention := ReferenceKind × String

/-- Each mention is listed once. -/
def mention (found : List Mention) (m : Mention) : List Mention :=
  if found.contains m then found else found ++ [m]

mutual
/-- Adds what an expression mentions, in the order of first use. -/
def mentions : Expr → List Mention → List Mention
  | .literal _, found => found
  | .var name, found => mention found (.path, name)
  | .field object name, found =>
    match (Expr.field object name).path? with
    | some path => keyMentions object (mention found (.path, path.display))
    | none => mentions object found
  | .index object key, found =>
    match (Expr.index object key).path? with
    | some path => mentions key (keyMentions object (mention found (.path, path.display)))
    | none => mentions key (mentions object found)
  | .unary _ operand, found => mentions operand found
  | .binary _ left right, found => mentions right (mentions left found)
  | .call name args, found => mentionsAll args (mention found (.function, name))
termination_by structural e => e

/-- Adds what the indexes along a path mention. -/
def keyMentions : Expr → List Mention → List Mention
  | .field object _, found => keyMentions object found
  | .index object key, found => mentions key (keyMentions object found)
  | _, found => found
termination_by structural e => e

def mentionsAll : List Expr → List Mention → List Mention
  | [], found => found
  | e :: es, found => mentionsAll es (mentions e found)
termination_by structural es => es
end

/-- What the text of a tag mentions, as far as it can be read. -/
def textMentions (token : MarkupToken) (found : List Mention) : List Mention :=
  match token.kind with
  | .text | .pageBreak | .elseTag | .endTag => found
  | .forTag =>
    match LoopHeader.parse token.value with
    | .ok header => mentions header.collection found
    | .error _ => found
  | _ =>
    match Expr.parse token.value with
    | .ok e => mentions e found
    | .error _ => found

def spanMentions (span : Span) : List Mention :=
  match span.content with
  | .error _ => []
  | .ok token =>
    textMentions token (if token.kind.isControl then [(.control, span.inner)] else [])

def spanReferences (span : Span) : List Reference :=
  (spanMentions span).map fun (kind, expression) =>
    ⟨span.raw, kind, expression, span.ordinal, span.location⟩

/-- Ordered by place, kind and text. -/
def Reference.compare (a b : Reference) : Ordering :=
  (Ord.compare a.ordinal b.ordinal).then <|
    (Ord.compare a.location.part b.location.part).then <|
    (Ord.compare a.location.start b.location.start).then <|
    (Ord.compare a.kind.name b.kind.name).then <|
    (Ord.compare a.expression b.expression).then <|
    Ord.compare a.raw b.raw

/-- What tags refer to, in order. -/
def references (spans : List Span) : List Reference :=
  (spans.flatMap spanReferences).mergeSort fun a b => (a.compare b).isLE

def extractReferences (archive : List UInt8) : Except DocumentError (List Reference) := do
  return references (← Span.ofDocument archive)

end FormLetter.Validation
