import FormLetter.Json.Record
import FormLetter.Span

namespace FormLetter

namespace MarkupToken

def ofJson? (json : Json) : Option MarkupToken := do
  match ← json.record? ["kind", "value", "valueOffset"] with
  | [kind, value, offset] =>
    return {
      kind := ← Json.required (Json.choice? MarkupKind.ofKeyword?) kind
      value := ← Json.required Json.string? value
      offset := ← Json.required Json.nat? offset }
  | _ => none

def toJson (t : MarkupToken) : Json :=
  .object [("kind", .string t.kind.keyword), ("value", .string t.value),
    ("valueOffset", .ofNat t.offset)]

end MarkupToken

/-- A tag as it is written down. A record may say things of a tag that do not go together. -/
structure SpanRecord where
  part : String
  paragraph : Nat
  run : Nat
  start : Nat
  stop : Nat
  raw : String
  inner : String
  ordinal : Nat
  anchor : String
  malformed : Bool
  message : Option String
  token : Option MarkupToken
  deriving DecidableEq

def Span.record (s : Span) : SpanRecord where
  part := s.part
  paragraph := s.paragraph
  run := s.run
  start := s.start
  stop := s.stop
  raw := s.raw
  inner := s.inner
  ordinal := s.ordinal
  anchor := s.anchor
  malformed := match s.content with
    | .ok _ => false
    | .error _ => true
  message := match s.content with
    | .ok _ => none
    | .error fault => some fault.message
  token := s.content.toOption

namespace SpanRecord

def fieldNames : List String :=
  ["part", "paragraphIndex", "runIndex", "charStartUtf16", "charEndUtf16", "raw",
    "innerExpression", "tokenOrdinal", "anchorId", "malformed", "message", "token"]

/-- An array has to name what is missing with null. -/
def ofJson? (json : Json) : Option SpanRecord := do
  guard (json.isFull fieldNames)
  match ← json.record? fieldNames with
  | [part, paragraph, run, start, stop, raw, inner, ordinal, anchor, malformed, message, token] =>
    return {
      part := ← Json.required Json.string? part
      paragraph := ← Json.required Json.nat? paragraph
      run := ← Json.required Json.nat? run
      start := ← Json.required Json.nat? start
      stop := ← Json.required Json.nat? stop
      raw := ← Json.required Json.string? raw
      inner := ← Json.required Json.string? inner
      ordinal := ← Json.required Json.nat? ordinal
      anchor := ← Json.required Json.string? anchor
      malformed := ← Json.required Json.bool? malformed
      message := ← Json.optional Json.string? message
      token := ← Json.optional MarkupToken.ofJson? token }
  | _ => none

/-- Without a message or a token where there is none. -/
def toJson (s : SpanRecord) : Json :=
  .object ([("part", .string s.part), ("paragraphIndex", .ofNat s.paragraph),
    ("runIndex", .ofNat s.run), ("charStartUtf16", .ofNat s.start),
    ("charEndUtf16", .ofNat s.stop), ("raw", .string s.raw),
    ("innerExpression", .string s.inner), ("tokenOrdinal", .ofNat s.ordinal),
    ("anchorId", .string s.anchor), ("malformed", .bool s.malformed)] ++
    (s.message.toList.map fun message => ("message", .string message)) ++
    s.token.toList.map fun token => ("token", token.toJson))

end SpanRecord

end FormLetter
