import FormLetter.Json.Record
import FormLetter.Validation.References
import FormLetter.Validation.Report

namespace FormLetter

namespace Location

def ofJson? (json : Json) : Option Location := do
  match ← json.record?
      ["part", "paragraphIndex", "runIndex", "charStartUtf16", "charEndUtf16"] with
  | [part, paragraph, run, start, stop] =>
    return {
      part := ← Json.required Json.string? part
      paragraph := ← Json.required Json.nat? paragraph
      run := ← Json.required Json.nat? run
      start := ← Json.required Json.nat? start
      stop := ← Json.required Json.nat? stop }
  | _ => none

def toJson (l : Location) : Json :=
  .object [("part", .string l.part), ("paragraphIndex", .ofNat l.paragraph),
    ("runIndex", .ofNat l.run), ("charStartUtf16", .ofNat l.start),
    ("charEndUtf16", .ofNat l.stop)]

end Location

namespace Validation

namespace TagRef

def ofJson? (json : Json) : Option TagRef := do
  match ← json.record? ["raw", "innerExpression", "tokenOrdinal", "anchorId"] with
  | [raw, inner, ordinal, anchor] =>
    return {
      raw := ← Json.required Json.string? raw
      inner := ← Json.required Json.string? inner
      ordinal := ← Json.required Json.nat? ordinal
      anchor := ← Json.required Json.string? anchor }
  | _ => none

def toJson (t : TagRef) : Json :=
  .object [("raw", .string t.raw), ("innerExpression", .string t.inner),
    ("tokenOrdinal", .ofNat t.ordinal), ("anchorId", .string t.anchor)]

end TagRef

namespace Severity

def name : Severity → String
  | error => "error"
  | warning => "warning"

def ofName? (s : String) : Option Severity :=
  [error, warning].find? (·.name = s)

end Severity

namespace Issue

def ofJson? (json : Json) : Option Issue := do
  match ← json.record? ["severity", "code", "message", "token", "location", "suggestions"] with
  | [severity, code, message, tag, location, suggestions] =>
    return {
      severity := ← Json.required (Json.choice? Severity.ofName?) severity
      code := ← Json.required (Json.choice? IssueCode.ofText?) code
      message := ← Json.required Json.string? message
      tag := ← Json.required TagRef.ofJson? tag
      location := ← Json.required Location.ofJson? location
      suggestions := ← Json.defaulted [] (Json.list? Json.string?) suggestions }
  | _ => none

/-- Without suggestions where there are none. -/
def toJson (i : Issue) : Json :=
  .object ([("severity", .string i.severity.name), ("code", .string i.code.text),
    ("message", .string i.message), ("token", i.tag.toJson), ("location", i.location.toJson)] ++
    if i.suggestions.isEmpty then [] else [("suggestions", .ofList Json.string i.suggestions)])

end Issue

namespace Summary

def ofJson? (json : Json) : Option Summary := do
  match ← json.record? ["checkedTokens", "errorCount", "warningCount", "returnedIssueCount"] with
  | [checked, errors, warnings, returned] =>
    return {
      checked := ← Json.required Json.nat? checked
      errors := ← Json.required Json.nat? errors
      warnings := ← Json.required Json.nat? warnings
      returned := ← Json.required Json.nat? returned }
  | _ => none

def toJson (s : Summary) : Json :=
  .object [("checkedTokens", .ofNat s.checked), ("errorCount", .ofNat s.errors),
    ("warningCount", .ofNat s.warnings), ("returnedIssueCount", .ofNat s.returned)]

end Summary

namespace Metadata

def ofJson? (json : Json) : Option Metadata := do
  match ← json.record? ["documentHash", "parserVersion"] with
  | [hash, version] =>
    return ⟨← Json.required Json.string? hash, ← Json.required Json.string? version⟩
  | _ => none

def toJson (m : Metadata) : Json :=
  .object [("documentHash", .string m.documentHash), ("parserVersion", .string m.version)]

end Metadata

namespace Report

def ofJson? (json : Json) : Option Report := do
  match ← json.record? ["valid", "issues", "summary", "issuesTruncated", "metadata"] with
  | [valid, issues, summary, truncated, metadata] =>
    return {
      valid := ← Json.required Json.bool? valid
      issues := ← Json.required (Json.list? Issue.ofJson?) issues
      summary := ← Json.required Summary.ofJson? summary
      truncated := ← Json.required Json.bool? truncated
      metadata := ← Json.required Metadata.ofJson? metadata }
  | _ => none

def toJson (r : Report) : Json :=
  .object [("valid", .bool r.valid), ("issues", .ofList Issue.toJson r.issues),
    ("summary", r.summary.toJson), ("issuesTruncated", .bool r.truncated),
    ("metadata", r.metadata.toJson)]

end Report

namespace Reference

def ofJson? (json : Json) : Option Reference := do
  match ← json.record? ["raw", "kind", "expression", "tokenOrdinal", "location"] with
  | [raw, kind, expression, ordinal, location] =>
    return {
      raw := ← Json.required Json.string? raw
      kind := ← Json.required (Json.choice? ReferenceKind.ofName?) kind
      expression := ← Json.required Json.string? expression
      ordinal := ← Json.required Json.nat? ordinal
      location := ← Json.required Location.ofJson? location }
  | _ => none

def toJson (r : Reference) : Json :=
  .object [("raw", .string r.raw), ("kind", .string r.kind.name),
    ("expression", .string r.expression), ("tokenOrdinal", .ofNat r.ordinal),
    ("location", r.location.toJson)]

end Reference

def referencesOfJson? (json : Json) : Option (List Reference) := do
  match ← json.record? ["references"] with
  | [references] => Json.required (Json.list? Reference.ofJson?) references
  | _ => none

def referencesToJson (references : List Reference) : Json :=
  .object [("references", .ofList Reference.toJson references)]

end Validation

end FormLetter
