import FormLetter.Validation.Blocks
import FormLetter.Validation.Report
import FormLetter.Validation.Scopes

namespace FormLetter.Validation

structure SyntaxOptions where
  /-- The greatest number of issues that a report holds. -/
  maxIssues : Option Nat
  deriving DecidableEq, Repr

structure SchemaOptions where
  /-- What the schema does not know is an error. -/
  strict : Bool
  includeWarnings : Bool
  maxIssues : Option Nat
  deriving DecidableEq, Repr

/-- The issues of the tags themselves. -/
def syntaxIssues (spans : List Span) : List Issue :=
  (syntaxRemarks spans).map (·.issue .error)

/-- The issues of tags and schema. -/
def schemaIssues (schema : Schema) (strict : Bool) (spans : List Span) : List Issue :=
  (schemaRemarks schema spans).map (·.issue (if strict then .error else .warning))

def validateSyntax (archive : List UInt8) (options : SyntaxOptions) :
    Except DocumentError Report := do
  let spans ← Span.ofDocument archive
  return .build (syntaxIssues spans) spans.length (.ofDocument archive) true options.maxIssues

def validateSchema (archive : List UInt8) (schema : Schema) (options : SchemaOptions) :
    Except DocumentError Report := do
  let spans ← Span.ofDocument archive
  let issues := syntaxIssues spans ++ schemaIssues schema options.strict spans
  return .build issues spans.length (.ofDocument archive) options.includeWarnings
    options.maxIssues

end FormLetter.Validation
