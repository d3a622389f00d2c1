import FormLetter.Json.Record
import FormLetter.Render
import FormLetter.Validation

namespace FormLetter

namespace Validation

def SyntaxOptions.ofJson? (json : Json) : Option SyntaxOptions := do
  match ← json.record? ["maxIssues"] with
  | [maxIssues] => return ⟨← Json.optional Json.nat? maxIssues⟩
  | _ => none

def SyntaxOptions.toJson (options : SyntaxOptions) : Json :=
  .object [("maxIssues", .ofOption Json.ofNat options.maxIssues)]

def SchemaOptions.ofJson? (json : Json) : Option SchemaOptions := do
  match ← json.record? ["strict", "includeWarnings", "maxIssues"] with
  | [strict, includeWarnings, maxIssues] =>
    return {
      strict := ← Json.defaulted false Json.bool? strict
      includeWarnings := ← Json.defaulted false Json.bool? includeWarnings
      maxIssues := ← Json.optional Json.nat? maxIssues }
  | _ => none

def SchemaOptions.toJson (options : SchemaOptions) : Json :=
  .object [("strict", .bool options.strict), ("includeWarnings", .bool options.includeWarnings),
    ("maxIssues", .ofOption Json.ofNat options.maxIssues)]

end Validation

/-- The settings of an engine. -/
structure EngineConfig where
  maxDepth : Nat
  deriving DecidableEq, Repr

def EngineConfig.ofJson? (json : Json) : Option EngineConfig := do
  match ← json.record? ["maxDepth"] with
  | [maxDepth] => return ⟨← Json.defaulted defaultMaxDepth Json.nat? maxDepth⟩
  | _ => none

def EngineConfig.toJson (config : EngineConfig) : Json :=
  .object [("maxDepth", .ofNat config.maxDepth)]

end FormLetter
