import FormLetter.Expr.Parser
import FormLetter.Validation.Inference
import FormLetter.Validation.Issue

namespace FormLetter.Validation

/-- The variables of a loop. An item comes before an index. -/
def headerScope (env : Env) (header : LoopHeader) (collection : TypeInfo) : Scope :=
  let item : Binding :=
    ⟨header.item, (collection.element.map TypeInfo.ofKind).getD .unknown,
      header.collection.path?.bind env.schemaPath?⟩
  item :: header.index.toList.map fun name => ⟨name, .ofKind .number, none⟩

/-- What is wrong with an expression, as far as it can be read. -/
def expressionFindings (env : Env) (value : String) : List Finding :=
  match Expr.parse value with
  | .ok e => (env.infer e).2
  | .error _ => []

/-- What is wrong with a tag, and the scopes after it, the innermost first. A loop that cannot be
read has no variables. -/
def visitToken (schema : Schema.Index) (scopes : List Scope) (token : MarkupToken) :
    List Finding × List Scope :=
  let env : Env := ⟨schema, scopes⟩
  match token.kind with
  | .text | .pageBreak | .elseTag => ([], scopes)
  | .value | .includeTag | .elsifTag => (expressionFindings env token.value, scopes)
  | .ifTag | .unlessTag => (expressionFindings env token.value, [] :: scopes)
  | .forTag =>
    match LoopHeader.parse token.value with
    | .ok header =>
      let (collection, found) := env.infer header.collection
      (found, headerScope env header collection :: scopes)
    | .error _ => ([], [] :: scopes)
  | .endTag => ([], scopes.tail)

/-- Tags without an end are left aside. -/
def visitSpan (schema : Schema.Index) (scopes : List Scope) (span : Span) :
    List Finding × List Scope :=
  match span.content with
  | .error _ => ([], scopes)
  | .ok token => visitToken schema scopes token

/-- What is wrong with tags, given the scopes before them. -/
def scopeRemarks (schema : Schema.Index) (scopes : List Scope) : List Span → List Remark
  | [] => []
  | span :: spans =>
    let (found, after) := visitSpan schema scopes span
    found.map (⟨span, ·⟩) ++ scopeRemarks schema after spans

def schemaRemarks (schema : Schema) (spans : List Span) : List Remark :=
  scopeRemarks schema.index [] spans

end FormLetter.Validation
