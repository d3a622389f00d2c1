import FormLetter.Expr.Parser
import FormLetter.Validation.Issue

namespace FormLetter.Validation

/-- A block that is open. -/
structure OpenTag where
  kind : MarkupKind
  opener : Span
  seenElse : Bool

/-- What is wrong with an expression or a loop header. -/
def unparsable (token : MarkupToken) : List Finding :=
  let parsed := if token.kind = .forTag then (LoopHeader.parse token.value).map fun _ => ()
    else (Expr.parse token.value).map fun _ => ()
  match parsed with
  | .ok () => []
  | .error e => [.unparsable token.value e]

/-- What is wrong with the text of a tag. -/
def textFindings (token : MarkupToken) : List Finding :=
  match token.kind with
  | .text | .pageBreak => []
  | .elseTag | .endTag => if token.value.isEmpty then [] else [.textAfter token.kind token.value]
  | _ => unparsable token

/-- What is wrong with the place of a tag, and the blocks that are open after it, the innermost
first. Where something is wrong, the blocks stay open as they are. -/
def place (tags : List OpenTag) (span : Span) (kind : MarkupKind) : List Finding × List OpenTag :=
  match kind with
  | .text | .value | .includeTag | .pageBreak => ([], tags)
  | .ifTag | .unlessTag | .forTag => ([], ⟨kind, span, false⟩ :: tags)
  | .elsifTag =>
    match tags with
    | tag :: _ =>
      if tag.kind = .ifTag then (if tag.seenElse then [.elsifAfterElse] else [], tags)
      else ([.elsifOutside], tags)
    | [] => ([.elsifOutside], tags)
  | .elseTag =>
    match tags with
    | tag :: rest =>
      if tag.kind = .ifTag ∨ tag.kind = .unlessTag then
        if tag.seenElse then ([.secondElse tag.kind], tags)
        else ([], { tag with seenElse := true } :: rest)
      else ([.elseOutside], tags)
    | [] => ([.elseOutside], tags)
  | .endTag =>
    match tags with
    | _ :: rest => ([], rest)
    | [] => ([.endOutside], [])

/-- What is wrong with a tag, and the blocks that are open after it. -/
def visit (tags : List OpenTag) (span : Span) : List Finding × List OpenTag :=
  match span.content with
  | .error fault => ([.malformed fault], tags)
  | .ok token =>
    let (found, after) := place tags span token.kind
    (textFindings token ++ found, after)

/-- What is wrong with tags, given the blocks that are open before them. Blocks that stay open are
named at last, the outermost first. -/
def blockRemarks (tags : List OpenTag) : List Span → List Remark
  | [] => tags.reverse.map fun tag => ⟨tag.opener, .missingEnd tag.kind⟩
  | span :: spans =>
    let (found, after) := visit tags span
    found.map (⟨span, ·⟩) ++ blockRemarks after spans

def syntaxRemarks (spans : List Span) : List Remark :=
  blockRemarks [] spans

end FormLetter.Validation
