import FormLetter.Expr.Error
import FormLetter.Markup

namespace FormLetter.Markup

/-- The text before and after the first place where a character stands twice. -/
def findPair (c : Char) : List Char → Option (List Char × List Char)
  | a :: b :: rest =>
    if a = c ∧ b = c then some ([], rest)
    else (findPair c (b :: rest)).map fun (before, after) => (a :: before, after)
  | _ => none

theorem eq_of_findPair (h : findPair c cs = some (before, after)) :
    cs = before ++ c :: c :: after := by
  fun_induction findPair c cs generalizing before with
  | case1 a b rest hab =>
    simp only [Option.some.injEq, Prod.mk.injEq] at h
    obtain ⟨rfl, rfl⟩ := h
    obtain ⟨rfl, rfl⟩ := hab
    rfl
  | case2 a b rest hab ih =>
    obtain ⟨⟨before', after'⟩, hr, he⟩ := Option.map_eq_some_iff.mp h
    simp only [Prod.mk.injEq] at he
    obtain ⟨rfl, rfl⟩ := he
    rw [ih hr, List.cons_append]
  | case3 => simp at h

/-- The inner text of a tag and what follows it, for the text after the opening delimiter. A tag
that opens again before it closes is not closed. -/
def closeTag? (cs : List Char) : Option (List Char × List Char) :=
  match findPair '}' cs, findPair '{' cs with
  | some (inner, rest), some (reopened, _) =>
    if reopened.length < inner.length then none else some (inner, rest)
  | close, _ => close

theorem eq_of_closeTag? {inner : List Char} (h : closeTag? cs = some (inner, rest)) :
    cs = inner ++ '}' :: '}' :: rest := by
  unfold closeTag? at h
  split at h
  · rename_i hc _
    split at h
    · simp at h
    · cases h; exact eq_of_findPair hc
  · exact eq_of_findPair h

def textToken (cs : List Char) (position : Nat) : List MarkupToken :=
  if cs.isEmpty then [] else [⟨.text, String.ofList cs, position⟩]

/-- The tokens of a text that starts at a byte offset. -/
def tokensFrom (position : Nat) (cs : List Char) : Except ParseError (List MarkupToken) :=
  match _ho : findPair '{' cs with
  | none => .ok (textToken cs position)
  | some (before, after) =>
    let opening := position + Text.size8 before
    match _hc : closeTag? after with
    | none => .error ⟨opening, .unclosedTag⟩
    | some (inner, rest) =>
      let tag := classify inner
      match tokensFrom (opening + 2 + Text.size8 inner + 2) rest with
      | .error e => .error e
      | .ok tokens =>
        .ok (textToken before position ++ { tag with offset := opening + 2 + tag.offset } :: tokens)
termination_by cs.length
decreasing_by
  rw [eq_of_findPair _ho, eq_of_closeTag? _hc]
  simp only [List.length_append, List.length_cons]
  omega

/-- Splits a template into literal text and tags. -/
def tokens (source : String) : Except ParseError (List MarkupToken) :=
  tokensFrom 0 source.toList

end FormLetter.Markup
