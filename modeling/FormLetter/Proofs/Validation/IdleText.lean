import FormLetter.Proofs.Expr.RoundTrip
import FormLetter.Proofs.Validation.Acceptance

namespace FormLetter

open Document (Paragraph)
open Outcome

namespace MarkupToken

/-- Tags whose keyword stands alone: nothing reads what is written after it. -/
def IsLone (t : MarkupToken) : Prop :=
  t.kind = .elseTag ∨ t.kind = .endTag

instance (t : MarkupToken) : Decidable t.IsLone :=
  inferInstanceAs (Decidable (_ ∨ _))

/-- A token without the text that nothing reads. -/
def silent (t : MarkupToken) : MarkupToken :=
  if t.IsLone then { t with value := "" } else t

theorem silent_of_not_isLone {t : MarkupToken} (h : ¬t.IsLone) : t.silent = t := by
  rw [silent, if_neg h]

theorem silent_of_isLone {t : MarkupToken} (h : t.IsLone) :
    t.silent = { t with value := "" } := by
  rw [silent, if_pos h]

end MarkupToken

namespace Builder

/-- A step does not read what is written after a keyword that stands alone. -/
theorem step_silent (b : Builder) (t : MarkupToken) : b.step t.silent = b.step t := by
  by_cases h : t.IsLone
  · rw [MarkupToken.silent_of_isLone h]
    rcases h with h | h <;> simp [step, h, Body.unbalanced]
  · rw [MarkupToken.silent_of_not_isLone h]

theorem run_silent (stop : Nat) (b : Builder) (ts : List MarkupToken) :
    b.run stop (ts.map MarkupToken.silent) = b.run stop ts := by
  induction ts generalizing b with
  | nil => rfl
  | cons t ts ih =>
    rw [List.map_cons, run_cons, run_cons, step_silent]
    congr 1
    funext b'
    exact ih b'

end Builder

namespace Validation

/-- What is remarked upon in a tag whose keyword should stand alone. -/
def idleText (span : Span) : List Remark :=
  match span.content with
  | .ok token =>
    if token.IsLone ∧ token.value ≠ "" then [⟨span, .textAfter token.kind token.value⟩] else []
  | .error _ => []

/-- If nothing but idle text is found in a tag, that is the text after its keyword. -/
theorem visit_of_idle {span : Span} (h : ∀ f ∈ (visit tags span).1, Remark.IsIdle ⟨span, f⟩) :
    (visit tags span).1.map (⟨span, ·⟩) = idleText span := by
  cases hs : span.content with
  | error fault =>
    obtain ⟨hcode, _⟩ := h (.malformed fault) (by simp [visit, hs])
    cases hcode
  | ok token =>
    have hvisit : (visit tags span).1 = textFindings token ++ (place tags span token.kind).1 := by
      simp [visit, hs]
    rw [hvisit] at h ⊢
    have hplace : (place tags span token.kind).1 = [] := by
      cases hn : (nesting tags).step? token.kind with
      | some after => exact (place_of_step span hn).1
      | none =>
        obtain ⟨f, hf, hb⟩ := place_of_step_none span hn
        exact absurd (h f (by simp [hf])) (not_isIdle_of_isBlockIssue hb)
    rw [hplace, List.append_nil] at h ⊢
    by_cases hk : token.IsLone
    · have hfound : textFindings token =
          if token.value.isEmpty then [] else [.textAfter token.kind token.value] := by
        rcases hk with hk | hk <;> simp [textFindings, hk]
      by_cases hv : token.value = "" <;> simp [hfound, idleText, hs, hk, hv]
    · rw [textFindings_eq_nil_of_idle hs hk h]
      simp [idleText, hs, hk]

/-- If nothing but idle text is remarked upon, each text after a keyword that should stand alone is
remarked upon once, in order. -/
theorem blockRemarks_of_idle (h : ∀ r ∈ blockRemarks tags spans, r.IsIdle) :
    blockRemarks tags spans = spans.flatMap idleText := by
  induction spans generalizing tags with
  | nil =>
    have hnil := (blockRemarks_nil_iff fun tag => not_isIdle_of_isBlockIssue rfl).mp h
    cases tags with
    | nil => rfl
    | cons tag tags => cases hnil
  | cons span spans ih =>
    rw [forall_blockRemarks_cons] at h
    rw [List.flatMap_cons, ← visit_of_idle h.1, ← ih h.2]
    rfl

theorem idleText_eq_nil_iff {span : Span} :
    idleText span = [] ↔
      ∀ token, span.content = .ok token → token.IsLone → token.value = "" := by
  cases hs : span.content with
  | error fault => simp [idleText, hs]
  | ok token => simp [idleText, hs]

end Validation

namespace Template

theorem isIdle_of_parse (h : Template.parse (String.ofList p.text) = .ok t) (part : String)
    (ordinal : Nat) :
    ∀ r ∈ Validation.syntaxRemarks (Span.ofParagraph part ordinal p), r.IsIdle := by
  obtain ⟨ts, hts, haccepts⟩ := (parse_isOk_iff _).mp ⟨t, h⟩
  obtain ⟨found, hfound, htags⟩ := Span.exists_contents part ordinal p hts
  exact (Validation.syntaxRemarks_idle_iff hfound).mpr ((Body.accepts_of_tags htags).mp haccepts)

/-- What is remarked upon in the spans of a text that can be read as a template is each text after
an `else` or an `end`, once and in order. So nothing is if there is no such text. None of it is
read: without it the tokens make up the same body. -/
theorem idle_text_of_parse (h : Template.parse s = .ok t) (part : String) (ordinal : Nat)
    (p : Paragraph) (hp : p.text = s.toList) :
    let spans := Span.ofParagraph part ordinal p
    Validation.syntaxRemarks spans = spans.flatMap Validation.idleText ∧
    (Validation.syntaxRemarks spans = [] ↔ ∀ span ∈ spans, ∀ token, span.content = .ok token →
      token.IsLone → token.value = "") ∧
    ∀ ts, Markup.tokens s = .ok ts →
      Body.ofTokens s.utf8ByteSize (ts.map MarkupToken.silent) = .ok t.body := by
  obtain rfl : String.ofList p.text = s := by rw [hp, String.ofList_toList]
  intro spans
  have hremarks : Validation.syntaxRemarks spans = spans.flatMap Validation.idleText :=
    Validation.blockRemarks_of_idle (isIdle_of_parse h part ordinal)
  refine ⟨hremarks, ?_, ?_⟩
  · rw [hremarks, List.flatMap_eq_nil_iff]
    exact forall₂_congr fun span _ => Validation.idleText_eq_nil_iff
  · intro ts hts
    obtain ⟨_, ts', hts', hbody⟩ := parse_eq_ok.mp h
    obtain rfl := Except.ok.inj (hts.symm.trans hts')
    rw [Builder.ofTokens_eq_run, Builder.run_silent, ← Builder.ofTokens_eq_run, hbody]

/-- A condition after an `else`, and an access to a field of what is named `end`. -/
theorem parse_idle_text :
    let s := "\x7b\x7bif a\x7d\x7d\x7b\x7belse b\x7d\x7d\x7b\x7bend.c\x7d\x7d"
    Template.parse s = .ok ⟨s, [.ifBlock [(.var "a", [])] (some [])]⟩ := by
  intro s
  have ha : Expr.parse "a" = .ok (.var "a") :=
    Expr.parse_of_isReference ⟨⟨'a', [], rfl, rfl, by simp⟩, rfl⟩
  have hts : Markup.tokens s =
      .ok [⟨.ifTag, "a", 5⟩, ⟨.elseTag, "b", 15⟩, ⟨.endTag, ".c", 23⟩] := by decide +kernel
  simp only [Template.parse, hts, ok_bind, Builder.ofTokens_eq_run, Builder.run, Builder.step,
    Body.expression, ha, mapError_ok, pure_eq_ok]
  rfl

theorem idle_text_of_parse_else :
    let s := "\x7b\x7bif a\x7d\x7d\x7b\x7belse b\x7d\x7d\x7b\x7bend.c\x7d\x7d"
    let t : Template := ⟨s, [.ifBlock [(.var "a", [])] (some [])]⟩
    let p : Paragraph := ⟨0, [⟨0, s.toList⟩]⟩
    let spans := Span.ofParagraph Document.mainPart 0 p
    Template.parse s = .ok t ∧ p.text = s.toList ∧
    Validation.syntaxRemarks spans = spans.flatMap Validation.idleText ∧
    (Validation.syntaxRemarks spans = [] ↔ ∀ span ∈ spans, ∀ token, span.content = .ok token →
      token.IsLone → token.value = "") ∧
    ∀ ts, Markup.tokens s = .ok ts →
      Body.ofTokens s.utf8ByteSize (ts.map MarkupToken.silent) = .ok t.body :=
  ⟨parse_idle_text, by decide +kernel,
    idle_text_of_parse parse_idle_text Document.mainPart 0 ⟨0, [⟨0, _⟩]⟩ (by decide +kernel)⟩

/-- The syntax check remarks upon templates that can be read. -/
theorem parsed_but_remarked :
    ¬∀ (s : String) (t : Template) (part : String) (ordinal : Nat) (p : Paragraph),
      Template.parse s = .ok t → p.text = s.toList →
        Validation.syntaxRemarks (Span.ofParagraph part ordinal p) = [] := by
  intro h
  let s := "\x7b\x7bif a\x7d\x7d\x7b\x7belse b\x7d\x7d\x7b\x7bend.c\x7d\x7d"
  let p : Paragraph := ⟨0, [⟨0, s.toList⟩]⟩
  have hp : p.text = s.toList := by decide +kernel
  have hparse : Template.parse (String.ofList p.text) =
      .ok ⟨s, [.ifBlock [(.var "a", [])] (some [])]⟩ := by
    rw [hp, String.ofList_toList]
    exact parse_idle_text
  have hnone := h s _ Document.mainPart 0 p parse_idle_text hp
  rw [Validation.syntaxRemarks, Validation.blockRemarks_of_idle
    (isIdle_of_parse hparse Document.mainPart 0), List.flatMap_eq_nil_iff] at hnone
  have hcontents : ((Span.ofParagraph Document.mainPart 0 p).map Span.content)[1]? =
      some (.ok ⟨.elseTag, "b", 5⟩) := by decide +kernel
  obtain ⟨span, hs, hcontent⟩ := List.mem_map.mp (List.mem_of_getElem? hcontents)
  have hempty := Validation.idleText_eq_nil_iff.mp (hnone span hs) _ hcontent (.inl rfl)
  exact absurd hempty (by decide)

end Template

end FormLetter
