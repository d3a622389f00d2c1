import FormLetter.Proofs.Expr.RoundTrip
import FormLetter.Proofs.Markup.Lines
import FormLetter.Proofs.Template.Pieces
import FormLetter.Proofs.Validation.Acceptance
import FormLetter.Render

namespace FormLetter

open Document (Paragraph joinLines)
open Outcome

namespace MarkupToken

/-- Where a token stands does not tell in what it is read as. -/
theorem read_unplaced (t : MarkupToken) : t.unplaced.read = .ok p ↔ t.read = .ok p := by
  have he (e : Expr) : Body.expression t.unplaced = .ok e ↔ Body.expression t = .ok e := by
    rw [Body.expression_eq_ok, Body.expression_eq_ok]
    exact Iff.rfl
  have hh (header : LoopHeader) :
      Body.loopHeader t.unplaced = .ok header ↔ Body.loopHeader t = .ok header := by
    rw [Body.loopHeader_eq_ok, Body.loopHeader_eq_ok]
    exact Iff.rfl
  cases hk : t.kind <;> simp [read, hk, map_eq_ok, he, hh]

end MarkupToken

def Piece.isTag (p : Piece) : Bool :=
  p.kind != .text

theorem mapM_read_filter {ts : List MarkupToken} (h : ts.mapM MarkupToken.read = .ok ps) :
    (ts.filter MarkupToken.isTag).mapM MarkupToken.read = .ok (ps.filter Piece.isTag) := by
  rw [mapM_eq_ok] at h ⊢
  induction ts generalizing ps with
  | nil =>
    obtain rfl := List.map_eq_nil_iff.mp h.symm
    rfl
  | cons t ts ih =>
    cases ps with
    | nil => cases h
    | cons p ps =>
      simp only [List.map_cons, List.cons.injEq] at h
      have hk : p.isTag = t.isTag := by
        rw [Piece.isTag, MarkupToken.isTag, MarkupToken.read_kind h.1]
      by_cases ht : t.isTag = true
      · rw [List.filter_cons_of_pos ht, List.filter_cons_of_pos (hk.trans ht), List.map_cons,
          List.map_cons, h.1, ih h.2]
      · rw [List.filter_cons_of_neg ht, List.filter_cons_of_neg (hk ▸ ht), ih h.2]

theorem mapM_read_unplaced {ts : List MarkupToken} :
    (ts.map MarkupToken.unplaced).mapM MarkupToken.read = .ok ps ↔
      ts.mapM MarkupToken.read = .ok ps := by
  rw [mapM_eq_ok, mapM_eq_ok]
  induction ts generalizing ps with
  | nil => exact Iff.rfl
  | cons t ts ih =>
    cases ps with
    | nil => simp
    | cons p ps => simp [MarkupToken.read_unplaced, ← ih]

namespace Span

theorem scan_cons (found : List Span) (part : String) (p : Paragraph)
    (paragraphs : List (String × Paragraph)) :
    scan found ((part, p) :: paragraphs) =
      scan (found ++ ofParagraph part found.length p) paragraphs := rfl

/-- The spans found before stay as they are. -/
theorem exists_scan_eq (found : List Span) (paragraphs : List (String × Paragraph)) :
    ∃ later, scan found paragraphs = found ++ later := by
  induction paragraphs generalizing found with
  | nil => exact ⟨[], (List.append_nil found).symm⟩
  | cons first paragraphs ih =>
    obtain ⟨later, h⟩ := ih (found ++ ofParagraph first.1 found.length first.2)
    exact ⟨_, by rw [scan_cons, h, List.append_assoc]⟩

/-- Where all spans are closed, they hold the tags of the lines that the paragraphs make. -/
theorem lineTags_of_closed (found : List Span) (paragraphs : List (String × Paragraph))
    (start : Nat) (h : ∀ s ∈ scan found paragraphs, s.IsClosed) :
    ∃ ts tags : List MarkupToken,
      Markup.lineTags start (paragraphs.map (·.2.text)) = .ok ts ∧
      (scan found paragraphs).map content = found.map content ++ tags.map .ok ∧
      ts.map MarkupToken.unplaced = tags.map MarkupToken.unplaced := by
  induction paragraphs generalizing found start with
  | nil => exact ⟨[], [], rfl, (List.append_nil _).symm, rfl⟩
  | cons first paragraphs ih =>
    obtain ⟨part, p⟩ := first
    rw [scan_cons] at h ⊢
    obtain ⟨later, hl⟩ := exists_scan_eq (found ++ ofParagraph part found.length p) paragraphs
    obtain ⟨ts, ht⟩ := (tokens_isOk_iff part found.length p).mpr fun s hs => h s (by simp [hl, hs])
    obtain ⟨tags, hc, hu⟩ := exists_contents part found.length p ht
    obtain ⟨restTs, restTags, hr, hrc, hru⟩ := ih _ (start + Text.size8 p.text + 1) h
    have hline : Markup.tagsFrom 0 p.text = .ok (ts.filter MarkupToken.isTag) := by
      rw [Markup.tokens, String.toList_ofList] at ht
      rw [Markup.tagsFrom, ht]
      rfl
    refine ⟨(ts.filter MarkupToken.isTag).map (Markup.moved start) ++ restTs, tags ++ restTags,
      ?_, ?_, ?_⟩
    · rw [List.map_cons, Markup.lineTags, hline, ok_bind, hr, ok_bind, pure_eq_ok]
    · rw [hrc, List.map_append, hc, List.append_assoc, List.map_append]
    · rw [List.map_append, List.map_append, hru, ← hu, List.map_map]
      rfl

end Span

namespace Document

/-- The paragraphs of the main part of a document. -/
def mainParagraphs (archive : List UInt8) : Except DocumentError (List Paragraph) := do
  let package ← readPackage archive
  partParagraphs mainPart (← package.getPart mainPart)

theorem bodyText_eq (h : mainParagraphs archive = .ok paragraphs) :
    bodyText archive = .ok (joinLines (paragraphs.map Paragraph.text)) := by
  obtain ⟨package, hp, h⟩ := bind_eq_ok.mp h
  obtain ⟨octets, ho, h⟩ := bind_eq_ok.mp h
  rw [bodyText, hp, ok_bind, ho, ok_bind, h, ok_bind, pure_eq_ok]

end Document

/-- Paragraphs of which nothing is remarked make a text that can be read as a template. Its tags are
those of the spans, each moved with its paragraph, and so are the tags of its body, where each is
what it is read as. A document with such a main part can be included. -/
theorem Fragment.template_of_unremarked (paragraphs : List (String × Paragraph))
    (h : Validation.syntaxRemarks (Span.scan [] paragraphs) = []) :
    (∃ (t : Template) (ts tags : List MarkupToken),
      Template.parse (String.ofList (joinLines (paragraphs.map (·.2.text)))) = .ok t ∧
      Markup.tokens t.source = .ok ts ∧
      (Span.scan [] paragraphs).map Span.content = tags.map .ok ∧
      (ts.filter MarkupToken.isTag).map MarkupToken.unplaced = tags.map MarkupToken.unplaced ∧
      Markup.lineTags 0 (paragraphs.map (·.2.text)) = .ok (ts.filter MarkupToken.isTag) ∧
      tags.mapM MarkupToken.read = .ok ((bodyPieces t.body).filter Piece.isTag)) ∧
    ∀ archive, Document.mainParagraphs archive = .ok (paragraphs.map Prod.snd) →
      ∃ t, (Fragment.document archive).template = .ok t := by
  have hidle : ∀ r ∈ Validation.syntaxRemarks (Span.scan [] paragraphs), r.IsIdle := by simp [h]
  obtain ⟨lineTs, tags, hl, hc, hu⟩ :=
    Span.lineTags_of_closed [] paragraphs 0 (Validation.isClosed_of_idle hidle)
  rw [List.map_nil, List.nil_append] at hc
  obtain ⟨ts, ht, hf⟩ := map_eq_ok.mp (Markup.tagsFrom_joinLines hl)
  have ht' : Markup.tokens (String.ofList (joinLines (paragraphs.map (·.2.text)))) = .ok ts := by
    rw [Markup.tokens, String.toList_ofList, ht]
  rw [← hf] at hl hu
  have ha := (Body.accepts_of_tags hu).mpr ((Validation.syntaxRemarks_idle_iff hc).mp hidle)
  obtain ⟨t, hp⟩ := (Template.parse_isOk_iff _).mpr ⟨ts, ht', ha⟩
  obtain ⟨hsource, ts', hts', hbody⟩ := Template.parse_eq_ok.mp hp
  obtain rfl := Except.ok.inj (ht'.symm.trans hts')
  have hpieces := mapM_read_filter (Body.pieces_ofTokens hbody)
  rw [← mapM_read_unplaced, hu, mapM_read_unplaced] at hpieces
  refine ⟨⟨t, ts, tags, hp, hsource ▸ ht', hc, hu, hl, hpieces⟩, fun archive hm => ⟨t, ?_⟩⟩
  have hb := Document.bodyText_eq hm
  rw [List.map_map] at hb
  rw [template, hb, mapError_ok, ok_bind]
  exact congrArg (Except.mapError RenderError.parse) hp

/-- A block that is opened in one paragraph and closed in the next. -/
theorem Fragment.template_of_unremarked_of_block :
    let paragraphs : List (String × Paragraph) :=
      [(Document.mainPart, ⟨0, [⟨0, "\x7b\x7bif a\x7d\x7dx".toList⟩]⟩),
        (Document.mainPart, ⟨1, [⟨0, "y\x7b\x7bend\x7d\x7d".toList⟩]⟩)]
    Validation.syntaxRemarks (Span.scan [] paragraphs) = [] ∧
      ∃ t, Template.parse "\x7b\x7bif a\x7d\x7dx\ny\x7b\x7bend\x7d\x7d" = .ok t := by
  intro paragraphs
  have hparse : Expr.parse "a" = .ok (.var "a") :=
    Expr.parse_of_isReference ⟨⟨'a', [], rfl, rfl, by simp⟩, rfl⟩
  have hcontents : (Span.scan [] paragraphs).map Span.content =
      [.ok ⟨.ifTag, "a", 3⟩, .ok ⟨.endTag, "", 3⟩] := by decide +kernel
  have hjoin : String.ofList (joinLines (paragraphs.map (·.2.text))) =
      "\x7b\x7bif a\x7d\x7dx\ny\x7b\x7bend\x7d\x7d" := by decide +kernel
  have hremarks : Validation.syntaxRemarks (Span.scan [] paragraphs) = [] := by
    obtain ⟨s, ss, hs, hfirst, hrest⟩ := List.map_eq_cons_iff.mp hcontents
    obtain ⟨s', ss', rfl, hsecond, hnil⟩ := List.map_eq_cons_iff.mp hrest
    obtain rfl := List.map_eq_nil_iff.mp hnil
    simp [hs, Validation.syntaxRemarks, Validation.blockRemarks, Validation.visit, hfirst, hsecond,
      Validation.place, Validation.textFindings, Validation.unparsable, hparse, Except.map]
  obtain ⟨⟨t, _, _, ht, _⟩, _⟩ := Fragment.template_of_unremarked paragraphs hremarks
  exact ⟨hremarks, t, hjoin ▸ ht⟩

end FormLetter
