import FormLetter.Proofs.Markup.Agreement
import FormLetter.Proofs.Validation.Blocks

namespace FormLetter

open Document (Paragraph)
open Outcome

namespace MarkupToken

/-- A token apart from its place. -/
def unplaced (t : MarkupToken) : MarkupToken :=
  { t with offset := 0 }

@[simp] theorem kind_unplaced (t : MarkupToken) : t.unplaced.kind = t.kind := rfl

@[simp] theorem value_unplaced (t : MarkupToken) : t.unplaced.value = t.value := rfl

@[simp] theorem readable_unplaced (t : MarkupToken) : t.unplaced.Readable ↔ t.Readable := Iff.rfl

theorem readable_of_text {t : MarkupToken} (h : t.kind = .text) : t.Readable := by
  simp [Readable, h]

end MarkupToken

theorem Nesting.balanced_filter (blocks : Nesting) (ts : List MarkupToken) :
    blocks.Balanced ((ts.filter MarkupToken.isTag).map (·.kind)) ↔
      blocks.Balanced (ts.map (·.kind)) := by
  induction ts generalizing blocks with
  | nil => exact Iff.rfl
  | cons t ts ih =>
    by_cases ht : t.kind = .text
    · have hstep : blocks.step? .text = some blocks := rfl
      rw [List.filter_cons_of_neg (by simp [MarkupToken.isTag, ht]), List.map_cons, ht,
        Nesting.balanced_cons hstep]
      exact ih blocks
    · rw [List.filter_cons_of_pos (by simp [MarkupToken.isTag, ht]), List.map_cons, List.map_cons]
      cases hs : blocks.step? t.kind with
      | none => exact iff_of_false (Nesting.not_balanced_cons hs) (Nesting.not_balanced_cons hs)
      | some after => rw [Nesting.balanced_cons hs, Nesting.balanced_cons hs, ih after]

namespace Body

/-- Tokens of which a body can be made. -/
def Accepts (ts : List MarkupToken) : Prop :=
  (∀ t ∈ ts, t.Readable) ∧ Nesting.Balanced [] (ts.map (·.kind))

/-- Text can stand anywhere. -/
theorem accepts_filter (ts : List MarkupToken) :
    Accepts (ts.filter MarkupToken.isTag) ↔ Accepts ts := by
  have hr : (∀ t ∈ ts.filter MarkupToken.isTag, t.Readable) ↔ ∀ t ∈ ts, t.Readable := by
    constructor
    · intro h t ht
      by_cases hk : t.kind = .text
      · exact MarkupToken.readable_of_text hk
      · exact h t (List.mem_filter.mpr ⟨ht, by simpa [MarkupToken.isTag] using hk⟩)
    · intro h t ht
      exact h t (List.mem_filter.mp ht).1
  rw [Accepts, Accepts, hr, Nesting.balanced_filter]

/-- Which tokens make up a body does not hang on their places. -/
theorem accepts_unplaced (ts : List MarkupToken) :
    Accepts (ts.map MarkupToken.unplaced) ↔ Accepts ts := by
  simp [Accepts, Function.comp_def]

theorem accepts_of_tags {ts found : List MarkupToken}
    (h : (ts.filter MarkupToken.isTag).map MarkupToken.unplaced =
      found.map MarkupToken.unplaced) : Accepts ts ↔ Accepts found := by
  rw [← accepts_filter, ← accepts_unplaced, h, accepts_unplaced]

end Body

theorem Template.parse_eq_ok {s : String} {t : Template} :
    Template.parse s = .ok t ↔ t.source = s ∧
      ∃ ts, Markup.tokens s = .ok ts ∧ Body.ofTokens s.utf8ByteSize ts = .ok t.body := by
  obtain ⟨source, body⟩ := t
  simp only [Template.parse, bind_eq_ok, pure_eq_ok, Except.ok.injEq, mk.injEq]
  constructor
  · intro hx
    obtain ⟨ts, ht, _, hb, rfl, rfl⟩ := hx
    exact ⟨rfl, ts, ht, hb⟩
  · intro hx
    obtain ⟨rfl, ts, ht, hb⟩ := hx
    exact ⟨ts, ht, body, hb, rfl, rfl⟩

theorem Template.parse_isOk_iff (s : String) :
    (∃ t, Template.parse s = .ok t) ↔ ∃ ts, Markup.tokens s = .ok ts ∧ Body.Accepts ts := by
  constructor
  · intro hx
    obtain ⟨t, h⟩ := hx
    obtain ⟨_, ts, ht, hb⟩ := parse_eq_ok.mp h
    exact ⟨ts, ht, (Body.ofTokens_isOk_iff _ ts).mp ⟨_, hb⟩⟩
  · intro hx
    obtain ⟨ts, ht, ha⟩ := hx
    obtain ⟨body, hb⟩ := (Body.ofTokens_isOk_iff s.utf8ByteSize ts).mpr ha
    exact ⟨⟨s, body⟩, parse_eq_ok.mpr ⟨rfl, ts, ht, hb⟩⟩

namespace Span

/-- Spans that are all closed hold the tags of their text. -/
theorem exists_contents (part : String) (ordinal : Nat) (p : Paragraph)
    (h : Markup.tokens (String.ofList p.text) = .ok ts) :
    ∃ found : List MarkupToken, (ofParagraph part ordinal p).map content = found.map .ok ∧
      (ts.filter MarkupToken.isTag).map MarkupToken.unplaced =
        found.map MarkupToken.unplaced := by
  have ht := tokens_eq_ok part ordinal p h
  generalize ofParagraph part ordinal p = spans at ht
  generalize ts.filter MarkupToken.isTag = tags at ht
  induction spans generalizing tags with
  | nil =>
    obtain rfl := List.map_eq_nil_iff.mp ht.symm
    exact ⟨[], rfl, rfl⟩
  | cons s spans ih =>
    cases tags with
    | nil => cases ht
    | cons t tags =>
      simp only [List.map_cons, List.cons.injEq] at ht
      obtain ⟨found, hs, hk, hv, _⟩ := token_eq_ok.mp ht.1
      obtain ⟨others, ho, hu⟩ := ih tags ht.2
      refine ⟨found :: others, ?_, ?_⟩
      · rw [List.map_cons, List.map_cons, hs, ho]
      · rw [List.map_cons, List.map_cons, hu]
        simp [MarkupToken.unplaced, hk, hv]

end Span

namespace Validation

/-- Nothing but idle text is remarked upon in spans that are closed if and only if their tags make
up a body. -/
theorem syntaxRemarks_idle_iff {found : List MarkupToken}
    (hs : spans.map Span.content = found.map .ok) :
    (∀ r ∈ syntaxRemarks spans, r.IsIdle) ↔ Body.Accepts found := by
  rw [syntaxRemarks, blockRemarks_idle_iff]
  constructor
  · intro hx
    obtain ⟨ts, hts, ha⟩ := hx
    rw [hs] at hts
    obtain rfl := List.map_injective_iff.mpr (fun _ _ => Except.ok.inj) hts
    exact ha
  · intro ha
    exact ⟨found, hs, ha⟩

theorem isClosed_of_idle (h : ∀ r ∈ syntaxRemarks spans, r.IsIdle) (s : Span) (hs : s ∈ spans) :
    s.IsClosed := by
  obtain ⟨ts, hts, _⟩ := (blockRemarks_idle_iff [] spans).mp h
  have hm := List.mem_map_of_mem (f := Span.content) hs
  rw [hts] at hm
  obtain ⟨t, _, ht⟩ := List.mem_map.mp hm
  exact ⟨t, ht.symm⟩

end Validation

/-- A text can be read as a template if and only if nothing but idle text is remarked upon in the
spans of a paragraph that holds it. Where every tag can be read, no remark on the blocks and a tree
of nodes come to the same. -/
theorem Template.parsed_iff_unremarked (s : String) (part : String) (ordinal : Nat) (p : Paragraph)
    (hp : p.text = s.toList) :
    ((∃ t, Template.parse s = .ok t) ↔
      ∀ r ∈ Validation.syntaxRemarks (Span.ofParagraph part ordinal p), r.IsIdle) ∧
    (Validation.syntaxRemarks (Span.ofParagraph part ordinal p) = [] →
      ∃ t, Template.parse s = .ok t) ∧
    ∀ ts, Markup.tokens s = .ok ts → (∀ t ∈ ts, t.Readable) →
      ((∃ body, Body.ofTokens s.utf8ByteSize ts = .ok body) ↔
        ∀ r ∈ Validation.syntaxRemarks (Span.ofParagraph part ordinal p),
          r.finding.code.isBlockIssue = false) := by
  obtain rfl : String.ofList p.text = s := by rw [hp, String.ofList_toList]
  have hmain : (∃ t, Template.parse (String.ofList p.text) = .ok t) ↔
      ∀ r ∈ Validation.syntaxRemarks (Span.ofParagraph part ordinal p), r.IsIdle := by
    rw [parse_isOk_iff]
    constructor
    · intro hx
      obtain ⟨ts, ht, ha⟩ := hx
      obtain ⟨found, hf, hu⟩ := Span.exists_contents part ordinal p ht
      exact (Validation.syntaxRemarks_idle_iff hf).mpr ((Body.accepts_of_tags hu).mp ha)
    · intro h
      obtain ⟨ts, ht⟩ := (Span.tokens_isOk_iff part ordinal p).mpr
        (Validation.isClosed_of_idle h)
      obtain ⟨found, hf, hu⟩ := Span.exists_contents part ordinal p ht
      exact ⟨ts, ht, (Body.accepts_of_tags hu).mpr
        ((Validation.syntaxRemarks_idle_iff hf).mp h)⟩
  refine ⟨hmain, fun h => hmain.mpr (by simp [h]), fun ts ht hr => ?_⟩
  obtain ⟨found, hf, hu⟩ := Span.exists_contents part ordinal p ht
  have hplace := Validation.blockRemarks_place_iff [] _ found hf
  have hkinds : (ts.filter MarkupToken.isTag).map (·.kind) = found.map (·.kind) := by
    have := congrArg (List.map MarkupToken.kind) hu
    simpa [Function.comp_def] using this
  rw [Validation.syntaxRemarks, hplace, Body.ofTokens_isOk_iff, ← Nesting.balanced_filter, hkinds]
  exact and_iff_right hr

/-- A tag whose delimiter is split between two runs. -/
theorem Template.parsed_iff_unremarked_of_split :
    (∃ t, Template.parse "\x7b\x7bif a\x7d\x7d b\x7b\x7bend\x7d\x7d" = .ok t) ↔
      ∀ r ∈ Validation.syntaxRemarks (Span.ofParagraph Document.mainPart 0
        ⟨0, [⟨0, "\x7b\x7bif a\x7d".toList⟩, ⟨1, "\x7d b\x7b\x7bend\x7d\x7d".toList⟩]⟩),
        r.IsIdle :=
  (Template.parsed_iff_unremarked _ _ _ _ (by decide)).1

end FormLetter
