import FormLetter.Proofs.Template.Nesting
import FormLetter.Validation.Blocks

namespace FormLetter

/-- A finding about the text after an `else` or an `end`, which nothing reads. -/
def Validation.Remark.IsIdle (r : Validation.Remark) : Prop :=
  r.finding.code = .unsupportedExpression ∧
    ∃ token, r.span.content = .ok token ∧ (token.kind = .elseTag ∨ token.kind = .endTag)

namespace Validation

def nesting (tags : List OpenTag) : Nesting :=
  tags.map fun tag => (tag.kind, tag.seenElse)

/-- A tag that can stand where it does is not remarked upon, and leaves the same blocks open. -/
theorem place_of_step (span : Span) {tags : List OpenTag}
    (h : (nesting tags).step? k = some after) :
    (place tags span k).1 = [] ∧ nesting (place tags span k).2 = after := by
  cases k with
  | text | value | includeTag | pageBreak => cases h; exact ⟨rfl, rfl⟩
  | ifTag | unlessTag | forTag => cases h; exact ⟨rfl, rfl⟩
  | elsifTag =>
    match tags with
    | [] => cases h
    | ⟨kind, opener, seenElse⟩ :: tags =>
      cases kind with
      | ifTag =>
        cases seenElse with
        | false => cases h; exact ⟨rfl, rfl⟩
        | true => cases h
      | _ => cases h
  | elseTag =>
    match tags with
    | [] => cases h
    | ⟨kind, opener, seenElse⟩ :: tags =>
      cases kind with
      | ifTag | unlessTag =>
        cases seenElse with
        | false => cases h; exact ⟨rfl, rfl⟩
        | true => cases h
      | _ => cases h
  | endTag =>
    match tags with
    | [] => cases h
    | tag :: tags => cases h; exact ⟨rfl, rfl⟩

/-- A tag that cannot stand where it does is remarked upon. -/
theorem place_of_step_none (span : Span) {tags : List OpenTag}
    (h : (nesting tags).step? k = none) :
    ∃ f, (place tags span k).1 = [f] ∧ f.code.isBlockIssue = true := by
  cases k with
  | text | value | includeTag | pageBreak => cases h
  | ifTag | unlessTag | forTag => cases h
  | elsifTag =>
    match tags with
    | [] => exact ⟨_, rfl, rfl⟩
    | ⟨kind, opener, seenElse⟩ :: tags =>
      cases kind with
      | ifTag =>
        cases seenElse with
        | false => cases h
        | true => exact ⟨_, rfl, rfl⟩
      | _ => exact ⟨_, rfl, rfl⟩
  | elseTag =>
    match tags with
    | [] => exact ⟨_, rfl, rfl⟩
    | ⟨kind, opener, seenElse⟩ :: tags =>
      cases kind with
      | ifTag | unlessTag =>
        cases seenElse with
        | false => cases h
        | true => exact ⟨_, rfl, rfl⟩
      | _ => exact ⟨_, rfl, rfl⟩
  | endTag =>
    match tags with
    | [] => exact ⟨_, rfl, rfl⟩
    | tag :: tags => cases h

theorem unparsable_eq_nil (h : token.kind ≠ .forTag) :
    unparsable token = [] ↔ ∃ e, Expr.parse token.value = .ok e := by
  cases he : Expr.parse token.value <;> simp [unparsable, h, he, Except.map]

theorem unparsable_eq_nil_of_for (h : token.kind = .forTag) :
    unparsable token = [] ↔ ∃ header, LoopHeader.parse token.value = .ok header := by
  cases hh : LoopHeader.parse token.value <;> simp [unparsable, h, hh, Except.map]

/-- What is found in the text of a tag is never about its place. -/
theorem code_textFindings (h : f ∈ textFindings token) : f.code = .unsupportedExpression := by
  have hu : f ∈ unparsable token → f.code = .unsupportedExpression := by
    intro h
    unfold unparsable at h
    dsimp only at h
    split at h
    · cases h
    · rw [List.mem_singleton.mp h]; rfl
  unfold textFindings at h
  split at h
  · cases h
  · cases h
  · split at h
    · cases h
    · rw [List.mem_singleton.mp h]; rfl
  · split at h
    · cases h
    · rw [List.mem_singleton.mp h]; rfl
  · exact hu h

/-- Only the text of an `else` or an `end` is idle. -/
theorem textFindings_eq_nil_of_idle {span : Span} (hs : span.content = .ok token)
    (hk : ¬(token.kind = .elseTag ∨ token.kind = .endTag))
    (h : ∀ f ∈ textFindings token, Remark.IsIdle ⟨span, f⟩) : textFindings token = [] := by
  apply List.eq_nil_iff_forall_not_mem.mpr
  intro f hf
  obtain ⟨_, t, ht, hidle⟩ := h f hf
  obtain rfl := Except.ok.inj (hs.symm.trans ht)
  exact hk hidle

/-- Nothing but idle text is found in a tag if and only if it is readable. -/
theorem textFindings_idle_iff {span : Span} (hs : span.content = .ok token) :
    (∀ f ∈ textFindings token, Remark.IsIdle ⟨span, f⟩) ↔ token.Readable := by
  have hnil := textFindings_eq_nil_of_idle hs
  cases hk : token.kind with
  | text | pageBreak => simp [textFindings, MarkupToken.Readable, hk]
  | elseTag | endTag =>
    simp only [MarkupToken.Readable, hk, iff_true]
    intro f hf
    exact ⟨code_textFindings hf, token, hs, by simp [hk]⟩
  | value | includeTag | ifTag | unlessTag | elsifTag =>
    have hu : textFindings token = unparsable token := by simp [textFindings, hk]
    simp only [MarkupToken.Readable, hk]
    rw [← unparsable_eq_nil (by simp [hk])]
    constructor
    · intro h
      exact hu ▸ hnil (by simp [hk]) h
    · intro h
      simp [hu, h]
  | forTag =>
    have hu : textFindings token = unparsable token := by simp [textFindings, hk]
    simp only [MarkupToken.Readable, hk]
    rw [← unparsable_eq_nil_of_for hk]
    constructor
    · intro h
      exact hu ▸ hnil (by simp [hk]) h
    · intro h
      simp [hu, h]

theorem forall_blockRemarks_cons {P : Remark → Prop} :
    (∀ r ∈ blockRemarks tags (span :: spans), P r) ↔
      (∀ f ∈ (visit tags span).1, P ⟨span, f⟩) ∧
        ∀ r ∈ blockRemarks (visit tags span).2 spans, P r := by
  simp only [blockRemarks, List.mem_append, List.mem_map, or_imp, forall_and]
  simp

/-- A block that stays open is remarked upon, and not as idle text. -/
theorem blockRemarks_nil_iff {P : Remark → Prop} {tags : List OpenTag}
    (hP : ∀ tag : OpenTag, ¬P ⟨tag.opener, .missingEnd tag.kind⟩) :
    (∀ r ∈ blockRemarks tags [], P r) ↔ (nesting tags).Balanced [] := by
  cases tags with
  | nil => simp [blockRemarks, Nesting.Balanced, nesting]
  | cons tag tags =>
    simp only [blockRemarks, Nesting.Balanced, nesting, List.map_cons, List.foldlM_nil]
    constructor
    · intro h
      exact absurd (h _ (List.mem_map.mpr ⟨tag, by simp, rfl⟩)) (hP tag)
    · intro h
      cases h

theorem not_isIdle_of_isBlockIssue {r : Remark} (h : r.finding.code.isBlockIssue = true) :
    ¬r.IsIdle := by
  intro hx
  obtain ⟨hc, _⟩ := hx
  rw [hc] at h
  cases h

/-- Nothing but idle text is remarked upon if and only if every tag is closed and readable and the
tags nest in the blocks that are open before them. -/
theorem blockRemarks_idle_iff (tags : List OpenTag) (spans : List Span) :
    (∀ r ∈ blockRemarks tags spans, r.IsIdle) ↔
      ∃ ts : List MarkupToken, spans.map Span.content = ts.map .ok ∧ (∀ t ∈ ts, t.Readable) ∧
        (nesting tags).Balanced (ts.map (·.kind)) := by
  induction spans generalizing tags with
  | nil =>
    rw [blockRemarks_nil_iff (P := Remark.IsIdle) fun tag => not_isIdle_of_isBlockIssue rfl]
    constructor
    · intro h
      exact ⟨[], rfl, by simp, h⟩
    · intro hx
      obtain ⟨ts, hts, _, h⟩ := hx
      obtain rfl := List.map_eq_nil_iff.mp hts.symm
      exact h
  | cons span spans ih =>
    rw [forall_blockRemarks_cons, ih]
    cases hs : span.content with
    | error fault =>
      have hv : (visit tags span).1 = [.malformed fault] := by simp [visit, hs]
      constructor
      · intro hx
        obtain ⟨h, _⟩ := hx
        obtain ⟨hc, _⟩ := h (.malformed fault) (by simp [hv])
        cases hc
      · intro hx
        obtain ⟨ts, hts, _⟩ := hx
        cases ts <;> simp [hs] at hts
    | ok token =>
      have hv : visit tags span =
          (textFindings token ++ (place tags span token.kind).1,
            (place tags span token.kind).2) := by
        simp [visit, hs]
      simp only [hv, List.mem_append, or_imp, forall_and, textFindings_idle_iff hs]
      cases hn : (nesting tags).step? token.kind with
      | none =>
        obtain ⟨f, hf, hb⟩ := place_of_step_none span hn
        constructor
        · intro hx
          obtain ⟨⟨_, h⟩, _⟩ := hx
          exact absurd (h f (by simp [hf])) (not_isIdle_of_isBlockIssue hb)
        · intro hx
          obtain ⟨ts, hts, _, h⟩ := hx
          cases ts with
          | nil => cases hts
          | cons t ts =>
            simp only [List.map_cons, hs, List.cons.injEq, Except.ok.injEq] at hts
            obtain ⟨rfl, _⟩ := hts
            exact absurd h (Nesting.not_balanced_cons hn)
      | some after =>
        obtain ⟨hf, ha⟩ := place_of_step span hn
        simp only [hf, ha, List.not_mem_nil, false_implies, implies_true, and_true]
        constructor
        · intro hx
          obtain ⟨ht, ts, hts, hr, h⟩ := hx
          exact ⟨token :: ts, by simp [hs, hts], by simpa using ⟨ht, hr⟩,
            (Nesting.balanced_cons hn).mpr h⟩
        · intro hx
          obtain ⟨ts, hts, hr, h⟩ := hx
          cases ts with
          | nil => cases hts
          | cons t ts =>
            simp only [List.map_cons, hs, List.cons.injEq, Except.ok.injEq] at hts
            obtain ⟨rfl, hts⟩ := hts
            obtain ⟨ht, hr⟩ := List.forall_mem_cons.mp hr
            exact ⟨ht, ts, hts, hr, (Nesting.balanced_cons hn).mp h⟩

/-- No remark is about the place of a tag if and only if the tags nest. -/
theorem blockRemarks_place_iff (tags : List OpenTag) (spans : List Span) (ts : List MarkupToken)
    (hts : spans.map Span.content = ts.map .ok) :
    (∀ r ∈ blockRemarks tags spans, r.finding.code.isBlockIssue = false) ↔
      (nesting tags).Balanced (ts.map (·.kind)) := by
  induction spans generalizing tags ts with
  | nil =>
    obtain rfl := List.map_eq_nil_iff.mp hts.symm
    exact blockRemarks_nil_iff fun tag h => by cases h
  | cons span spans ih =>
    cases ts with
    | nil => cases hts
    | cons t ts =>
      simp only [List.map_cons, List.cons.injEq] at hts
      obtain ⟨hs, hts⟩ := hts
      have hv : visit tags span =
          (textFindings t ++ (place tags span t.kind).1, (place tags span t.kind).2) := by
        simp [visit, hs]
      have ht : ∀ f ∈ textFindings t, f.code.isBlockIssue = false := by
        intro f hf
        rw [code_textFindings hf]
        rfl
      rw [forall_blockRemarks_cons, ih _ ts hts]
      simp only [hv, List.mem_append, or_imp, forall_and]
      cases hn : (nesting tags).step? t.kind with
      | none =>
        obtain ⟨f, hf, hb⟩ := place_of_step_none span hn
        simp [Nesting.not_balanced_cons hn, hf, hb]
      | some after =>
        obtain ⟨hf, ha⟩ := place_of_step span hn
        rw [List.map_cons, Nesting.balanced_cons hn, hf, ha]
        simp only [List.not_mem_nil, false_implies, implies_true, and_true]
        exact and_iff_right ht

end Validation

end FormLetter
