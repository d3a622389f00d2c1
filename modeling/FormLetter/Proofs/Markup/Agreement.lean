import FormLetter.Proofs.Markup.Tags
import FormLetter.Proofs.Span.Placed
import Mathlib.Data.List.Forall2

namespace FormLetter

open Outcome
open Document (Paragraph)

namespace Placed

open Markup (classify tagsFrom)

/-- What a tag among the characters of a text is as a token of that text. -/
def token (text : List Char) (tag : Placed × Stretch) : Except ParseError MarkupToken :=
  let opening := Text.bytesBefore tag.1.offset text
  let found := classify (tag.2.inner.map char)
  match tag.2.fault with
  | none => .ok { found with offset := opening + 2 + found.offset }
  | some _ => .error ⟨opening, .unclosedTag⟩

/-- What the walk passes from the start of a closed tag to the end of it, delimiters included. -/
theorem walked_tag {a b : Placed} {rest : List Placed} (h : arePair '{' a b = true)
    (hf : (stretch rest).fault = none) :
    ∃ walked, a :: b :: rest = walked ++ (stretch rest).rest ∧
      Text.size8 (walked.map char) = 2 + Text.size8 ((stretch rest).inner.map char) + 2 := by
  obtain ⟨ha, hb⟩ := arePair_iff.mp h
  obtain ⟨closing, hs, hc⟩ := stretch_append rest
  have hc' : closing.map char = ['}', '}'] := by simpa [hf] using hc
  refine ⟨a :: b :: ((stretch rest).inner ++ closing), ?_, ?_⟩
  · rw [List.cons_append, List.cons_append, ← hs]
  · have h1 : '{'.utf8Size = 1 := rfl
    have h2 : '}'.utf8Size = 1 := rfl
    simp only [List.map_cons, List.map_append, hc', ha, hb, Text.size8, Text.size8_append, h1, h2]
    omega

/-- The tags of a text are those that the walk over its characters finds. The induction is on the
characters that are left; `before` is the text that has been walked over. -/
theorem tagsFrom_eq_mapM (text before : List Char) (cs : List Placed)
    (ha : Adjoin (Text.size16 before) cs) (ht : text = before ++ cs.map char) :
    tagsFrom (Text.size8 before) (cs.map char) = (tags cs).mapM (token text) := by
  fun_induction tags cs generalizing before with
  | case1 a b rest h ih =>
    obtain ⟨hca, hcb⟩ := arePair_iff.mp h
    have hopen : Text.bytesBefore a.offset text = Text.size8 before := by
      rw [ha.1, ht, Text.bytesBefore_size16]
    have hclose := closeTag?_map_char rest
    rw [List.map_cons, List.map_cons, hca, hcb, Markup.tagsFrom_open, List.mapM_cons]
    cases hf : (stretch rest).fault with
    | some fault =>
      rw [if_neg (by simp [hf])] at hclose
      simp only [hclose, token, hf, hopen, error_bind]
    | none =>
      rw [if_pos hf] at hclose
      obtain ⟨walked, hw, hsize⟩ := walked_tag h hf
      rw [hw] at ha ht
      have hr := ih (before ++ walked.map char)
        (by simpa using (adjoin_append.mp ha).2)
        (by rw [ht, List.map_append, List.append_assoc])
      rw [Text.size8_append, hsize, ← Nat.add_assoc, ← Nat.add_assoc] at hr
      simp only [hclose, token, hf, hopen, ok_bind, hr]
      cases (tags (stretch rest).rest).mapM (token text) <;> rfl
  | case2 a b rest h ih =>
    have h' : ¬(a.char = '{' ∧ b.char = '{') := fun h'' => h (arePair_iff.mpr h'')
    have hr := ih (before ++ [a.char]) (by simpa [Text.size16] using ha.2) (by simpa using ht)
    simp only [List.map_cons] at hr ⊢
    rw [Markup.tagsFrom_cons h', ← hr]
    simp [Text.size8]
  | case3 cs h =>
    rcases cs with _ | ⟨a, _ | ⟨b, rest⟩⟩
    · simp [Markup.tagsFrom_nil, pure_eq_ok]
    · simp [Markup.tagsFrom_singleton, pure_eq_ok]
    · exact absurd rfl (h a b rest)

end Placed

namespace Span

/-- Where a tag opens in the text of its paragraph, in bytes. -/
def opening (text : List Char) (s : Span) : Nat :=
  Text.bytesBefore s.start text

def IsClosed (s : Span) : Prop :=
  ∃ token, s.content = .ok token

/-- What a tag is as a token of the text of its paragraph. -/
def token (text : List Char) (s : Span) : Except ParseError MarkupToken :=
  match s.content with
  | .ok found => .ok { found with offset := s.opening text + 2 + found.offset }
  | .error _ => .error ⟨s.opening text, .unclosedTag⟩

theorem token_ofStretch (text : List Char) (part : String) (p : Paragraph) (n : Nat)
    (tag : Placed × Placed.Stretch) :
    (ofStretch part p n tag.1 tag.2).token text = Placed.token text tag := by
  obtain ⟨a, inner, fault, rest⟩ := tag
  cases fault <;> rfl

/-- The tags of a text are the spans of any paragraph that holds it, as tokens. -/
theorem tagsFrom_eq_mapM_token (part : String) (ordinal : Nat) (p : Paragraph) :
    Markup.tagsFrom 0 p.text = (ofParagraph part ordinal p).mapM (token p.text) := by
  have hspans := map_ofParagraph (fun n tag => token_ofStretch p.text part p n tag) ordinal
  have htags := Placed.tagsFrom_eq_mapM p.text [] p.placed p.adjoin_placed
    p.map_char_placed.symm
  rw [p.map_char_placed] at htags
  calc Markup.tagsFrom 0 p.text = (Placed.tags p.placed).mapM (Placed.token p.text) := htags
    _ = ((Placed.tags p.placed).map (Placed.token p.text)).mapM id := by simp
    _ = (ofParagraph part ordinal p).mapM (token p.text) := by rw [← hspans]; simp

theorem token_eq_ok {s : Span} :
    s.token text = .ok t ↔ ∃ found, s.content = .ok found ∧ t.kind = found.kind ∧
      t.value = found.value ∧ t.offset = found.offset + (s.opening text + 2) := by
  obtain ⟨kind, value, offset⟩ := t
  cases hs : s.content with
  | error fault => simp [token, hs]
  | ok found =>
    simp only [token, hs, Except.ok.injEq, MarkupToken.mk.injEq, exists_eq_left']
    constructor
    · intro hx
      obtain ⟨rfl, rfl, rfl⟩ := hx
      exact ⟨rfl, rfl, Nat.add_comm _ _⟩
    · intro hx
      obtain ⟨rfl, rfl, rfl⟩ := hx
      exact ⟨rfl, rfl, Nat.add_comm _ _⟩

theorem token_eq_error {s : Span} :
    s.token text = .error e ↔ ¬s.IsClosed ∧ e = ⟨s.opening text, .unclosedTag⟩ := by
  cases hs : s.content with
  | error fault => simp [token, IsClosed, hs, eq_comm]
  | ok found => simp [token, IsClosed, hs]

/-- Where a text can be cut at its tags, these are its spans. -/
theorem tokens_eq_ok (part : String) (ordinal : Nat) (p : Paragraph)
    (h : Markup.tokens (String.ofList p.text) = .ok ts) :
    (ofParagraph part ordinal p).map (token p.text) =
      (ts.filter MarkupToken.isTag).map .ok := by
  have ht := tagsFrom_eq_mapM_token part ordinal p
  rw [Markup.tokens, String.toList_ofList] at h
  rw [Markup.tagsFrom, h] at ht
  exact mapM_eq_ok.mp ht.symm

/-- Where a text cannot be cut at its tags, the first span that is not closed is named. -/
theorem tokens_eq_error (part : String) (ordinal : Nat) (p : Paragraph)
    (h : Markup.tokens (String.ofList p.text) = .error e) :
    (ofParagraph part ordinal p).mapM (token p.text) = .error e := by
  have ht := tagsFrom_eq_mapM_token part ordinal p
  rw [Markup.tokens, String.toList_ofList] at h
  rw [Markup.tagsFrom, h] at ht
  exact ht.symm

theorem isClosed_iff {s : Span} : s.IsClosed ↔ ∃ t, s.token text = .ok t := by
  cases hs : s.content <;> simp [IsClosed, token, hs]

/-- The tokens of a text stand for spans that are closed. -/
theorem tokens_isOk_iff (part : String) (ordinal : Nat) (p : Paragraph) :
    (∃ ts, Markup.tokens (String.ofList p.text) = .ok ts) ↔
      ∀ s ∈ ofParagraph part ordinal p, s.IsClosed := by
  cases h : Markup.tokens (String.ofList p.text) with
  | ok ts =>
    simp only [Except.ok.injEq, exists_eq', true_iff]
    intro s hs
    have hm := List.mem_map_of_mem (f := token p.text) hs
    rw [tokens_eq_ok part ordinal p h] at hm
    obtain ⟨t, _, ht⟩ := List.mem_map.mp hm
    exact isClosed_iff.mpr ⟨t, ht.symm⟩
  | error e =>
    simp only [reduceCtorEq, exists_false, false_iff]
    intro hclosed
    obtain ⟨before, s, after, hs, _, he⟩ := mapM_eq_error (tokens_eq_error part ordinal p h)
    exact (token_eq_error.mp he).1 (hclosed s (by simp [hs]))

/-- The spans of a paragraph are those of any other with the same text and place, but for the run
that each starts in. -/
theorem eraseRun_eq_of_text (part : String) (ordinal : Nat) {p q : Paragraph}
    (ht : q.text = p.text) (hi : q.index = p.index) :
    (ofParagraph part ordinal q).map eraseRun = (ofParagraph part ordinal p).map eraseRun := by
  rw [map_eraseRun_ofParagraph, map_eraseRun_ofParagraph, ht]
  congr 1
  funext n tag
  simp [ofStretch, ht, hi]

/-- A text can be cut at its tags if and only if every span of a paragraph that holds it is closed.
Its tags are then the spans, in order, each at the place of the span; otherwise what is said is
where the first span opens that is not closed. How the text is split into runs tells only in which
run each span starts. -/
theorem tags_agree_with_spans (part : String) (ordinal : Nat) (p : Paragraph) :
    ((∃ ts, Markup.tokens (String.ofList p.text) = .ok ts) ↔
      ∀ s ∈ ofParagraph part ordinal p, s.IsClosed) ∧
    (∀ ts, Markup.tokens (String.ofList p.text) = .ok ts →
      List.Forall₂ (fun t s => ∃ found, s.content = .ok found ∧ t.kind = found.kind ∧
          t.value = found.value ∧ t.offset = found.offset + (s.opening p.text + 2))
        (ts.filter MarkupToken.isTag) (ofParagraph part ordinal p)) ∧
    (∀ e, Markup.tokens (String.ofList p.text) = .error e →
      ∃ before s after, ofParagraph part ordinal p = before ++ s :: after ∧
        (∀ b ∈ before, b.IsClosed) ∧ ¬s.IsClosed ∧ e = ⟨s.opening p.text, .unclosedTag⟩) ∧
    ∀ q : Paragraph, q.text = p.text → q.index = p.index →
      (ofParagraph part ordinal q).map eraseRun = (ofParagraph part ordinal p).map eraseRun := by
  refine ⟨tokens_isOk_iff part ordinal p, fun ts h => ?_, fun e h => ?_,
    fun q => eraseRun_eq_of_text part ordinal⟩
  · have hm := tokens_eq_ok part ordinal p h
    rw [← List.forall₂_eq_eq_eq, List.forall₂_map_left_iff, List.forall₂_map_right_iff] at hm
    exact hm.flip.imp fun t s ht => token_eq_ok.mp ht
  · obtain ⟨before, s, after, hs, hb, he⟩ := mapM_eq_error (tokens_eq_error part ordinal p h)
    obtain ⟨hopen, he⟩ := token_eq_error.mp he
    exact ⟨before, s, after, hs, fun b hmem => isClosed_iff.mpr (hb b hmem), hopen, he⟩

end Span

end FormLetter
