import FormLetter.Proofs.Expr.RoundTrip
import FormLetter.Proofs.Template.Pieces
import FormLetter.Proofs.Validation.Acceptance

namespace FormLetter

open Outcome

/-- What a piece was read as can stand in source text. -/
def Piece.Written (p : Piece) : Prop :=
  match p.reading with
  | .expression e => e.Written
  | .header h => h.collection.Written
  | .nothing | .content _ => True

theorem MarkupToken.written_of_read (h : MarkupToken.read t = .ok p) : p.Written := by
  cases hk : t.kind with
  | text | elseTag | endTag | pageBreak =>
    simp only [read, hk] at h
    cases h
    trivial
  | value | includeTag | ifTag | unlessTag | elsifTag =>
    simp only [read, hk] at h
    obtain ⟨e, he, rfl⟩ := map_eq_ok.mp h
    exact Expr.written_of_parse (.inl (Body.expression_eq_ok.mp he))
  | forTag =>
    simp only [read, hk] at h
    obtain ⟨header, hh, rfl⟩ := map_eq_ok.mp h
    exact (LoopHeader.written_of_parse (Body.loopHeader_eq_ok.mp hh)).collection

/-- Each piece of a template is what a token of its source is read as. -/
theorem Template.exists_token_read (h : Template.parse s = .ok t) (hts : Markup.tokens s = .ok ts)
    (hp : p ∈ bodyPieces t.body) : ∃ token ∈ ts, token.read = .ok p := by
  obtain ⟨_, ts', hts', hbody⟩ := Template.parse_eq_ok.mp h
  obtain rfl := Except.ok.inj (hts.symm.trans hts')
  have hread := mapM_eq_ok.mp (Body.pieces_ofTokens hbody)
  exact List.mem_map.mp (hread ▸ List.mem_map_of_mem hp)

/-- Each piece of a template is written in its source, in a tag of the same kind. -/
theorem Template.exists_token_of_piece (h : Template.parse s = .ok t)
    (hts : Markup.tokens s = .ok ts) (hp : p ∈ bodyPieces t.body) :
    p.Written ∧ ∃ token ∈ ts, p.kind = token.kind := by
  obtain ⟨token, ht, hr⟩ := exists_token_read h hts hp
  exact ⟨MarkupToken.written_of_read hr, token, ht, MarkupToken.read_kind hr⟩

end FormLetter
