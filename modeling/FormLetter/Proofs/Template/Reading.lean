import FormLetter.Proofs.Template.OpenBlocks

namespace FormLetter

open Body (expression loopHeader)
open Outcome

/-- What the value of a token stands for. -/
inductive Reading where
  | nothing
  | content (text : String)
  | expression (e : Expr)
  | header (h : LoopHeader)

/-- A token with what its value stands for, wherever it is. -/
structure Piece where
  kind : MarkupKind
  reading : Reading

namespace Piece

def elseTag : Piece := ⟨.elseTag, .nothing⟩

def endTag : Piece := ⟨.endTag, .nothing⟩

end Piece

theorem Body.expression_eq_ok {t : MarkupToken} {e : Expr} :
    expression t = .ok e ↔ Expr.parse t.value = .ok e := by
  cases h : Expr.parse t.value <;> simp [expression, h, mapError_ok, mapError_error]

theorem Body.loopHeader_eq_ok {t : MarkupToken} {header : LoopHeader} :
    loopHeader t = .ok header ↔ LoopHeader.parse t.value = .ok header := by
  cases h : LoopHeader.parse t.value <;> simp [loopHeader, h, mapError_ok, mapError_error]

namespace MarkupToken

/-- The text of a tag is what its kind asks for: an expression, a loop header, or anything. -/
def Readable (t : MarkupToken) : Prop :=
  match t.kind with
  | .value | .includeTag | .ifTag | .unlessTag | .elsifTag => ∃ e, Expr.parse t.value = .ok e
  | .forTag => ∃ header, LoopHeader.parse t.value = .ok header
  | .text | .elseTag | .endTag | .pageBreak => True

/-- The piece that a token makes. -/
def read (t : MarkupToken) : Except ParseError Piece :=
  match t.kind with
  | .text => .ok ⟨t.kind, .content t.value⟩
  | .value | .includeTag | .ifTag | .unlessTag | .elsifTag =>
    (expression t).map fun e => ⟨t.kind, .expression e⟩
  | .forTag => (loopHeader t).map fun h => ⟨t.kind, .header h⟩
  | .elseTag | .endTag | .pageBreak => .ok ⟨t.kind, .nothing⟩

theorem read_kind (h : read t = .ok p) : p.kind = t.kind := by
  cases hk : t.kind with
  | text | elseTag | endTag | pageBreak =>
    simp only [read, hk] at h
    cases h
    rfl
  | value | includeTag | ifTag | unlessTag | elsifTag | forTag =>
    simp only [read, hk] at h
    obtain ⟨_, _, rfl⟩ := map_eq_ok.mp h
    rfl

theorem read_isOk_iff (t : MarkupToken) : (∃ p, t.read = .ok p) ↔ t.Readable := by
  cases hk : t.kind with
  | text | elseTag | endTag | pageBreak => simp [read, Readable, hk]
  | value | includeTag | ifTag | unlessTag | elsifTag | forTag =>
    simp only [read, Readable, hk, map_eq_ok, Body.expression_eq_ok, Body.loopHeader_eq_ok]
    rw [exists_comm]
    simp

end MarkupToken

namespace Builder

/-- What a token adds to what has been read. -/
inductive Adds (t : MarkupToken) : Builder → Piece → Builder → Prop
  | text : Adds t b ⟨.text, .content t.value⟩ (b.add [.text t.value])
  | value : Adds t b ⟨.value, .expression e⟩ (b.add [.value e])
  | fragment : Adds t b ⟨.includeTag, .expression e⟩ (b.add [.includeTag e])
  | pageBreak : Adds t b ⟨.pageBreak, .nothing⟩ (b.add [.pageBreak])
  | ifBlock : Adds t b ⟨.ifTag, .expression e⟩ (b.openBlock t (.ifBranch [] e))
  | unlessBlock : Adds t b ⟨.unlessTag, .expression e⟩ (b.openBlock t (.unlessBody e))
  | forBlock : Adds t b ⟨.forTag, .header header⟩ (b.openBlock t (.forBody header))
  | branch : Adds t ⟨⟨opener, .ifBranch branches condition, before⟩ :: outer, nodes⟩
      ⟨.elsifTag, .expression e⟩
      (nextBody ⟨opener, .ifBranch branches condition, before⟩ outer
        (.ifBranch (branches ++ [(condition, nodes)]) e))
  | ifElse : Adds t ⟨⟨opener, .ifBranch branches condition, before⟩ :: outer, nodes⟩ .elseTag
      (nextBody ⟨opener, .ifBranch branches condition, before⟩ outer
        (.ifElse (branches ++ [(condition, nodes)])))
  | unlessElse : Adds t ⟨⟨opener, .unlessBody condition, before⟩ :: outer, nodes⟩ .elseTag
      (nextBody ⟨opener, .unlessBody condition, before⟩ outer (.unlessElse condition nodes))
  | endBlock : Adds t ⟨⟨opener, block, before⟩ :: outer, nodes⟩ .endTag
      ⟨outer, before ++ [block.close nodes]⟩

/-- A step reads its token and adds what it was read as. -/
theorem adds_of_step {b b' : Builder} (h : b.step t = .ok b') :
    ∃ p, t.read = .ok p ∧ Adds t b p b' := by
  obtain ⟨frames, body⟩ := b
  cases hk : t.kind with
  | text =>
    simp only [step, hk] at h
    cases h
    exact ⟨_, by simp only [MarkupToken.read, hk], .text⟩
  | pageBreak =>
    simp only [step, hk] at h
    cases h
    exact ⟨_, by simp only [MarkupToken.read, hk], .pageBreak⟩
  | value =>
    simp only [step, hk] at h
    obtain ⟨e, he, h⟩ := bind_eq_ok.mp h
    cases h
    exact ⟨_, by simp only [MarkupToken.read, hk, he, Except.map], .value⟩
  | includeTag =>
    simp only [step, hk] at h
    obtain ⟨e, he, h⟩ := bind_eq_ok.mp h
    cases h
    exact ⟨_, by simp only [MarkupToken.read, hk, he, Except.map], .fragment⟩
  | ifTag =>
    simp only [step, hk] at h
    obtain ⟨e, he, h⟩ := bind_eq_ok.mp h
    cases h
    exact ⟨_, by simp only [MarkupToken.read, hk, he, Except.map], .ifBlock⟩
  | unlessTag =>
    simp only [step, hk] at h
    obtain ⟨e, he, h⟩ := bind_eq_ok.mp h
    cases h
    exact ⟨_, by simp only [MarkupToken.read, hk, he, Except.map], .unlessBlock⟩
  | forTag =>
    simp only [step, hk] at h
    obtain ⟨header, hh, h⟩ := bind_eq_ok.mp h
    cases h
    exact ⟨_, by simp only [MarkupToken.read, hk, hh, Except.map], .forBlock⟩
  | elsifTag =>
    simp only [step, hk] at h
    cases frames with
    | nil => cases h
    | cons frame frames =>
      obtain ⟨opener, block, before⟩ := frame
      cases block with
      | ifBranch branches condition =>
        obtain ⟨e, he, h⟩ := bind_eq_ok.mp h
        cases h
        exact ⟨_, by simp only [MarkupToken.read, hk, he, Except.map], .branch⟩
      | _ => cases h
  | elseTag =>
    have hread : t.read = .ok .elseTag := by simp only [MarkupToken.read, hk, Piece.elseTag]
    simp only [step, hk] at h
    cases frames with
    | nil => cases h
    | cons frame frames =>
      obtain ⟨opener, block, before⟩ := frame
      cases block with
      | ifBranch branches condition =>
        cases h
        exact ⟨_, hread, .ifElse⟩
      | unlessBody condition =>
        cases h
        exact ⟨_, hread, .unlessElse⟩
      | _ => cases h
  | endTag =>
    have hread : t.read = .ok .endTag := by simp only [MarkupToken.read, hk, Piece.endTag]
    simp only [step, hk] at h
    cases frames with
    | nil => cases h
    | cons frame frames =>
      cases h
      exact ⟨_, hread, .endBlock⟩

end Builder

end FormLetter
