import FormLetter.Proofs.Template.Nesting

namespace FormLetter

open Outcome

mutual
def Node.pieces : Node → List Piece
  | .text content => [⟨.text, .content content⟩]
  | .value e => [⟨.value, .expression e⟩]
  | .ifBlock branches otherwise =>
    branchPieces .ifTag branches ++ otherwisePieces otherwise ++ [.endTag]
  | .unlessBlock condition body otherwise =>
    ⟨.unlessTag, .expression condition⟩ :: bodyPieces body ++ otherwisePieces otherwise ++
      [.endTag]
  | .forBlock header body => ⟨.forTag, .header header⟩ :: bodyPieces body ++ [.endTag]
  | .includeTag name => [⟨.includeTag, .expression name⟩]
  | .pageBreak => [⟨.pageBreak, .nothing⟩]
termination_by structural node => node

def bodyPieces : List Node → List Piece
  | [] => []
  | node :: nodes => node.pieces ++ bodyPieces nodes
termination_by structural nodes => nodes

/-- The pieces of branches, given the kind of the tag that starts the first. -/
def branchPieces (kind : MarkupKind) : List (Expr × List Node) → List Piece
  | [] => []
  | (condition, body) :: branches =>
    ⟨kind, .expression condition⟩ :: bodyPieces body ++ branchPieces .elsifTag branches
termination_by structural branches => branches

def otherwisePieces : Option (List Node) → List Piece
  | none => []
  | some body => .elseTag :: bodyPieces body
termination_by structural otherwise => otherwise
end

@[simp] theorem bodyPieces_append (first rest : Body) :
    bodyPieces (first ++ rest) = bodyPieces first ++ bodyPieces rest := by
  induction first with
  | nil => rfl
  | cons node first ih => rw [List.cons_append, bodyPieces, bodyPieces, ih, List.append_assoc]

theorem branchPieces_elsif_append (first rest : List (Expr × Body)) :
    branchPieces .elsifTag (first ++ rest) =
      branchPieces .elsifTag first ++ branchPieces .elsifTag rest := by
  induction first with
  | nil => rfl
  | cons branch first ih =>
    obtain ⟨condition, body⟩ := branch
    simp [branchPieces, ih]

/-- Only the first branch of a block starts with another tag than the others. -/
theorem branchPieces_append (kind : MarkupKind) (h : first ≠ []) :
    branchPieces kind (first ++ rest) = branchPieces kind first ++ branchPieces .elsifTag rest := by
  cases first with
  | nil => exact absurd rfl h
  | cons branch first =>
    obtain ⟨condition, body⟩ := branch
    simp [branchPieces, branchPieces_elsif_append]

theorem branchPieces_last (kind : MarkupKind) (branches : List (Expr × Body)) (condition : Expr)
    (body : Body) :
    branchPieces kind (branches ++ [(condition, body)]) =
      branchPieces kind (branches ++ [(condition, [])]) ++ bodyPieces body := by
  cases branches with
  | nil => simp [branchPieces, bodyPieces]
  | cons branch branches =>
    obtain ⟨first, before⟩ := branch
    simp [branchPieces, branchPieces_elsif_append, bodyPieces]

namespace OpenBlock

/-- The pieces of a block before the body that is being read. -/
def pieces : OpenBlock → List Piece
  | ifBranch branches condition => branchPieces .ifTag (branches ++ [(condition, [])])
  | ifElse branches => branchPieces .ifTag branches ++ [.elseTag]
  | unlessBody condition => [⟨.unlessTag, .expression condition⟩]
  | unlessElse condition body =>
    ⟨.unlessTag, .expression condition⟩ :: bodyPieces body ++ [.elseTag]
  | forBody header => [⟨.forTag, .header header⟩]

theorem pieces_close (block : OpenBlock) (body : Body) :
    (block.close body).pieces = block.pieces ++ bodyPieces body ++ [.endTag] := by
  cases block with
  | ifBranch branches condition =>
    rw [close, Node.pieces, branchPieces_last, otherwisePieces, pieces, List.append_nil]
  | ifElse | unlessBody | unlessElse | forBody =>
    simp [close, Node.pieces, pieces, otherwisePieces]

end OpenBlock

def framePieces : List Frame → List Piece
  | [] => []
  | frame :: outer => framePieces outer ++ bodyPieces frame.before ++ frame.block.pieces

namespace Builder

def pieces (b : Builder) : List Piece :=
  framePieces b.frames ++ bodyPieces b.body

theorem pieces_add (b : Builder) (body : Body) :
    (b.add body).pieces = b.pieces ++ bodyPieces body := by
  simp [pieces, add]

theorem pieces_openBlock (b : Builder) (t : MarkupToken) (block : OpenBlock) :
    (b.openBlock t block).pieces = b.pieces ++ block.pieces := by
  simp [pieces, openBlock, framePieces, bodyPieces]

theorem pieces_nextBody (frame : Frame) (frames : List Frame) (body : Body) (block : OpenBlock)
    (h : block.pieces = frame.block.pieces ++ bodyPieces body ++ [p]) :
    (nextBody frame frames block).pieces = pieces ⟨frame :: frames, body⟩ ++ [p] := by
  simp [pieces, nextBody, framePieces, bodyPieces, h]

/-- A token adds the piece that it makes to those read before. -/
theorem pieces_step {b b' : Builder} (h : b.step t = .ok b') :
    ∃ p, t.read = .ok p ∧ b'.pieces = b.pieces ++ [p] := by
  obtain ⟨p, hp, ha⟩ := adds_of_step h
  refine ⟨p, hp, ?_⟩
  cases ha with
  | text | value | fragment | pageBreak => exact pieces_add b _
  | ifBlock | unlessBlock | forBlock => exact pieces_openBlock b t _
  | branch =>
    apply pieces_nextBody
    rw [OpenBlock.pieces, OpenBlock.pieces, branchPieces_append _ (by simp), branchPieces_last]
    rfl
  | ifElse =>
    apply pieces_nextBody
    rw [OpenBlock.pieces, OpenBlock.pieces, branchPieces_last]
  | unlessElse => exact pieces_nextBody _ _ _ _ rfl
  | endBlock => simp [pieces, framePieces, OpenBlock.pieces_close, bodyPieces]

/-- The pieces of a body that is read to its end are those read before and those of the tokens. -/
theorem pieces_run {b : Builder} {body : Body} (h : b.run stop ts = .ok body) :
    ∃ ps, ts.mapM MarkupToken.read = .ok ps ∧ bodyPieces body = b.pieces ++ ps := by
  induction ts generalizing b with
  | nil =>
    obtain ⟨frames, before⟩ := b
    cases frames with
    | nil => cases h; exact ⟨[], rfl, by simp [pieces, framePieces]⟩
    | cons frame frames => cases h
  | cons t ts ih =>
    obtain ⟨b', hb, h⟩ := bind_eq_ok.mp h
    obtain ⟨p, hp, hb'⟩ := pieces_step hb
    obtain ⟨ps, hps, hbody⟩ := ih h
    refine ⟨p :: ps, ?_, ?_⟩
    · rw [List.mapM_cons, hp, ok_bind, hps, ok_bind, pure_eq_ok]
    · rw [hbody, hb', List.append_assoc, List.singleton_append]

end Builder

/-- The pieces of a body are, one by one, the tokens it was read from. -/
theorem Body.pieces_ofTokens (h : Body.ofTokens stop ts = .ok body) :
    ts.mapM MarkupToken.read = .ok (bodyPieces body) := by
  rw [Builder.ofTokens_eq_run] at h
  obtain ⟨ps, hps, hbody⟩ := Builder.pieces_run h
  rw [hps, hbody]
  rfl

end FormLetter
