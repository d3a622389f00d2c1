import FormLetter.Proofs.Outcome
import FormLetter.Template.Builder

namespace FormLetter

namespace Body

open Outcome

theorem nodes_closing {c : Closing ts} (h : nodes stop closers ts = .ok (body, some c)) :
    c.tag.kind ∈ closers := by
  induction hn : ts.length using Nat.strongRecOn generalizing ts body c with
  | ind n ih =>
    cases ts with
    | nil => rw [nodes] at h; cases h
    | cons t ts =>
      rw [nodes] at h
      split at h
      · rename_i ht
        cases h
        simpa using ht
      · obtain ⟨⟨first, rest⟩, _, h⟩ := bind_eq_ok.mp h
        obtain ⟨⟨later, closing⟩, hr, h⟩ := bind_eq_ok.mp h
        cases closing with
        | none => cases h
        | some d =>
          cases h
          have hd := ih rest.1.length (hn ▸ Nat.lt_succ_of_le rest.2) hr rfl
          exact hd

theorem mem_ifClosers : k ∈ ifClosers ↔ k = .elsifTag ∨ k = .elseTag ∨ k = .endTag := by
  simp [ifClosers]

theorem mem_unlessClosers : k ∈ unlessClosers ↔ k = .elseTag ∨ k = .endTag := by
  simp [unlessClosers]

end Body

/-- What has been read of an open block. -/
inductive OpenBlock where
  /-- In the branch of a condition, after earlier branches. -/
  | ifBranch (branches : List (Expr × Body)) (condition : Expr)
  | ifElse (branches : List (Expr × Body))
  | unlessBody (condition : Expr)
  | unlessElse (condition : Expr) (body : Body)
  | forBody (header : LoopHeader)

namespace OpenBlock

/-- The node of a block whose last body is complete. -/
def close (body : Body) : OpenBlock → Node
  | ifBranch branches condition => .ifBlock (branches ++ [(condition, body)]) none
  | ifElse branches => .ifBlock branches (some body)
  | unlessBody condition => .unlessBlock condition body none
  | unlessElse condition first => .unlessBlock condition first (some body)
  | forBody header => .forBlock header body

/-- The tags that end the body that a block is in. -/
def closers : OpenBlock → List MarkupKind
  | ifBranch .. | ifElse _ => Body.ifClosers
  | unlessBody _ | unlessElse .. => Body.unlessClosers
  | forBody _ => Body.forClosers

/-- In the body after an `else`, a second `else` or an `elsif` is an error. -/
def isLast : OpenBlock → Bool
  | ifElse _ | unlessElse .. => true
  | _ => false

end OpenBlock

structure Frame where
  /-- The tag that opened the block. -/
  opener : MarkupToken
  block : OpenBlock
  /-- The nodes before the block, in the body that holds it. -/
  before : Body

structure Builder where
  frames : List Frame
  /-- The nodes read so far of the innermost body. -/
  body : Body

namespace Builder

open Body (expression loopHeader unbalanced missingEnd)
open Outcome

def start : Builder := ⟨[], []⟩

def add (b : Builder) (body : Body) : Builder :=
  { b with body := b.body ++ body }

def openBlock (b : Builder) (t : MarkupToken) (block : OpenBlock) : Builder :=
  ⟨⟨t, block, b.body⟩ :: b.frames, []⟩

/-- Goes on with another body of the innermost block. -/
def nextBody (frame : Frame) (frames : List Frame) (block : OpenBlock) : Builder :=
  ⟨{ frame with block } :: frames, []⟩

def step (b : Builder) (t : MarkupToken) : Except ParseError Builder :=
  match t.kind with
  | .text => return b.add [.text t.value]
  | .value => return b.add [.value (← expression t)]
  | .includeTag => return b.add [.includeTag (← expression t)]
  | .pageBreak => return b.add [.pageBreak]
  | .ifTag => return b.openBlock t (.ifBranch [] (← expression t))
  | .unlessTag => return b.openBlock t (.unlessBody (← expression t))
  | .forTag => return b.openBlock t (.forBody (← loopHeader t))
  | .elsifTag =>
    match b.frames with
    | frame :: frames =>
      match frame.block with
      | .ifBranch branches condition => do
        let next ← expression t
        return nextBody frame frames (.ifBranch (branches ++ [(condition, b.body)]) next)
      | .ifElse _ => throw (unbalanced t .elsifAfterElse)
      | _ => throw (unbalanced t .elsifOutside)
    | [] => throw (unbalanced t .elsifOutside)
  | .elseTag =>
    match b.frames with
    | frame :: frames =>
      match frame.block with
      | .ifBranch branches condition =>
        return nextBody frame frames (.ifElse (branches ++ [(condition, b.body)]))
      | .unlessBody condition => return nextBody frame frames (.unlessElse condition b.body)
      | .ifElse _ | .unlessElse .. => throw (unbalanced t .secondElse)
      | .forBody _ => throw (unbalanced t .elseOutside)
    | [] => throw (unbalanced t .elseOutside)
  | .endTag =>
    match b.frames with
    | frame :: frames => return ⟨frames, frame.before ++ [frame.block.close b.body]⟩
    | [] => throw (unbalanced t .endOutside)

/-- The body, once all the tokens of a source of a given size are read. -/
def finish (stop : Nat) (b : Builder) : Except ParseError Body :=
  match b.frames with
  | [] => .ok b.body
  | frame :: _ => .error (missingEnd stop frame.opener)

def run (stop : Nat) (b : Builder) : List MarkupToken → Except ParseError Body
  | [] => b.finish stop
  | t :: ts => do (← b.step t).run stop ts

/-- The tags that end the body that is being read. -/
def closers (b : Builder) : List MarkupKind :=
  match b.frames with
  | [] => []
  | frame :: _ => frame.block.closers

@[simp] theorem add_nil (b : Builder) : b.add [] = b := by
  simp [add]

@[simp] theorem add_add (b : Builder) (first rest : Body) :
    (b.add first).add rest = b.add (first ++ rest) := by
  simp [add]

@[simp] theorem closers_add (b : Builder) (body : Body) : (b.add body).closers = b.closers := rfl

@[simp] theorem add_cons (frames : List Frame) (body rest : Body) :
    add ⟨frames, body⟩ rest = ⟨frames, body ++ rest⟩ := rfl

theorem run_cons (stop : Nat) (b : Builder) (t : MarkupToken) (ts : List MarkupToken) :
    b.run stop (t :: ts) = (b.step t >>= fun b => b.run stop ts) := rfl

/-- A tag that goes on with a block or ends it, where no open block can take it, is refused by
either reading for the same reason. -/
theorem exists_error {b : Builder} (stop : Nat) (ts : List MarkupToken)
    (hk : t.kind ∈ [.elsifTag, .elseTag, .endTag]) (ht : t.kind ∉ b.closers) :
    ∃ e, b.step t = .error e ∧ Body.node stop t ts = .error e := by
  simp only [List.mem_cons, List.not_mem_nil, or_false] at hk
  unfold closers at ht
  cases hf : b.frames with
  | nil => rcases hk with hk | hk | hk <;> simp [step, Body.node, hk, hf, throw_eq_error]
  | cons frame frames =>
    rw [hf] at ht
    cases hb : frame.block <;> rcases hk with hk | hk | hk <;>
      simp [step, Body.node, hk, hf, hb, throw_eq_error, OpenBlock.closers, Body.ifClosers,
        Body.unlessClosers, Body.forClosers] at ht ⊢

mutual
theorem run_eq_nodes (stop : Nat) (b : Builder) (ts : List MarkupToken) :
    b.run stop ts = (do
      match ← Body.nodes stop b.closers ts with
      | (body, none) => (b.add body).finish stop
      | (body, some c) => (b.add body).run stop (c.tag :: c.rest)) := by
  match ts with
  | [] =>
    rw [Body.nodes, pure_eq_ok, ok_bind]
    simp only [add_nil]
    rfl
  | t :: ts =>
    rw [Body.nodes]
    split
    · rw [pure_eq_ok, ok_bind]
      simp only [add_nil]
    · rename_i ht
      rw [run_eq_node stop b t ts (by simpa using ht)]
      cases Body.node stop t ts with
      | error e => rfl
      | ok first =>
        obtain ⟨first, rest, hrest⟩ := first
        simp only [ok_bind]
        rw [run_eq_nodes stop _ rest, closers_add]
        cases Body.nodes stop b.closers rest with
        | error e => rfl
        | ok r =>
          obtain ⟨later, closing⟩ := r
          cases closing <;> simp [ok_bind, pure_eq_ok, Body.Closing.widen]
termination_by (ts.length, 0)
decreasing_by
  · exact Prod.Lex.left _ _ (Nat.lt_succ_self _)
  · exact Prod.Lex.left _ _ (Nat.lt_succ_of_le hrest)

theorem run_eq_node (stop : Nat) (b : Builder) (t : MarkupToken) (ts : List MarkupToken)
    (ht : t.kind ∉ b.closers) :
    b.run stop (t :: ts) = (do
      let (first, rest) ← Body.node stop t ts
      (b.add [first]).run stop rest.1) := by
  rw [run_cons]
  cases hk : t.kind with
  | text => simp [step, Body.node, hk, ok_bind, pure_eq_ok]
  | value => simp [step, Body.node, hk, pure_eq_ok, ok_bind]
  | pageBreak => simp [step, Body.node, hk, ok_bind, pure_eq_ok]
  | includeTag => simp [step, Body.node, hk, pure_eq_ok, ok_bind]
  | ifTag =>
    simp only [step, Body.node, hk, bind_assoc]
    congr 1
    funext condition
    simp only [pure_eq_ok, ok_bind]
    rw [openBlock, run_eq_branches]
    rfl
  | unlessTag =>
    simp only [step, Body.node, hk, bind_assoc]
    congr 1
    funext condition
    simp only [pure_eq_ok, ok_bind]
    rw [openBlock, run_eq_nodes]
    change (Body.nodes stop Body.unlessClosers ts >>= _) = _
    cases hn : Body.nodes stop Body.unlessClosers ts with
    | error e => rfl
    | ok r =>
      obtain ⟨body, closing⟩ := r
      cases closing with
      | none => rfl
      | some c =>
        simp only [ok_bind]
        rcases Body.mem_unlessClosers.mp (Body.nodes_closing hn) with hc | hc
        · rw [if_pos hc, run_cons]
          simp only [step, hc, add_cons, List.nil_append, pure_eq_ok, ok_bind, nextBody,
            bind_assoc]
          rw [run_eq_otherwise stop t (.unlessElse condition body) b.body b.frames c.rest rfl]
          rfl
        · rw [if_neg (by rw [hc]; decide), run_cons]
          simp only [step, hc, add_cons, List.nil_append, pure_eq_ok, ok_bind]
          rfl
  | forTag =>
    simp only [step, Body.node, hk, bind_assoc]
    congr 1
    funext header
    simp only [pure_eq_ok, ok_bind]
    rw [openBlock, run_eq_nodes]
    change (Body.nodes stop Body.forClosers ts >>= _) = _
    cases hn : Body.nodes stop Body.forClosers ts with
    | error e => rfl
    | ok r =>
      obtain ⟨body, closing⟩ := r
      cases closing with
      | none => rfl
      | some c =>
        have hc : c.tag.kind = .endTag := List.mem_singleton.mp (Body.nodes_closing hn)
        simp only [ok_bind, run_cons, step, hc, add_cons, List.nil_append, pure_eq_ok]
        rfl
  | elsifTag | elseTag | endTag =>
    obtain ⟨e, hs, hn⟩ := exists_error stop ts (by simp [hk]) ht
    rw [hs, hn, error_bind, error_bind]
termination_by (ts.length, 2)
decreasing_by
  · exact Prod.Lex.right _ (by omega)
  · exact Prod.Lex.right _ (by omega)
  · exact Prod.Lex.left _ _ c.shorter
  · exact Prod.Lex.right _ (by omega)

theorem run_eq_branches (stop : Nat) (t : MarkupToken) (earlier : List (Expr × Body))
    (condition : Expr) (before : Body) (frames : List Frame) (ts : List MarkupToken) :
    run stop ⟨⟨t, .ifBranch earlier condition, before⟩ :: frames, []⟩ ts = (do
      let ((branches, last), rest) ← Body.branches stop t condition ts
      run stop ⟨frames, before ++ [.ifBlock (earlier ++ branches) last]⟩ rest.1) := by
  rw [run_eq_nodes, Body.branches]
  change (Body.nodes stop Body.ifClosers ts >>= _) = _
  cases hn : Body.nodes stop Body.ifClosers ts with
  | error e => rfl
  | ok r =>
    obtain ⟨body, closing⟩ := r
    cases closing with
    | none => rfl
    | some c =>
      simp only [ok_bind, run_cons]
      rcases Body.mem_ifClosers.mp (Body.nodes_closing hn) with hc | hc | hc
      · simp only [step, hc, add_cons, List.nil_append, bind_assoc]
        congr 1
        funext next
        simp only [pure_eq_ok, ok_bind, nextBody]
        rw [run_eq_branches stop t _ next before frames c.rest]
        simp [List.append_assoc]
      · simp only [step, hc, add_cons, List.nil_append, pure_eq_ok, ok_bind, nextBody, bind_assoc]
        rw [run_eq_otherwise stop t (.ifElse (earlier ++ [(condition, body)])) before frames c.rest
          rfl]
        rfl
      · simp only [step, hc, add_cons, List.nil_append, pure_eq_ok, ok_bind]
        rfl
termination_by (ts.length, 1)
decreasing_by
  · exact Prod.Lex.right _ (by omega)
  · exact Prod.Lex.left _ _ c.shorter
  · exact Prod.Lex.left _ _ c.shorter

theorem run_eq_otherwise (stop : Nat) (t : MarkupToken) (block : OpenBlock) (before : Body)
    (frames : List Frame) (ts : List MarkupToken) (hl : block.isLast) :
    run stop ⟨⟨t, block, before⟩ :: frames, []⟩ ts = (do
      let (last, rest) ← Body.otherwise stop t block.closers ts
      run stop ⟨frames, before ++ [block.close last]⟩ rest.1) := by
  rw [run_eq_nodes, Body.otherwise]
  change (Body.nodes stop block.closers ts >>= _) = _
  cases hn : Body.nodes stop block.closers ts with
  | error e => rfl
  | ok r =>
    obtain ⟨body, closing⟩ := r
    cases closing with
    | none => rfl
    | some c =>
      simp only [ok_bind, run_cons]
      have hc := Body.nodes_closing hn
      cases block with
      | ifElse branches =>
        rcases Body.mem_ifClosers.mp hc with hc | hc | hc
        · simp only [step, hc, add_cons, throw_eq_error, error_bind]
        · simp only [step, hc, add_cons, throw_eq_error, error_bind]
        · simp only [step, hc, add_cons, List.nil_append, pure_eq_ok, ok_bind]
      | unlessElse condition first =>
        rcases Body.mem_unlessClosers.mp hc with hc | hc
        · simp only [step, hc, add_cons, throw_eq_error, error_bind]
        · simp only [step, hc, add_cons, List.nil_append, pure_eq_ok, ok_bind]
      | _ => cases hl
termination_by (ts.length, 1)
decreasing_by exact Prod.Lex.right _ (by omega)
end

/-- Reading token by token with open blocks kept aside gives what reading body by body gives. -/
theorem ofTokens_eq_run (stop : Nat) (ts : List MarkupToken) :
    Body.ofTokens stop ts = start.run stop ts := by
  rw [Body.ofTokens, run_eq_nodes]
  change _ = (Body.nodes stop [] ts >>= _)
  cases hn : Body.nodes stop [] ts with
  | error e => rfl
  | ok r =>
    obtain ⟨body, closing⟩ := r
    cases closing with
    | none => rfl
    | some c => exact absurd (Body.nodes_closing hn) List.not_mem_nil

end Builder

end FormLetter
