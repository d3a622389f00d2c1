import FormLetter.Proofs.Expr.RoundTrip
import FormLetter.Proofs.Template.Pieces

namespace FormLetter

open Outcome

/-- A tag of a kind that has an expression in it. -/
def MarkupToken.Holds (t : MarkupToken) (kind : MarkupKind) (e : Expr) : Prop :=
  t.kind = kind ∧ Expr.parse t.value = .ok e

/-- A tag that starts a loop. -/
def MarkupToken.Loops (t : MarkupToken) (header : LoopHeader) : Prop :=
  t.kind = .forTag ∧ LoopHeader.parse t.value = .ok header

/-- What a run of tokens can be. -/
inductive Phrase where
  | node (node : Node)
  | body (body : Body)
  /-- The branches of an `if` block. -/
  | branches (branches : List (Expr × Body))
  /-- What stands between the branches of a block and its end. -/
  | orElse (otherwise : Option Body)

inductive Phrase.Yields : Phrase → List MarkupToken → Prop where
  | text : t.kind = .text → Yields (.node (.text t.value)) [t]
  | value : t.Holds .value e → Yields (.node (.value e)) [t]
  | fragment : t.Holds .includeTag e → Yields (.node (.includeTag e)) [t]
  | pageBreak : t.kind = .pageBreak → Yields (.node .pageBreak) [t]
  | ifBlock : Yields (.branches bs) ts → Yields (.orElse otherwise) us →
      stop.kind = .endTag → Yields (.node (.ifBlock bs otherwise)) (ts ++ us ++ [stop])
  | unlessBlock : t.Holds .unlessTag e → Yields (.body nodes) ts → Yields (.orElse otherwise) us →
      stop.kind = .endTag →
      Yields (.node (.unlessBlock e nodes otherwise)) (t :: ts ++ us ++ [stop])
  | forBlock : t.Loops header → Yields (.body nodes) ts → stop.kind = .endTag →
      Yields (.node (.forBlock header nodes)) (t :: ts ++ [stop])
  | nil : Yields (.body []) []
  | cons : Yields (.node n) ts → Yields (.body nodes) us → Yields (.body (n :: nodes)) (ts ++ us)
  | ifTag : t.Holds .ifTag e → Yields (.body nodes) ts → Yields (.branches [(e, nodes)]) (t :: ts)
  | elsifTag : Yields (.branches bs) ts → t.Holds .elsifTag e → Yields (.body nodes) us →
      Yields (.branches (bs ++ [(e, nodes)])) (ts ++ t :: us)
  | noElse : Yields (.orElse none) []
  | elseTag : t.kind = .elseTag → Yields (.body nodes) ts →
      Yields (.orElse (some nodes)) (t :: ts)

namespace Phrase.Yields

theorem single (h : Yields (.node n) ts) : Yields (.body [n]) ts := by
  simpa using h.cons .nil

theorem append (h : Yields (.body nodes) ts) (h' : Yields (.body rest) us) :
    Yields (.body (nodes ++ rest)) (ts ++ us) := by
  induction nodes generalizing ts with
  | nil =>
    cases h
    exact h'
  | cons n nodes ih =>
    cases h with
    | cons hnode hbody =>
      rw [List.append_assoc]
      exact hnode.cons (ih hbody)

end Phrase.Yields

open Phrase (Yields)

theorem MarkupToken.holds_of_read {t : MarkupToken} (h : t.read = .ok ⟨k, .expression e⟩) :
    t.Holds k e := by
  refine ⟨(read_kind h).symm, ?_⟩
  cases hk : t.kind with
  | text | elseTag | endTag | pageBreak =>
    simp only [read, hk] at h
    cases h
  | forTag =>
    simp only [read, hk] at h
    obtain ⟨_, _, heq⟩ := map_eq_ok.mp h
    cases heq
  | value | includeTag | ifTag | unlessTag | elsifTag =>
    simp only [read, hk] at h
    obtain ⟨_, he, heq⟩ := map_eq_ok.mp h
    cases heq
    exact Body.expression_eq_ok.mp he

theorem MarkupToken.loops_of_read {t : MarkupToken} (h : t.read = .ok ⟨.forTag, .header header⟩) :
    t.Loops header := by
  have hk := (read_kind h).symm
  refine ⟨hk, ?_⟩
  simp only [read, hk] at h
  obtain ⟨_, hh, heq⟩ := map_eq_ok.mp h
  cases heq
  exact Body.loopHeader_eq_ok.mp hh

/-- The tokens of an open block before the body that is being read: the block is a derivation that
is not complete yet. -/
def OpenBlock.Begun : OpenBlock → List MarkupToken → Prop
  | ifBranch branches condition, ts => ∀ body us, Yields (.body body) us →
      Yields (.branches (branches ++ [(condition, body)])) (ts ++ us)
  | ifElse branches, ts => ∃ us t, ts = us ++ [t] ∧ Yields (.branches branches) us ∧
      t.kind = .elseTag
  | unlessBody condition, ts => ∃ t, ts = [t] ∧ t.Holds .unlessTag condition
  | unlessElse condition body, ts => ∃ t us t', ts = t :: us ++ [t'] ∧
      t.Holds .unlessTag condition ∧ Yields (.body body) us ∧ t'.kind = .elseTag
  | forBody header, ts => ∃ t, ts = [t] ∧ t.Loops header

/-- A block that is ended is derived. -/
theorem OpenBlock.Begun.close {block : OpenBlock} (h : block.Begun ts)
    (hbody : Yields (.body body) us) (hstop : stop.kind = .endTag) :
    Yields (.node (block.close body)) (ts ++ us ++ [stop]) := by
  cases block with
  | ifBranch branches condition =>
    simpa [OpenBlock.close] using Yields.ifBlock (h body us hbody) .noElse hstop
  | ifElse branches =>
    obtain ⟨vs, t, rfl, hbranches, ht⟩ := h
    simpa [OpenBlock.close] using Yields.ifBlock hbranches (.elseTag ht hbody) hstop
  | unlessBody condition =>
    obtain ⟨t, rfl, ht⟩ := h
    simpa [OpenBlock.close] using Yields.unlessBlock ht hbody .noElse hstop
  | unlessElse condition first =>
    obtain ⟨t, vs, t', rfl, ht, hfirst, ht'⟩ := h
    simpa [OpenBlock.close] using Yields.unlessBlock ht hfirst (.elseTag ht' hbody) hstop
  | forBody header =>
    obtain ⟨t, rfl, ht⟩ := h
    exact Yields.forBlock ht hbody hstop

/-- The tokens of open blocks, with what stands before each. -/
def OpenedBy : List Frame → List MarkupToken → Prop
  | [], ts => ts = []
  | frame :: outer, ts => ∃ us vs ws, ts = us ++ vs ++ ws ∧ OpenedBy outer us ∧
      Yields (.body frame.before) vs ∧ frame.block.Begun ws

namespace Builder

/-- The tokens that have been read. -/
def HasRead (b : Builder) (ts : List MarkupToken) : Prop :=
  ∃ us vs, ts = us ++ vs ∧ OpenedBy b.frames us ∧ Yields (.body b.body) vs

namespace HasRead

variable {b : Builder}

theorem add (h : b.HasRead ts) (hnode : Yields (.node n) us) :
    (b.add [n]).HasRead (ts ++ us) := by
  obtain ⟨vs, ws, rfl, hframes, hbody⟩ := h
  exact ⟨vs, ws ++ us, List.append_assoc .., hframes, hbody.append hnode.single⟩

theorem openBlock (h : b.HasRead ts) (hblock : block.Begun [t]) :
    (b.openBlock t block).HasRead (ts ++ [t]) := by
  obtain ⟨vs, ws, rfl, hframes, hbody⟩ := h
  exact ⟨vs ++ ws ++ [t], [], by simp, ⟨vs, ws, [t], rfl, hframes, hbody, hblock⟩, .nil⟩

theorem nextBody (h : HasRead ⟨frame :: outer, nodes⟩ ts)
    (hblock : ∀ us vs, frame.block.Begun us → Yields (.body nodes) vs →
      block.Begun (us ++ vs ++ [t])) :
    (nextBody frame outer block).HasRead (ts ++ [t]) := by
  obtain ⟨_, xs, rfl, ⟨us, vs, ws, rfl, houter, hbefore, hbegun⟩, hbody⟩ := h
  refine ⟨us ++ vs ++ (ws ++ xs ++ [t]), [], by simp, ?_, .nil⟩
  exact ⟨us, vs, ws ++ xs ++ [t], rfl, houter, hbefore, hblock ws xs hbegun hbody⟩

theorem endBlock (h : HasRead ⟨frame :: outer, nodes⟩ ts) (ht : t.kind = .endTag) :
    HasRead ⟨outer, frame.before ++ [frame.block.close nodes]⟩ (ts ++ [t]) := by
  obtain ⟨_, xs, rfl, ⟨us, vs, ws, rfl, houter, hbefore, hbegun⟩, hbody⟩ := h
  refine ⟨us, vs ++ (ws ++ xs ++ [t]), by simp, houter, ?_⟩
  exact hbefore.append (hbegun.close hbody ht).single

/-- A step adds its token to those that have been read. -/
theorem step (h : b.HasRead ts) (hstep : b.step t = .ok b') : b'.HasRead (ts ++ [t]) := by
  obtain ⟨p, hp, hadds⟩ := adds_of_step hstep
  have hk := (MarkupToken.read_kind hp).symm
  cases hadds with
  | text => exact h.add (.text hk)
  | pageBreak => exact h.add (.pageBreak hk)
  | value => exact h.add (.value (MarkupToken.holds_of_read hp))
  | fragment => exact h.add (.fragment (MarkupToken.holds_of_read hp))
  | ifBlock =>
    apply h.openBlock
    intro nodes us hbody
    exact .ifTag (MarkupToken.holds_of_read hp) hbody
  | unlessBlock => exact h.openBlock ⟨t, rfl, MarkupToken.holds_of_read hp⟩
  | forBlock => exact h.openBlock ⟨t, rfl, MarkupToken.loops_of_read hp⟩
  | branch =>
    apply h.nextBody
    intro us vs hbegun hbody next ws hnext
    have hbranches := hbegun _ _ hbody
    simpa using hbranches.elsifTag (MarkupToken.holds_of_read hp) hnext
  | ifElse =>
    apply h.nextBody
    intro us vs hbegun hbody
    exact ⟨us ++ vs, t, rfl, hbegun _ _ hbody, hk⟩
  | unlessElse =>
    apply h.nextBody
    intro us vs hbegun hbody
    obtain ⟨t', rfl, ht'⟩ := hbegun
    exact ⟨t', vs, t, rfl, ht', hbody, hk⟩
  | endBlock => exact h.endBlock hk

/-- A body that is read to the end is derived from all the tokens. -/
theorem run (h : b.HasRead ts) (hrun : b.run stop us = .ok nodes) :
    Yields (.body nodes) (ts ++ us) := by
  induction us generalizing b ts with
  | nil =>
    obtain ⟨frames, before⟩ := b
    cases frames with
    | cons frame frames => cases hrun
    | nil =>
      cases hrun
      obtain ⟨_, vs, rfl, hframes, hbody⟩ := h
      cases (hframes : _ = [])
      simpa using hbody
  | cons t us ih =>
    obtain ⟨b', hstep, hrun⟩ := bind_eq_ok.mp hrun
    simpa using ih (h.step hstep) hrun

end HasRead

end Builder

/-- In the last of some branches of a block. -/
inductive InBranches (opener : MarkupToken) (before : Body) (outer : List Frame) :
    List (Expr × Body) → Builder → Prop where
  | last (branches : List (Expr × Body)) (condition : Expr) (body : Body) :
      InBranches opener before outer (branches ++ [(condition, body)])
        ⟨⟨opener, .ifBranch branches condition, before⟩ :: outer, body⟩

/-- What a builder does with the tokens of a phrase, whatever follows them. -/
def Phrase.Read : Phrase → List MarkupToken → Prop
  | node n, ts => ∀ stop b rest, Builder.run stop b (ts ++ rest) = (b.add [n]).run stop rest
  | body nodes, ts => ∀ stop b rest, Builder.run stop b (ts ++ rest) = (b.add nodes).run stop rest
  | branches found, ts => ∀ stop b rest, ∃ opener b', InBranches opener b.body b.frames found b' ∧
      Builder.run stop b (ts ++ rest) = b'.run stop rest
  | orElse otherwise, ts => ∀ stop opener before outer close rest, close.kind = .endTag →
      (∀ found b, InBranches opener before outer found b →
        Builder.run stop b (ts ++ close :: rest) =
          Builder.run stop ⟨outer, before ++ [.ifBlock found otherwise]⟩ rest) ∧
      ∀ condition body,
        Builder.run stop ⟨⟨opener, .unlessBody condition, before⟩ :: outer, body⟩
            (ts ++ close :: rest) =
          Builder.run stop ⟨outer, before ++ [.unlessBlock condition body otherwise]⟩ rest

namespace Builder

variable {b b' : Builder}

theorem run_of_step (h : b.step t = .ok b') (stop : Nat) (ts : List MarkupToken) :
    b.run stop (t :: ts) = b'.run stop ts := by
  rw [run_cons, h, ok_bind]

/-- A tag that ends a block completes the body that is being read. -/
theorem run_end (ht : t.kind = .endTag) (stop : Nat) (frame : Frame) (outer : List Frame)
    (body : Body) (ts : List MarkupToken) :
    run stop ⟨frame :: outer, body⟩ (t :: ts) =
      run stop ⟨outer, frame.before ++ [frame.block.close body]⟩ ts := by
  apply run_of_step
  simp only [step, ht]
  rfl

theorem step_openIf (ht : t.Holds .ifTag e) (b : Builder) :
    b.step t = .ok (b.openBlock t (.ifBranch [] e)) := by
  simp only [step, ht.1, Body.expression_eq_ok.mpr ht.2, ok_bind, pure_eq_ok]

theorem step_openUnless (ht : t.Holds .unlessTag e) (b : Builder) :
    b.step t = .ok (b.openBlock t (.unlessBody e)) := by
  simp only [step, ht.1, Body.expression_eq_ok.mpr ht.2, ok_bind, pure_eq_ok]

theorem step_openFor (ht : t.Loops header) (b : Builder) :
    b.step t = .ok (b.openBlock t (.forBody header)) := by
  simp only [step, ht.1, Body.loopHeader_eq_ok.mpr ht.2, ok_bind, pure_eq_ok]

end Builder

open Builder (run_of_step run_end)

theorem Phrase.Yields.read (h : Yields phrase ts) : phrase.Read ts := by
  induction h with
  | text ht =>
    intro stop b rest
    apply run_of_step
    simp only [Builder.step, ht]
    rfl
  | pageBreak ht =>
    intro stop b rest
    apply run_of_step
    simp only [Builder.step, ht]
    rfl
  | value ht | fragment ht =>
    intro stop b rest
    apply run_of_step
    simp only [Builder.step, ht.1, Body.expression_eq_ok.mpr ht.2, ok_bind, pure_eq_ok]
  | @ifBlock _ ts _ us close _ _ hclose ihbranches ihelse =>
    intro stop b rest
    obtain ⟨opener, b', hb', hrun⟩ := ihbranches stop b (us ++ close :: rest)
    have hlast := (ihelse stop opener b.body b.frames close rest hclose).1 _ b' hb'
    calc Builder.run stop b (ts ++ us ++ [close] ++ rest)
        = Builder.run stop b (ts ++ (us ++ close :: rest)) := by simp
      _ = Builder.run stop b' (us ++ close :: rest) := hrun
      _ = _ := hlast
  | @unlessBlock body ts _ us e t close ht _ _ hclose ihbody ihelse =>
    intro stop b rest
    have hbody := ihbody stop (b.openBlock t (.unlessBody e)) (us ++ close :: rest)
    have hlast := (ihelse stop t b.body b.frames close rest hclose).2 e body
    calc Builder.run stop b (t :: ts ++ us ++ [close] ++ rest)
        = Builder.run stop b (t :: (ts ++ (us ++ close :: rest))) := by simp
      _ = _ := run_of_step (Builder.step_openUnless ht b) stop _
      _ = _ := hbody
      _ = _ := hlast
  | @forBlock body ts header t close ht _ hclose ihbody =>
    intro stop b rest
    have hbody := ihbody stop (b.openBlock t (.forBody header)) (close :: rest)
    calc Builder.run stop b (t :: ts ++ [close] ++ rest)
        = Builder.run stop b (t :: (ts ++ close :: rest)) := by simp
      _ = _ := run_of_step (Builder.step_openFor ht b) stop _
      _ = _ := hbody
      _ = _ := run_end hclose stop _ _ _ rest
  | nil =>
    intro stop b rest
    rw [Builder.add_nil, List.nil_append]
  | cons _ _ ihnode ihbody =>
    intro stop b rest
    rw [List.append_assoc, ihnode, ihbody, Builder.add_add, List.singleton_append]
  | @ifTag body ts e t ht _ ihbody =>
    intro stop b rest
    refine ⟨t, (b.openBlock t (.ifBranch [] e)).add body, .last [] e body, ?_⟩
    rw [List.cons_append, run_of_step (Builder.step_openIf ht b), ihbody]
  | @elsifTag branches ts body us e t _ ht _ ihbranches ihbody =>
    intro stop b rest
    obtain ⟨opener, b', hb', hrun⟩ := ihbranches stop b (t :: us ++ rest)
    cases hb' with
    | last branches condition nodes =>
      let frame : Frame := ⟨opener, .ifBranch branches condition, b.body⟩
      let next := Builder.nextBody frame b.frames
        (.ifBranch (branches ++ [(condition, nodes)]) e)
      have hstep : Builder.step ⟨frame :: b.frames, nodes⟩ t = .ok next := by
        simp only [Builder.step, ht.1, frame, Body.expression_eq_ok.mpr ht.2, ok_bind, pure_eq_ok]
        rfl
      refine ⟨opener, next.add body, .last (branches ++ [(condition, nodes)]) e body, ?_⟩
      rw [List.append_assoc, hrun, List.cons_append, run_of_step hstep, ihbody]
  | noElse =>
    intro stop opener before outer close rest hclose
    refine ⟨?_, ?_⟩
    · intro found b hb
      cases hb
      exact run_end hclose stop _ outer _ rest
    · intro condition body
      exact run_end hclose stop _ outer _ rest
  | @elseTag body ts t ht _ ihbody =>
    intro stop opener before outer close rest hclose
    refine ⟨?_, ?_⟩
    · intro found b hb
      cases hb with
      | last branches condition nodes =>
        let frame : Frame := ⟨opener, .ifBranch branches condition, before⟩
        have hstep : Builder.step ⟨frame :: outer, nodes⟩ t =
            .ok (Builder.nextBody frame outer (.ifElse (branches ++ [(condition, nodes)]))) := by
          simp only [Builder.step, ht, frame]
          rfl
        rw [List.cons_append, run_of_step hstep, ihbody]
        exact run_end hclose stop _ outer _ rest
    · intro condition nodes
      let frame : Frame := ⟨opener, .unlessBody condition, before⟩
      have hstep : Builder.step ⟨frame :: outer, nodes⟩ t =
          .ok (Builder.nextBody frame outer (.unlessElse condition nodes)) := by
        simp only [Builder.step, ht, frame]
        rfl
      rw [List.cons_append, run_of_step hstep, ihbody]
      exact run_end hclose stop _ outer _ rest

namespace Body

theorem ofTokens_eq_ok : ofTokens stop ts = .ok body ↔ Yields (.body body) ts := by
  rw [Builder.ofTokens_eq_run]
  constructor
  · intro h
    have hstart : Builder.start.HasRead [] := ⟨[], [], rfl, rfl, .nil⟩
    exact hstart.run h
  · intro h
    have hrun := h.read stop Builder.start []
    rw [List.append_nil] at hrun
    exact hrun

/-- Tokens make up a body if and only if the grammar derives one from them. It derives no other one,
and what is written out again from it are all the tokens, in order, with what they were read as. -/
theorem ofTokens_iff_yields (stop : Nat) (ts : List MarkupToken) :
    ((∃ body, ofTokens stop ts = .ok body) ↔ ∃ body, Yields (.body body) ts) ∧
    ∀ body, ofTokens stop ts = .ok body →
      Yields (.body body) ts ∧ (∀ other, Yields (.body other) ts → other = body) ∧
      ts.mapM MarkupToken.read = .ok (bodyPieces body) := by
  refine ⟨exists_congr fun body => ofTokens_eq_ok, ?_⟩
  intro body h
  refine ⟨ofTokens_eq_ok.mp h, ?_, pieces_ofTokens h⟩
  intro other hother
  have hread : ofTokens stop ts = .ok other := ofTokens_eq_ok.mpr hother
  exact Except.ok.inj (hread.symm.trans h)

/-- The tag that starts the other branch ends the body of the first. -/
theorem ofTokens_iff_yields_else :
    let ts : List MarkupToken := [⟨.ifTag, "a", 6⟩, ⟨.pageBreak, "", 11⟩, ⟨.elseTag, "", 24⟩,
      ⟨.text, "b", 30⟩, ⟨.endTag, "", 33⟩]
    let body : Body := [.ifBlock [(.var "a", [.pageBreak])] (some [.text "b"])]
    ofTokens 38 ts = .ok body ∧ Yields (.body body) ts ∧
      ts.mapM MarkupToken.read = .ok (bodyPieces body) := by
  intro ts body
  have ha : Expr.IsReference "a" := ⟨isName_of_all (show "a".toList = ['a'] from rfl) rfl rfl, rfl⟩
  have h : ofTokens 38 ts = .ok body := by
    simp only [ts, Builder.ofTokens_eq_run, Builder.run, Builder.step, Body.expression,
      Expr.parse_of_isReference ha, mapError_ok, ok_bind]
    rfl
  obtain ⟨hyields, -, hpieces⟩ := (ofTokens_iff_yields 38 ts).2 body h
  exact ⟨h, hyields, hpieces⟩

end Body

end FormLetter
