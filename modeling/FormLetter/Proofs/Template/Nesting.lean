import FormLetter.Proofs.Template.Reading

namespace FormLetter

open Outcome

/-- The blocks that are open, the innermost first: the kind of the tag that opened each, and whether
its `else` has been read. -/
abbrev Nesting := List (MarkupKind × Bool)

/-- The open blocks after a tag. There are none if the tag cannot stand where it does. -/
def Nesting.step? (blocks : Nesting) : MarkupKind → Option Nesting
  | .text | .value | .includeTag | .pageBreak => some blocks
  | .ifTag => some ((.ifTag, false) :: blocks)
  | .unlessTag => some ((.unlessTag, false) :: blocks)
  | .forTag => some ((.forTag, false) :: blocks)
  | .elsifTag =>
    match blocks with
    | (.ifTag, false) :: _ => some blocks
    | _ => none
  | .elseTag =>
    match blocks with
    | (.ifTag, false) :: outer => some ((.ifTag, true) :: outer)
    | (.unlessTag, false) :: outer => some ((.unlessTag, true) :: outer)
    | _ => none
  | .endTag => blocks.tail?

/-- Tags nest if each can stand where it does and no block stays open. -/
def Nesting.Balanced (blocks : Nesting) (kinds : List MarkupKind) : Prop :=
  kinds.foldlM step? blocks = some []

theorem Nesting.balanced_cons {blocks : Nesting} (h : blocks.step? k = some after) :
    blocks.Balanced (k :: kinds) ↔ after.Balanced kinds := by
  simp [Balanced, h]

theorem Nesting.not_balanced_cons {blocks : Nesting} (h : blocks.step? k = none) :
    ¬blocks.Balanced (k :: kinds) := by
  simp [Balanced, h]

namespace OpenBlock

def mark : OpenBlock → MarkupKind × Bool
  | ifBranch .. => (.ifTag, false)
  | ifElse _ => (.ifTag, true)
  | unlessBody _ => (.unlessTag, false)
  | unlessElse .. => (.unlessTag, true)
  | forBody _ => (.forTag, false)

end OpenBlock

namespace Builder

def nesting (b : Builder) : Nesting :=
  b.frames.map (·.block.mark)

/-- A token that is read was readable and could stand where it did. -/
theorem of_step {b b' : Builder} (h : b.step t = .ok b') :
    t.Readable ∧ b.nesting.step? t.kind = some b'.nesting := by
  obtain ⟨p, hp, ha⟩ := adds_of_step h
  rw [← MarkupToken.read_kind hp]
  exact ⟨t.read_isOk_iff.mp ⟨p, hp⟩, by cases ha <;> rfl⟩

/-- A readable token that can stand where it does is read. -/
theorem step_of {b : Builder} (ht : t.Readable) (hn : b.nesting.step? t.kind = some after) :
    ∃ b', b.step t = .ok b' ∧ b'.nesting = after := by
  cases hs : b.step t with
  | ok b' => exact ⟨b', rfl, Option.some.inj ((of_step hs).2.symm.trans hn)⟩
  | error error =>
    obtain ⟨frames, body⟩ := b
    cases hk : t.kind with
    | text | pageBreak =>
      simp only [step, hk] at hs
      cases hs
    | value | includeTag | ifTag | unlessTag =>
      simp only [MarkupToken.Readable, hk] at ht
      obtain ⟨e, he⟩ := ht
      simp only [step, hk, Body.expression_eq_ok.mpr he] at hs
      cases hs
    | forTag =>
      simp only [MarkupToken.Readable, hk] at ht
      obtain ⟨header, hh⟩ := ht
      simp only [step, hk, Body.loopHeader_eq_ok.mpr hh] at hs
      cases hs
    | elsifTag =>
      simp only [MarkupToken.Readable, hk] at ht
      obtain ⟨e, he⟩ := ht
      rw [hk] at hn
      simp only [step, hk, Body.expression_eq_ok.mpr he] at hs
      cases frames with
      | nil => cases hn
      | cons frame frames =>
        obtain ⟨opener, block, before⟩ := frame
        cases block with
        | ifBranch branches condition => cases hs
        | _ => cases hn
    | elseTag =>
      rw [hk] at hn
      simp only [step, hk] at hs
      cases frames with
      | nil => cases hn
      | cons frame frames =>
        obtain ⟨opener, block, before⟩ := frame
        cases block with
        | ifBranch | unlessBody => cases hs
        | _ => cases hn
    | endTag =>
      rw [hk] at hn
      simp only [step, hk] at hs
      cases frames with
      | nil => cases hn
      | cons frame frames => cases hs

/-- Tokens are read from where a builder stands if and only if they are readable and nest in the
blocks that are open there. -/
theorem run_isOk_iff (stop : Nat) (b : Builder) (ts : List MarkupToken) :
    (∃ body, b.run stop ts = .ok body) ↔
      (∀ t ∈ ts, t.Readable) ∧ b.nesting.Balanced (ts.map (·.kind)) := by
  induction ts generalizing b with
  | nil =>
    obtain ⟨frames, body⟩ := b
    cases frames with
    | nil => simp [run, finish, Nesting.Balanced, nesting]
    | cons frame frames => simp [run, finish, Nesting.Balanced, nesting]
  | cons t ts ih =>
    simp only [List.map_cons, List.forall_mem_cons]
    constructor
    · intro hx
      obtain ⟨body, h⟩ := hx
      obtain ⟨b', hb, h⟩ := bind_eq_ok.mp h
      obtain ⟨ht, hn⟩ := of_step hb
      obtain ⟨hts, hrest⟩ := (ih b').mp ⟨body, h⟩
      exact ⟨⟨ht, hts⟩, (Nesting.balanced_cons hn).mpr hrest⟩
    · intro hx
      obtain ⟨⟨ht, hts⟩, hn⟩ := hx
      cases hs : b.nesting.step? t.kind with
      | none => exact absurd hn (Nesting.not_balanced_cons hs)
      | some after =>
        obtain ⟨b', hb, rfl⟩ := step_of ht hs
        obtain ⟨body, h⟩ := (ih b').mpr ⟨hts, (Nesting.balanced_cons hs).mp hn⟩
        exact ⟨body, bind_eq_ok.mpr ⟨b', hb, h⟩⟩

end Builder

/-- The tokens of a template make up a body if and only if every tag can be read and the tags
nest. -/
theorem Body.ofTokens_isOk_iff (stop : Nat) (ts : List MarkupToken) :
    (∃ body, Body.ofTokens stop ts = .ok body) ↔
      (∀ t ∈ ts, t.Readable) ∧ Nesting.Balanced [] (ts.map (·.kind)) := by
  rw [Builder.ofTokens_eq_run]
  exact Builder.run_isOk_iff stop Builder.start ts

end FormLetter
