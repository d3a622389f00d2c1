import FormLetter.Proofs.Markup.Seams
import FormLetter.Proofs.Template.Grammar
import FormLetter.Proofs.Validation.Acceptance

namespace FormLetter

open Outcome
open Phrase (Yields)

/-- Literal text on both sides of a seam is one node. -/
def Node.merge? : Node → Node → Option Node
  | .text a, .text b => some (.text (a ++ b))
  | _, _ => none

theorem Node.merge?_eq_some {m n both : Node} (h : m.merge? n = some both) :
    ∃ a b, m = .text a ∧ n = .text b ∧ both = .text (a ++ b) := by
  unfold merge? at h
  split at h
  · cases h
    exact ⟨_, _, rfl, rfl, rfl⟩
  · cases h

/-- Two bodies in a row. -/
def Body.join : Body → Body → Body :=
  joinWith Node.merge?

namespace Phrase.Yields

/-- What tokens are read as does not hang on where they stand. -/
theorem moved (h : Yields phrase ts) (distance : Nat) :
    Yields phrase (ts.map (Markup.moved distance)) := by
  have hkind {t k} (h : MarkupToken.kind t = k) : (Markup.moved distance t).kind = k := h
  have hholds {t k e} (h : MarkupToken.Holds t k e) : (Markup.moved distance t).Holds k e := h
  have hloops {t header} (h : MarkupToken.Loops t header) :
      (Markup.moved distance t).Loops header := h
  induction h with
  | text ht => exact .text (hkind ht)
  | value ht => exact .value (hholds ht)
  | fragment ht => exact .fragment (hholds ht)
  | pageBreak ht => exact .pageBreak (hkind ht)
  | ifBlock _ _ hstop ihbranches ihelse => simpa using ihbranches.ifBlock ihelse (hkind hstop)
  | unlessBlock ht _ _ hstop ihbody ihelse =>
    simpa using Yields.unlessBlock (hholds ht) ihbody ihelse (hkind hstop)
  | forBlock ht _ hstop ihbody => simpa using Yields.forBlock (hloops ht) ihbody (hkind hstop)
  | nil => exact .nil
  | cons _ _ ihnode ihbody => simpa using ihnode.cons ihbody
  | ifTag ht _ ihbody => exact .ifTag (hholds ht) ihbody
  | elsifTag _ ht _ ihbranches ihbody => simpa using ihbranches.elsifTag (hholds ht) ihbody
  | noElse => exact .noElse
  | elseTag ht _ ihbody => exact .elseTag (hkind ht) ihbody

theorem branches_ne_nil (h : Yields (.branches bs) ts) :
    ∃ t us, ts = t :: us ∧ t.kind = .ifTag := by
  generalize hp : Phrase.branches bs = phrase at h
  induction h generalizing bs with
  | @ifTag _ ts _ t ht => exact ⟨t, ts, rfl, ht.1⟩
  | elsifTag _ _ _ ih =>
    obtain ⟨t, us, rfl, ht⟩ := ih rfl
    exact ⟨t, _, rfl, ht⟩
  | _ => cases hp

/-- A node is literal text exactly where its tokens start and end with it. -/
theorem ends (h : Yields (.node n) ts) :
    (∃ t us, ts = t :: us ∧ (t.kind = .text ↔ ∃ content, n = .text content)) ∧
    ∃ us t, ts = us ++ [t] ∧ (t.kind = .text ↔ ∃ content, n = .text content) := by
  cases h with
  | @text t ht => exact ⟨⟨t, [], rfl, by simp [ht]⟩, [], t, rfl, by simp [ht]⟩
  | @value _ t ht | @fragment _ t ht =>
    exact ⟨⟨t, [], rfl, by simp [ht.1]⟩, [], t, rfl, by simp [ht.1]⟩
  | @pageBreak t ht => exact ⟨⟨t, [], rfl, by simp [ht]⟩, [], t, rfl, by simp [ht]⟩
  | @ifBlock _ _ _ _ stop hbranches _ hstop =>
    obtain ⟨t, us, rfl, ht⟩ := hbranches.branches_ne_nil
    exact ⟨⟨t, _, rfl, by simp [ht]⟩, _, stop, rfl, by simp [hstop]⟩
  | @unlessBlock _ _ _ _ _ t stop ht _ _ hstop =>
    exact ⟨⟨t, _, rfl, by simp [ht.1]⟩, _, stop, rfl, by simp [hstop]⟩
  | @forBlock _ _ _ t stop ht _ hstop =>
    exact ⟨⟨t, _, rfl, by simp [ht.1]⟩, _, stop, rfl, by simp [hstop]⟩

theorem of_single (h : Yields (.body [n]) ts) : Yields (.node n) ts := by
  cases h with
  | cons hnode hnil =>
    cases hnil
    simpa using hnode

theorem split_append (h : Yields (.body (nodes ++ rest)) ts) :
    ∃ us vs, ts = us ++ vs ∧ Yields (.body nodes) us ∧ Yields (.body rest) vs := by
  induction nodes generalizing ts with
  | nil => exact ⟨[], ts, rfl, .nil, h⟩
  | cons n nodes ih =>
    cases h with
    | @cons _ us _ _ hnode hbody =>
      obtain ⟨vs, ws, rfl, hnodes, hrest⟩ := ih hbody
      exact ⟨us ++ vs, ws, (List.append_assoc ..).symm, hnode.cons hnodes, hrest⟩

/-- Where the tokens of two bodies are put together, the bodies are. -/
theorem join {nodes rest : Body} (h : Yields (.body nodes) ts) (h' : Yields (.body rest) us) :
    Yields (.body (nodes.join rest)) (Markup.join ts us) := by
  rcases List.eq_nil_or_concat nodes with rfl | ⟨nodes, m, rfl⟩
  · cases h
    exact h'
  rw [List.concat_eq_append] at h ⊢
  cases rest with
  | nil =>
    cases h'
    simpa [Body.join, Markup.join] using h
  | cons n rest =>
    obtain ⟨ts, vs, rfl, hnodes, hlast⟩ := h.split_append
    have hm := hlast.of_single
    cases h' with
    | @cons _ ws _ us hn hrest =>
    cases hmerge : m.merge? n with
    | some both =>
      obtain ⟨a, b, rfl, rfl, rfl⟩ := Node.merge?_eq_some hmerge
      cases hm with
      | @text t ht =>
      cases hn with
      | @text u hu =>
        have hboth : Yields (.node (.text (t.value ++ u.value)))
            [{ t with value := t.value ++ u.value }] := .text (t := { t with value := _ }) ht
        rw [Body.join, joinWith_concat hmerge, Markup.join, List.singleton_append,
          joinWith_concat (MarkupToken.merge?_of_text ht hu)]
        exact hnodes.append (hboth.cons hrest)
    | none =>
      obtain ⟨-, vs, t, rfl, ht⟩ := hm.ends
      obtain ⟨⟨u, ws, rfl, hu⟩, -⟩ := hn.ends
      have hseam : t.merge? u = none := by
        refine if_neg fun htext => ?_
        obtain ⟨a, rfl⟩ := ht.mp htext.1
        obtain ⟨b, rfl⟩ := hu.mp htext.2
        cases hmerge
      rw [Body.join, joinWith_concat_of_none hmerge, Markup.join, ← List.append_assoc,
        List.cons_append, joinWith_concat_of_none hseam]
      simpa using hnodes.append ((hm.single.append hn.single).append hrest)

end Phrase.Yields

/-- Whether an opening delimiter arises between two sources. -/
def Template.Splits (s s' : String) : Prop :=
  Markup.Splits s.toList s'.toList

theorem Template.parse_append {t t' : Template} (h : parse s = .ok t) (h' : parse s' = .ok t')
    (hseam : ¬Splits s s') : parse (s ++ s') = .ok ⟨s ++ s', t.body.join t'.body⟩ := by
  obtain ⟨-, ts, hts, hbody⟩ := parse_eq_ok.mp h
  obtain ⟨-, us, hus, hbody'⟩ := parse_eq_ok.mp h'
  have hyields := Body.ofTokens_eq_ok.mp hbody
  have hyields' := Body.ofTokens_eq_ok.mp hbody'
  have hmoved := Markup.tokensFrom_moved (0 + Text.size8 s.toList) hus
  have htokens : Markup.tokens (s ++ s') =
      .ok (Markup.join ts (us.map (Markup.moved (0 + Text.size8 s.toList)))) := by
    rw [Markup.tokens, String.toList_append, Markup.tokensFrom_append hseam hts]
    exact congrArg (Except.map (Markup.join ts)) hmoved
  refine parse_eq_ok.mpr ⟨rfl, _, htokens, ?_⟩
  exact Body.ofTokens_eq_ok.mpr (hyields.join (hyields'.moved _))

end FormLetter
