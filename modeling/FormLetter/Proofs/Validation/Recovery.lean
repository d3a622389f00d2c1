import Mathlib.Data.List.Forall2
import FormLetter.Proofs.Markup.Matching
import FormLetter.Proofs.Validation.Blocks

namespace FormLetter

open Validation

/-- Tags whose block may have an `else`. -/
def MarkupKind.TakesElse (k : MarkupKind) : Prop :=
  k = .ifTag ∨ k = .unlessTag

namespace Span

variable {span : Span} {token : MarkupToken}

/-- A malformed tag has no kind. -/
def kind? (span : Span) : Option MarkupKind :=
  span.content.toOption.map (·.kind)

theorem kind?_of_ok (h : span.content = .ok token) : span.kind? = some token.kind := by
  rw [kind?, h]
  rfl

theorem kind?_of_error (h : span.content = .error fault) : span.kind? = none := by
  rw [kind?, h]
  rfl

end Span

namespace TagKinds

/-- The block opened at `i` has got an `else`: there is one before `n` in which it is the innermost
open block. -/
def SeenElse (ks : TagKinds) (i n : Nat) : Prop :=
  ∃ m < n, ks.at? m = some .elseTag ∧ ks.innermost? m = some i

instance (ks : TagKinds) (i n : Nat) : Decidable (ks.SeenElse i n) :=
  inferInstanceAs (Decidable (∃ m < n, _ ∧ _))

/-- The innermost block that is open before a tag: its kind, and whether it has got an `else`. -/
def around? (ks : TagKinds) (n : Nat) : Option (MarkupKind × Bool) :=
  (ks.innermost? n).bind fun i => (ks.at? i).map fun kind => (kind, decide (ks.SeenElse i n))

/-- What is wrong with the place of a tag, judged by the innermost block around it. -/
def misplaced : MarkupKind → Option (MarkupKind × Bool) → List Finding
  | .elsifTag, some (.ifTag, seenElse) => if seenElse then [.elsifAfterElse] else []
  | .elsifTag, _ => [.elsifOutside]
  | .elseTag, some (.ifTag, seenElse) => if seenElse then [.secondElse .ifTag] else []
  | .elseTag, some (.unlessTag, seenElse) => if seenElse then [.secondElse .unlessTag] else []
  | .elseTag, _ => [.elseOutside]
  | .endTag, none => [.endOutside]
  | _, _ => []

def placeFindings (ks : TagKinds) (n : Nat) : List Finding :=
  (ks.at? n).toList.flatMap fun kind => misplaced kind (ks.around? n)

/-- A block that no tag closes is never closed. -/
def endFindings (ks : TagKinds) (i : Nat) : List Finding :=
  if ks.IsOpen i ks.length then (ks.at? i).toList.map .missingEnd else []

end TagKinds

namespace Validation

def kinds (spans : List Span) : TagKinds :=
  spans.map Span.kind?

@[simp] theorem length_kinds (spans : List Span) : (kinds spans).length = spans.length :=
  List.length_map _

/-- What is found at each place, as remarks upon the tags there. -/
def remarksAt (spans : List Span) (found : Nat → List Finding) : List Remark :=
  spans.zipIdx.flatMap fun (span, n) => (found n).map (⟨span, ·⟩)

def Remark.isBlockIssue (r : Remark) : Bool :=
  r.finding.code.isBlockIssue

/-- An open block stands for the tag at `i` that opened it. An `else` in a loop is out of place, and
not kept. -/
structure OpenTag.StandsFor (spans : List Span) (n : Nat) (i : Nat) (tag : OpenTag) : Prop where
  opener : spans[i]? = some tag.opener
  kind : tag.opener.kind? = some tag.kind
  seenElse : tag.kind.TakesElse → (tag.seenElse = true ↔ (kinds spans).SeenElse i n)

/-- The open blocks are those that are open before `n`, in the same order. -/
def Tracked (spans : List Span) (n : Nat) (tags : List OpenTag) : Prop :=
  List.Forall₂ (OpenTag.StandsFor spans n) ((kinds spans).opened n) tags

variable {spans : List Span} {tags : List OpenTag}

@[simp] theorem at?_kinds (spans : List Span) (n : Nat) :
    (kinds spans).at? n = spans[n]?.bind Span.kind? := by
  rw [TagKinds.at?, kinds, List.getElem?_map]
  cases spans[n]? <;> rfl

/-- A tag is judged by the innermost of the open blocks. -/
theorem place_fst (tags : List OpenTag) (span : Span) (k : MarkupKind) :
    (place tags span k).1 =
      TagKinds.misplaced k (tags.head?.map fun tag => (tag.kind, tag.seenElse)) := by
  cases tags with
  | nil => cases k <;> rfl
  | cons tag tags =>
    obtain ⟨kind, opener, seenElse⟩ := tag
    cases k with
    | elsifTag | elseTag => cases kind <;> cases seenElse <;> rfl
    | _ => rfl

theorem place_snd_of_opens (h : k.Opens) (tags : List OpenTag) (span : Span) :
    (place tags span k).2 = ⟨k, span, false⟩ :: tags := by
  rcases h with rfl | rfl | rfl <;> rfl

theorem place_snd_of_end (tags : List OpenTag) (span : Span) :
    (place tags span .endTag).2 = tags.tail := by
  cases tags <;> rfl

theorem place_snd_of_other (hopens : ¬k.Opens) (hend : k ≠ .endTag) (helse : k ≠ .elseTag)
    (tags : List OpenTag) (span : Span) : (place tags span k).2 = tags := by
  cases k with
  | ifTag | unlessTag | forTag => exact absurd (by simp [MarkupKind.Opens]) hopens
  | endTag => exact absurd rfl hend
  | elseTag => exact absurd rfl helse
  | elsifTag =>
    cases tags with
    | nil => rfl
    | cons tag tags =>
      simp only [place]
      split <;> rfl
  | _ => rfl

/-- An `else` is noted at the innermost block, if that takes one. -/
theorem place_snd_of_else (h : tag.kind.TakesElse) (tags : List OpenTag) (span : Span) :
    (place (tag :: tags) span .elseTag).2 = { tag with seenElse := true } :: tags := by
  obtain ⟨kind, opener, seenElse⟩ := tag
  rcases h with rfl | rfl <;> cases seenElse <;> rfl

theorem place_snd_of_else_outside (h : ¬tag.kind.TakesElse) (tags : List OpenTag) (span : Span) :
    (place (tag :: tags) span .elseTag).2 = tag :: tags :=
  congrArg Prod.snd (if_neg h)

theorem isBlockIssue_of_misplaced (h : f ∈ TagKinds.misplaced k around) :
    f.code.isBlockIssue = true := by
  unfold TagKinds.misplaced at h
  split at h
  all_goals try split at h
  all_goals simp_all [Finding.code, IssueCode.isBlockIssue]

/-- Whether there is an `else` in a block that takes none, no tag is judged by. -/
theorem misplaced_of_not_takesElse (h : ¬kind.TakesElse) (k : MarkupKind)
    (seenElse seenElse' : Bool) :
    TagKinds.misplaced k (some (kind, seenElse)) =
      TagKinds.misplaced k (some (kind, seenElse')) := by
  cases kind with
  | ifTag | unlessTag => exact absurd (by simp [MarkupKind.TakesElse]) h
  | _ => cases k <;> rfl

namespace OpenTag.StandsFor

theorem at? (h : StandsFor spans n i tag) : (kinds spans).at? i = some tag.kind := by
  rw [at?_kinds, h.opener]
  exact h.kind

/-- A tag that is no `else` in a block leaves what is kept of the block as it is. -/
theorem succ (h : StandsFor spans n i tag)
    (hn : (kinds spans).at? n = some .elseTag → (kinds spans).innermost? n ≠ some i) :
    StandsFor spans (n + 1) i tag := by
  refine ⟨h.opener, h.kind, ?_⟩
  intro htakes
  rw [h.seenElse htakes, TagKinds.SeenElse, TagKinds.SeenElse, Nat.exists_lt_succ_right]
  exact (or_iff_left fun helse => hn helse.1 helse.2).symm

end OpenTag.StandsFor

namespace Tracked

/-- The innermost open block is what a tag is to be judged by. -/
theorem misplaced_eq (h : Tracked spans n tags) (k : MarkupKind) :
    TagKinds.misplaced k (tags.head?.map fun tag => (tag.kind, tag.seenElse)) =
      TagKinds.misplaced k ((kinds spans).around? n) := by
  rw [Tracked] at h
  rw [TagKinds.around?, TagKinds.innermost?]
  generalize (kinds spans).opened n = is at h ⊢
  cases h with
  | nil => rfl
  | @cons i tag is tags htag _ =>
    simp only [List.head?_cons, Option.bind_some, Option.map_some, htag.at?]
    by_cases htakes : tag.kind.TakesElse
    · congr 3
      rw [Bool.eq_iff_iff, decide_eq_true_iff]
      exact htag.seenElse htakes
    · exact misplaced_of_not_takesElse htakes k _ _

/-- What is said of the place of a tag is what follows from the blocks open before it. -/
theorem found_eq (h : Tracked spans n tags) (hspan : spans[n]? = some span) :
    (visit tags span).1.filter (·.code.isBlockIssue) = (kinds spans).placeFindings n := by
  cases hs : span.content with
  | error fault =>
    have hvisit : (visit tags span).1 = [.malformed fault] := by simp [visit, hs]
    rw [hvisit]
    simp [TagKinds.placeFindings, hspan, Span.kind?_of_error hs, Finding.code,
      IssueCode.isBlockIssue]
  | ok token =>
    have hvisit : (visit tags span).1 = textFindings token ++ (place tags span token.kind).1 := by
      simp [visit, hs]
    have htext : (textFindings token).filter (·.code.isBlockIssue) = [] := by
      rw [List.filter_eq_nil_iff]
      intro f hf
      rw [code_textFindings hf]
      decide
    have hplace : (place tags span token.kind).1.filter (·.code.isBlockIssue) =
        (place tags span token.kind).1 := by
      rw [List.filter_eq_self]
      intro f hf
      rw [place_fst] at hf
      exact isBlockIssue_of_misplaced hf
    rw [hvisit, List.filter_append, htext, hplace, place_fst, h.misplaced_eq]
    simp [TagKinds.placeFindings, hspan, Span.kind?_of_ok hs]

/-- What is kept of the open blocks stays right at a tag that is no `else`. -/
theorem kept (h : Tracked spans n tags) (helse : (kinds spans).at? n ≠ some .elseTag) :
    List.Forall₂ (OpenTag.StandsFor spans (n + 1)) ((kinds spans).opened n) tags :=
  h.imp fun _ _ htag => htag.succ fun hk => absurd hk helse

theorem of_other (h : Tracked spans n tags) (hopens : ¬(kinds spans).OpensAt n)
    (hend : (kinds spans).at? n ≠ some .endTag) (helse : (kinds spans).at? n ≠ some .elseTag) :
    Tracked spans (n + 1) tags := by
  rw [Tracked, TagKinds.opened_succ_of_other hopens hend]
  exact h.kept helse

theorem of_opens (h : Tracked spans n tags) (hspan : spans[n]? = some span)
    (hk : span.kind? = some k) (hopens : k.Opens) :
    Tracked spans (n + 1) (⟨k, span, false⟩ :: tags) := by
  have hkind : (kinds spans).at? n = some k := by simp [hspan, hk]
  have hopensAt : (kinds spans).OpensAt n := ⟨k, hkind, hopens⟩
  have helse : (kinds spans).at? n ≠ some .elseTag := hopensAt.ne_of_not_opens (by decide)
  rw [Tracked, TagKinds.opened_succ_of_opens hopensAt]
  refine .cons ⟨hspan, hk, fun _ => iff_of_false (by simp) ?_⟩ (h.kept helse)
  -- a block is not yet open at the tags before it
  intro hseen
  obtain ⟨m, hm, _, hin⟩ := hseen
  have hopen := TagKinds.isOpen_of_innermost hin
  exact absurd hopen.2.1 (by omega)

theorem of_end (h : Tracked spans n tags) (hend : (kinds spans).at? n = some .endTag) :
    Tracked spans (n + 1) tags.tail := by
  rw [Tracked, TagKinds.opened_succ_of_end hend, ← List.drop_one, ← List.drop_one]
  exact List.forall₂_drop 1 (h.kept (by simp [hend]))

theorem of_else (h : Tracked spans n tags) (span : Span)
    (helse : (kinds spans).at? n = some .elseTag) :
    Tracked spans (n + 1) (place tags span .elseTag).2 := by
  have hsame : (kinds spans).opened (n + 1) = (kinds spans).opened n :=
    TagKinds.opened_succ_of_other (fun hopens => hopens.ne_of_not_opens (by decide) helse)
      (by simp [helse])
  have hnodup := (kinds spans).nodup_opened n
  have hinner : (kinds spans).innermost? n =
      ((kinds spans).opened n).head? := rfl
  rw [Tracked] at h
  rw [Tracked, hsame]
  generalize (kinds spans).opened n = is at h hnodup hinner ⊢
  cases h with
  | nil => exact .nil
  | @cons i tag is tags htag hrest =>
    have hothers : List.Forall₂ (OpenTag.StandsFor spans (n + 1)) is tags := by
      have hne := (List.nodup_cons.mp hnodup).1
      refine ((List.forall₂_and_left is tags).mpr ⟨fun i' hi' => ?_, hrest⟩).imp
        fun i' tag' htag' => htag'.2.succ fun _ => htag'.1
      rw [hinner]
      intro hi
      obtain rfl := Option.some.inj hi
      exact hne hi'
    by_cases htakes : tag.kind.TakesElse
    · rw [place_snd_of_else htakes]
      refine .cons ⟨htag.opener, htag.kind, fun _ => iff_of_true rfl ?_⟩ hothers
      exact ⟨n, Nat.lt_succ_self n, helse, hinner⟩
    · rw [place_snd_of_else_outside htakes]
      exact .cons ⟨htag.opener, htag.kind, fun h => absurd h htakes⟩ hothers

/-- One tag after another, the open blocks are those that matching leaves open. -/
theorem visit_snd (h : Tracked spans n tags) (hspan : spans[n]? = some span) :
    Tracked spans (n + 1) (visit tags span).2 := by
  have hkind : (kinds spans).at? n = span.kind? := by simp [hspan]
  cases hs : span.content with
  | error fault =>
    have hnone := hkind.trans (Span.kind?_of_error hs)
    have hvisit : (visit tags span).2 = tags := by simp [visit, hs]
    rw [hvisit]
    exact h.of_other (by simp [TagKinds.OpensAt, hnone]) (by simp [hnone]) (by simp [hnone])
  | ok token =>
    have hsome := hkind.trans (Span.kind?_of_ok hs)
    have hvisit : (visit tags span).2 = (place tags span token.kind).2 := by simp [visit, hs]
    rw [hvisit]
    by_cases hopens : token.kind.Opens
    · rw [place_snd_of_opens hopens]
      exact h.of_opens hspan (Span.kind?_of_ok hs) hopens
    · by_cases hend : token.kind = .endTag
      · rw [hend] at hsome ⊢
        rw [place_snd_of_end]
        exact h.of_end hsome
      · by_cases helse : token.kind = .elseTag
        · rw [helse] at hsome ⊢
          exact h.of_else span hsome
        · rw [place_snd_of_other hopens hend helse]
          exact h.of_other (by simpa [TagKinds.OpensAt, hsome] using hopens)
            (by simpa [hsome] using hend) (by simpa [hsome] using helse)

end Tracked

theorem remarksAt_eq_range (spans : List Span) (found : Nat → List Finding) :
    remarksAt spans found = (List.range spans.length).flatMap fun n =>
      spans[n]?.toList.flatMap fun span => (found n).map (⟨span, ·⟩) := by
  rw [List.range_eq_range', ← List.zipIdx_map_snd 0 spans, List.flatMap_map]
  apply List.flatMap_congr
  intro (span, n) hn
  simp [List.mk_mem_zipIdx_iff_getElem?.mp hn]

/-- What is said at last of the tag at `i`. -/
def endRemarks (spans : List Span) (i : Nat) : List Remark :=
  spans[i]?.toList.flatMap fun span => ((kinds spans).endFindings i).map (⟨span, ·⟩)

theorem OpenTag.StandsFor.endRemarks_eq (h : StandsFor spans spans.length i tag)
    (hi : (kinds spans).IsOpen i spans.length) :
    endRemarks spans i = [⟨tag.opener, .missingEnd tag.kind⟩] := by
  rw [endRemarks, TagKinds.endFindings, length_kinds, if_pos hi, h.at?, h.opener]
  rfl

theorem endRemarks_of_not_isOpen (hi : ¬(kinds spans).IsOpen i spans.length) :
    endRemarks spans i = [] := by
  rw [endRemarks, TagKinds.endFindings, length_kinds, if_neg hi]
  simp

theorem flatMap_endRemarks (h : ∀ i ∈ is, (kinds spans).IsOpen i spans.length)
    (hopen : List.Forall₂ (OpenTag.StandsFor spans spans.length) is tags) :
    is.flatMap (endRemarks spans) =
      tags.map fun tag => ⟨tag.opener, .missingEnd tag.kind⟩ := by
  induction hopen with
  | nil => rfl
  | cons htag _ ih =>
    obtain ⟨hi, his⟩ := List.forall_mem_cons.mp h
    rw [List.flatMap_cons, htag.endRemarks_eq hi, ih his]
    rfl

theorem flatMap_filter_of_nil {l : List α} {p : α → Bool} {f : α → List β}
    (h : ∀ a ∈ l, ¬p a → f a = []) : (l.filter p).flatMap f = l.flatMap f := by
  induction l with
  | nil => rfl
  | cons a l ih =>
    obtain ⟨ha, hl⟩ := List.forall_mem_cons.mp h
    by_cases hp : p a
    · rw [List.filter_cons_of_pos hp, List.flatMap_cons, List.flatMap_cons, ih hl]
    · rw [List.filter_cons_of_neg hp, List.flatMap_cons, ha hp, ih hl, List.nil_append]

/-- The blocks that are open at last are those that no tag closes. -/
theorem Tracked.missingEnds (h : Tracked spans spans.length tags) :
    tags.reverse.map (fun tag => (⟨tag.opener, .missingEnd tag.kind⟩ : Remark)) =
      remarksAt spans (kinds spans).endFindings := by
  let still := (List.range spans.length).filter fun i => (kinds spans).IsOpen i spans.length
  have hopen : List.Forall₂ (OpenTag.StandsFor spans spans.length) still tags.reverse := by
    rw [← List.forall₂_reverse_iff, List.reverse_reverse]
    exact h
  calc tags.reverse.map (fun tag => (⟨tag.opener, .missingEnd tag.kind⟩ : Remark))
    _ = still.flatMap (endRemarks spans) := by
      refine (flatMap_endRemarks (fun i hi => ?_) hopen).symm
      exact of_decide_eq_true (List.mem_filter.mp hi).2
    _ = (List.range spans.length).flatMap (endRemarks spans) :=
      flatMap_filter_of_nil fun i _ hi => endRemarks_of_not_isOpen (by simpa using hi)
    _ = remarksAt spans (kinds spans).endFindings := (remarksAt_eq_range _ _).symm

/-- What is said of the places of the tags that are left, and of blocks that stay open. -/
theorem Tracked.blockRemarks_filter {before : List Span}
    (h : Tracked (before ++ spans) before.length tags) :
    (blockRemarks tags spans).filter Remark.isBlockIssue =
      ((spans.zipIdx before.length).flatMap fun (span, n) =>
        ((kinds (before ++ spans)).placeFindings n).map (⟨span, ·⟩)) ++
      remarksAt (before ++ spans) (kinds (before ++ spans)).endFindings := by
  induction spans generalizing before tags with
  | nil =>
    rw [List.append_nil] at h ⊢
    rw [List.zipIdx_nil, List.flatMap_nil, List.nil_append, ← h.missingEnds, blockRemarks,
      List.filter_eq_self]
    intro r hr
    obtain ⟨tag, _, rfl⟩ := List.mem_map.mp hr
    rfl
  | cons span spans ih =>
    have hspan : (before ++ span :: spans)[before.length]? = some span := by simp
    have hnext : before ++ span :: spans = (before ++ [span]) ++ spans := by simp
    have hfound := h.found_eq hspan
    have hafter := h.visit_snd hspan
    rw [hnext] at hfound hafter ⊢
    have hlength : before.length + 1 = (before ++ [span]).length := by simp
    rw [hlength] at hafter
    have hremarks : ((visit tags span).1.map ((⟨span, ·⟩) : Finding → Remark)).filter
        Remark.isBlockIssue =
        ((kinds (before ++ [span] ++ spans)).placeFindings before.length).map (⟨span, ·⟩) := by
      rw [List.filter_map, ← hfound]
      rfl
    rw [blockRemarks, List.filter_append, hremarks, ih hafter, ← hlength, List.zipIdx_cons,
      List.flatMap_cons]
    exact (List.append_assoc _ _ _).symm

end Validation

end FormLetter
