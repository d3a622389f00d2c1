import Mathlib.Data.List.Nodup
import FormLetter.Markup

namespace FormLetter

/-- Tags that open a block. -/
def MarkupKind.Opens (k : MarkupKind) : Prop :=
  k = .ifTag ∨ k = .unlessTag ∨ k = .forTag

instance : DecidablePred MarkupKind.Opens :=
  fun k => inferInstanceAs (Decidable (k = _ ∨ k = _ ∨ k = _))

/-- The kinds of tags in their order. A malformed tag has none. -/
abbrev TagKinds := List (Option MarkupKind)

namespace TagKinds

def at? (ks : TagKinds) (n : Nat) : Option MarkupKind :=
  ks[n]?.join

/-- How many blocks of a stretch are open after a tag, given how many are before it. There is no
answer if the tag closes a block that was opened before the stretch. -/
def level : Nat → Option MarkupKind → Option Nat
  | depth, some .ifTag | depth, some .unlessTag | depth, some .forTag => some (depth + 1)
  | 0, some .endTag => none
  | depth + 1, some .endTag => some depth
  | depth, _ => some depth

/-- How many blocks are open between a tag and a later one, out of those opened there. -/
def height (ks : TagKinds) (i n : Nat) : Option Nat :=
  ((ks.take n).drop (i + 1)).foldlM level 0

def OpensAt (ks : TagKinds) (i : Nat) : Prop :=
  ∃ k ∈ ks.at? i, k.Opens

/-- The tag at `j` closes the block opened at `i`: all blocks opened in between are closed in
between, and nothing else is. -/
def Matches (ks : TagKinds) (i j : Nat) : Prop :=
  ks.OpensAt i ∧ i < j ∧ ks.at? j = some .endTag ∧ ks.height i j = some 0

/-- A block is open before a tag if it is opened before it and not closed before it. -/
def IsOpen (ks : TagKinds) (i n : Nat) : Prop :=
  ks.OpensAt i ∧ i < n ∧ ∀ j < n, ¬ks.Matches i j

instance (ks : TagKinds) (i : Nat) : Decidable (ks.OpensAt i) :=
  inferInstanceAs (Decidable (∃ k ∈ ks.at? i, k.Opens))

instance (ks : TagKinds) (i j : Nat) : Decidable (ks.Matches i j) :=
  inferInstanceAs (Decidable (_ ∧ _ ∧ _ ∧ _))

instance (ks : TagKinds) (i n : Nat) : Decidable (ks.IsOpen i n) :=
  inferInstanceAs (Decidable (_ ∧ _ ∧ ∀ j < n, ¬ks.Matches i j))

/-- The places of the blocks that are open before a tag, the innermost first. -/
def opened (ks : TagKinds) (n : Nat) : List Nat :=
  ((List.range n).filter fun i => ks.IsOpen i n).reverse

/-- The last opened of the blocks that are open before a tag. -/
def innermost? (ks : TagKinds) (n : Nat) : Option Nat :=
  (ks.opened n).head?

variable {ks : TagKinds}

theorem at?_eq_some : ks.at? n = some k ↔ ks[n]? = some (some k) := by
  rw [at?, Option.join_eq_some_iff]

theorem lt_length_of_at? (h : ks.at? n = some k) : n < ks.length :=
  (List.getElem?_eq_some_iff.mp (at?_eq_some.mp h)).1

theorem getElem_of_at? (h : ks.at? n = some k) (hn : n < ks.length) : ks[n] = some k :=
  (List.getElem?_eq_some_iff.mp (at?_eq_some.mp h)).2

theorem OpensAt.ne_of_not_opens (h : ks.OpensAt i) (hk : ¬k.Opens) : ks.at? i ≠ some k := by
  intro hi
  obtain ⟨k', hk', hopens⟩ := h
  obtain rfl := Option.some.inj (hk'.symm.trans hi)
  exact hk hopens

theorem OpensAt.ne_endTag (h : ks.OpensAt i) : ks.at? i ≠ some .endTag :=
  h.ne_of_not_opens (by decide)

theorem mem_opened : i ∈ ks.opened n ↔ ks.IsOpen i n := by
  simp only [opened, List.mem_reverse, List.mem_filter, List.mem_range, decide_eq_true_eq]
  exact and_iff_right_of_imp fun h => h.2.1

theorem isOpen_of_innermost (h : ks.innermost? n = some i) : ks.IsOpen i n :=
  mem_opened.mp (List.mem_of_head? h)

theorem nodup_opened (ks : TagKinds) (n : Nat) : (ks.opened n).Nodup :=
  List.nodup_reverse.mpr (List.nodup_range.filter _)

theorem level_of_opens (h : k.Opens) (depth : Nat) : level depth (some k) = some (depth + 1) := by
  rcases h with rfl | rfl | rfl <;> rfl

theorem level_of_other (hopens : ∀ kind ∈ k, ¬kind.Opens) (hend : k ≠ some .endTag)
    (depth : Nat) : level depth k = some depth := by
  cases k with
  | none => rfl
  | some kind =>
    cases kind with
    | ifTag | unlessTag | forTag => exact absurd (by simp [MarkupKind.Opens]) (hopens _ rfl)
    | endTag => exact absurd rfl hend
    | _ => rfl

theorem height_self (ks : TagKinds) (i : Nat) : ks.height i (i + 1) = some 0 := by
  rw [height, List.drop_eq_nil_of_le (List.length_take_le _ _)]
  rfl

theorem height_succ (hi : i < n) (hn : ks[n]? = some k) :
    ks.height i (n + 1) = (ks.height i n).bind (level · k) := by
  have hlength : i + 1 ≤ (ks.take n).length := by
    have := (List.getElem?_eq_some_iff.mp hn).1
    rw [List.length_take]
    omega
  have hstretch : (ks.take (n + 1)).drop (i + 1) = (ks.take n).drop (i + 1) ++ [k] := by
    rw [List.take_add_one, hn, List.drop_append_of_le_length hlength]
    rfl
  rw [height, height, hstretch, List.foldlM_append]
  simp

/-- Once a stretch has closed a block opened before it there is no way back. -/
theorem height_eq_none_of_le (hm : ks.height i m = none) (him : i < m) (hmn : m ≤ n)
    (hn : n ≤ ks.length) : ks.height i n = none := by
  induction hmn with
  | refl => exact hm
  | step hmn ih =>
    rw [height_succ (Nat.lt_of_lt_of_le him hmn) (List.getElem?_eq_getElem hn),
      ih (Nat.le_of_lt hn)]
    rfl

theorem Matches.height_succ (h : ks.Matches i j) : ks.height i (j + 1) = none := by
  obtain ⟨_, hij, hend, hheight⟩ := h
  rw [TagKinds.height_succ hij (at?_eq_some.mp hend), hheight]
  rfl

/-- After a tag those blocks are open that were open before it and that it does not close, and what
it opens. -/
theorem opened_succ (ks : TagKinds) (n : Nat) :
    ks.opened (n + 1) = (if ks.OpensAt n then [n] else []) ++
      (ks.opened n).filter fun i => ¬ks.Matches i n := by
  have hlast : ks.IsOpen n (n + 1) ↔ ks.OpensAt n := by
    refine and_iff_left ⟨by omega, ?_⟩
    intro j hj hmatch
    exact absurd hmatch.2.1 (by omega)
  have hbefore : (List.range n).filter (fun i => ks.IsOpen i (n + 1)) =
      ((List.range n).filter fun i => ks.IsOpen i n).filter fun i => ¬ks.Matches i n := by
    rw [List.filter_filter]
    apply List.filter_congr
    intro i hi
    rw [← Bool.decide_and, decide_eq_decide]
    have hin := List.mem_range.mp hi
    simp only [IsOpen, Nat.forall_lt_succ_right]
    constructor
    · intro h
      exact ⟨h.2.2.2, h.1, hin, h.2.2.1⟩
    · intro h
      exact ⟨h.2.1, by omega, h.2.2.2, h.1⟩
  rw [opened, opened, List.range_succ, List.filter_append, hbefore, List.reverse_append,
    List.filter_reverse]
  congr 1
  by_cases h : ks.OpensAt n <;> simp [hlast, h]

theorem opened_succ_of_opens (h : ks.OpensAt n) : ks.opened (n + 1) = n :: ks.opened n := by
  rw [opened_succ, if_pos h, List.filter_eq_self.mpr]
  · rfl
  · intro i hi
    simpa using fun hmatch : ks.Matches i n => h.ne_endTag hmatch.2.2.1

theorem opened_succ_of_other (hopens : ¬ks.OpensAt n) (hend : ks.at? n ≠ some .endTag) :
    ks.opened (n + 1) = ks.opened n := by
  rw [opened_succ, if_neg hopens, List.filter_eq_self.mpr]
  · rfl
  · intro i hi
    simpa using fun hmatch : ks.Matches i n => hend hmatch.2.2.1

/-- The heights over the open blocks count up from the innermost. -/
def Stacked (ks : TagKinds) (n : Nat) : Prop :=
  ∀ d i, (ks.opened n)[d]? = some i → ks.height i n = some d

/-- An `end` closes the innermost block, since only over that one nothing is open. -/
theorem Stacked.opened_succ_of_end (h : ks.Stacked n) (hend : ks.at? n = some .endTag) :
    ks.opened (n + 1) = (ks.opened n).tail := by
  have hopens : ¬ks.OpensAt n := fun hopens => hopens.ne_endTag hend
  rw [opened_succ, if_neg hopens, List.nil_append]
  cases hl : ks.opened n with
  | nil => rfl
  | cons i rest =>
    have hfirst : ks.Matches i n := by
      obtain ⟨hi, hin, _⟩ := mem_opened.mp (hl ▸ List.mem_cons_self : i ∈ ks.opened n)
      exact ⟨hi, hin, hend, h 0 i (by rw [hl]; rfl)⟩
    have hrest : ∀ i' ∈ rest, ¬ks.Matches i' n := by
      intro i' hi' hmatch
      obtain ⟨d, hd⟩ := List.getElem?_of_mem hi'
      have hheight := h (d + 1) i' (by rw [hl]; exact hd)
      cases hheight.symm.trans hmatch.2.2.2
    rw [List.filter_cons_of_neg (by simpa using hfirst), List.filter_eq_self.mpr]
    · rfl
    · simpa using hrest

theorem Stacked.succ (h : ks.Stacked n) (hn : n < ks.length) : ks.Stacked (n + 1) := by
  intro d i hd
  have hkind := List.getElem?_eq_getElem hn
  have hbefore : ∀ {d i}, (ks.opened n)[d]? = some i →
      ks.height i (n + 1) = level d ks[n] := by
    intro d i hd
    have hin := (mem_opened.mp (List.mem_of_getElem? hd)).2.1
    rw [height_succ hin hkind, h d i hd]
    rfl
  by_cases hopens : ks.OpensAt n
  · rw [opened_succ_of_opens hopens] at hd
    cases d with
    | zero =>
      obtain rfl := Option.some.inj hd
      exact height_self ks n
    | succ d =>
      obtain ⟨k, hk, hk'⟩ := hopens
      rw [hbefore hd, getElem_of_at? hk, level_of_opens hk']
  · by_cases hend : ks.at? n = some .endTag
    · rw [h.opened_succ_of_end hend, List.getElem?_tail] at hd
      rw [hbefore hd, getElem_of_at? hend]
      rfl
    · rw [opened_succ_of_other hopens hend] at hd
      rw [hbefore hd, level_of_other]
      · intro k hk hk'
        exact hopens ⟨k, at?_eq_some.mpr (hkind.trans (congrArg some hk)), hk'⟩
      · intro hk
        exact hend (at?_eq_some.mpr (hkind.trans (congrArg some hk)))

theorem stacked (hn : n ≤ ks.length) : ks.Stacked n := by
  induction n with
  | zero =>
    intro d i hd
    cases hd
  | succ n ih => exact (ih (by omega)).succ hn

theorem opened_succ_of_end (hend : ks.at? n = some .endTag) :
    ks.opened (n + 1) = (ks.opened n).tail :=
  (stacked (Nat.le_of_lt (lt_length_of_at? hend))).opened_succ_of_end hend

/-- Last in, first out: an `end` closes the innermost block that is open before it. -/
theorem matches_iff_innermost :
    ks.Matches i j ↔ ks.at? j = some .endTag ∧ ks.innermost? j = some i := by
  rw [innermost?, List.head?_eq_getElem?]
  constructor
  · intro h
    have hj := Nat.le_of_lt (lt_length_of_at? h.2.2.1)
    have hopen : ks.IsOpen i j := by
      refine ⟨h.1, h.2.1, ?_⟩
      intro j' hj' h'
      have hnone := height_eq_none_of_le h'.height_succ (by have := h'.2.1; omega) hj' hj
      cases hnone.symm.trans h.2.2.2
    obtain ⟨d, hd⟩ := List.getElem?_of_mem (mem_opened.mpr hopen)
    obtain rfl := Option.some.inj ((stacked hj d i hd).symm.trans h.2.2.2)
    exact ⟨h.2.2.1, hd⟩
  · intro h
    obtain ⟨hend, hd⟩ := h
    have hj := Nat.le_of_lt (lt_length_of_at? hend)
    obtain ⟨hopens, hij, _⟩ := mem_opened.mp (List.mem_of_getElem? hd)
    exact ⟨hopens, hij, hend, stacked hj 0 i hd⟩

/-- A stray `end` closes nothing, and a later one closes the loop that is open before it. -/
example :
    let ks : TagKinds :=
      [some .endTag, some .ifTag, some .forTag, none, some .elseTag, some .endTag]
    (∀ i < 6, ¬ks.Matches i 0) ∧ ks.Matches 2 5 ∧ ks.opened 6 = [1] := by
  decide

end TagKinds

end FormLetter
