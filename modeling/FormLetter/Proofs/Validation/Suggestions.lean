import FormLetter.Proofs.Text.Edits
import FormLetter.Proofs.Validation.Keys
import FormLetter.Validation.Suggestion

namespace FormLetter.Validation

section Repeats

theorem eraseRepsBy_loop (r : α → α → Bool) (a : α) (as acc : List α) :
    List.eraseRepsBy.loop r a as acc = acc.reverse ++ List.eraseRepsBy.loop r a as [] := by
  induction as generalizing a acc with
  | nil => simp [List.eraseRepsBy.loop]
  | cons b as ih =>
    simp only [List.eraseRepsBy.loop]
    split
    · exact ih a acc
    · rw [ih b (a :: acc), ih b [a]]
      simp

variable [BEq α] [LawfulBEq α]

theorem eraseReps_cons_self (a : α) (as : List α) :
    (a :: a :: as).eraseReps = (a :: as).eraseReps := by
  simp [List.eraseReps, List.eraseRepsBy, List.eraseRepsBy.loop]

theorem eraseReps_cons_of_ne {a b : α} (h : a ≠ b) (as : List α) :
    (a :: b :: as).eraseReps = a :: (b :: as).eraseReps := by
  have hloop := eraseRepsBy_loop (· == ·) b as [a]
  simpa [List.eraseReps, List.eraseRepsBy, List.eraseRepsBy.loop, beq_false_of_ne h] using hloop

theorem mem_eraseReps {as : List α} : a ∈ as.eraseReps ↔ a ∈ as := by
  induction as with
  | nil => exact Iff.rfl
  | cons b as ih =>
    cases as with
    | nil => exact Iff.rfl
    | cons c as =>
      by_cases h : b = c
      · subst h
        rw [eraseReps_cons_self, ih]
        simp
      · rw [eraseReps_cons_of_ne h, List.mem_cons, List.mem_cons, ih]

/-- Equal elements of a list in order stand together, so that none is left twice. -/
theorem pairwise_eraseReps [LinearOrder κ] {key : α → κ} (hkey : Function.Injective key)
    {as : List α} (h : as.Pairwise fun a b => key a ≤ key b) :
    as.eraseReps.Pairwise fun a b => key a < key b := by
  induction as with
  | nil => exact .nil
  | cons b as ih =>
    cases as with
    | nil => exact List.pairwise_singleton _ b
    | cons c as =>
      obtain ⟨hb, hrest⟩ := List.pairwise_cons.mp h
      by_cases hbc : b = c
      · subst hbc
        rw [eraseReps_cons_self]
        exact ih hrest
      · rw [eraseReps_cons_of_ne hbc]
        refine List.pairwise_cons.mpr ⟨?_, ih hrest⟩
        intro a ha
        have hlt : key b < key c :=
          lt_of_le_of_ne (hb c List.mem_cons_self) fun he => hbc (hkey he)
        rcases List.mem_cons.mp (mem_eraseReps.mp ha) with rfl | ha
        · exact hlt
        · exact hlt.trans_le ((List.pairwise_cons.mp hrest).1 a ha)

end Repeats

/-- The least number of edits that make one of two names of the other, both in small letters. -/
def Apart (name candidate : String) (n : ℕ) : Prop :=
  IsLeast {k | Text.Edits k (Text.lower name.toList) (Text.lower candidate.toList)} n

theorem apart_iff : Apart name candidate n ↔ nameDistance name candidate = n := by
  have hleast : Apart name candidate (nameDistance name candidate) :=
    Text.isLeast_editDistance _ _
  constructor
  · exact hleast.unique
  · rintro rfl
    exact hleast

/-- The candidates that may be meant by a name, once each: those with another text that are at most
three edits away, the nearest first, and those equally near by their texts. -/
structure Ranks (name : String) (candidates ranked : List String) : Prop where
  mem_iff : ∀ c, c ∈ ranked ↔ c ∈ candidates ∧ c ≠ name ∧ ∃ n ≤ 3, Apart name c n
  nodup : ranked.Nodup
  ordered : ranked.Pairwise fun a b => ∀ m n, Apart name a m → Apart name b n →
    m < n ∨ m = n ∧ a < b

theorem nearer_iff {a b : ℕ × String} : nearer a b = true ↔ toLex a ≤ toLex b := by
  simp [nearer, Prod.Lex.toLex_le_toLex]

/-- The candidates that are near enough, with their distances, in order. -/
def ranking (name : String) (candidates : List String) : List (ℕ × String) :=
  let scored := (candidates.filter (· ≠ name)).map fun c => (nameDistance name c, c)
  ((scored.filter (·.1 ≤ maxDistance)).mergeSort nearer).eraseReps

theorem suggestions_eq (name : String) (candidates : List String) :
    suggestions name candidates = ((ranking name candidates).map Prod.snd).take 3 := by
  rw [← List.map_take]
  rfl

theorem mem_ranking : (n, c) ∈ ranking name candidates ↔
    c ∈ candidates ∧ c ≠ name ∧ n ≤ 3 ∧ Apart name c n := by
  rw [ranking, mem_eraseReps, List.mem_mergeSort, List.mem_filter, List.mem_map]
  constructor
  · rintro ⟨⟨d, hd, he⟩, hn⟩
    obtain ⟨rfl, rfl⟩ := Prod.mk.inj he
    obtain ⟨hd, hne⟩ := List.mem_filter.mp hd
    exact ⟨hd, of_decide_eq_true hne, of_decide_eq_true hn, apart_iff.mpr rfl⟩
  · rintro ⟨hc, hne, hn, hapart⟩
    obtain rfl := apart_iff.mp hapart
    exact ⟨⟨c, List.mem_filter.mpr ⟨hc, decide_eq_true hne⟩, rfl⟩, decide_eq_true hn⟩

theorem pairwise_ranking (name : String) (candidates : List String) :
    (ranking name candidates).Pairwise fun a b => toLex a < toLex b :=
  pairwise_eraseReps toLex.injective
    (pairwise_mergeSort_of_key toLex (fun _ _ => nearer_iff) _)

theorem ranks_ranking (name : String) (candidates : List String) :
    Ranks name candidates ((ranking name candidates).map Prod.snd) where
  mem_iff c := by
    rw [List.mem_map]
    constructor
    · rintro ⟨⟨n, d⟩, hm, rfl⟩
      obtain ⟨hd, hne, hn, hapart⟩ := mem_ranking.mp hm
      exact ⟨hd, hne, n, hn, hapart⟩
    · rintro ⟨hc, hne, n, hn, hapart⟩
      exact ⟨(n, c), mem_ranking.mpr ⟨hc, hne, hn, hapart⟩, rfl⟩
  nodup := by
    refine List.pairwise_map.mpr ((pairwise_ranking name candidates).imp_of_mem ?_)
    rintro ⟨m, a⟩ ⟨n, b⟩ ha hb hlt rfl
    obtain rfl : m = n := (mem_ranking.mp ha).2.2.2.unique (mem_ranking.mp hb).2.2.2
    exact lt_irrefl _ hlt
  ordered := by
    refine List.pairwise_map.mpr ((pairwise_ranking name candidates).imp_of_mem ?_)
    rintro ⟨k, a⟩ ⟨l, b⟩ ha hb hlt m n hm hn
    obtain rfl : k = m := (mem_ranking.mp ha).2.2.2.unique hm
    obtain rfl : l = n := (mem_ranking.mp hb).2.2.2.unique hn
    exact Prod.Lex.toLex_lt_toLex.mp hlt

/-- The ranking hangs on what the candidates are, and not on how they are listed. -/
theorem ranking_congr (h : ∀ c, c ∈ others ↔ c ∈ candidates) :
    ranking name others = ranking name candidates := by
  have hnodup (candidates : List String) : (ranking name candidates).Nodup :=
    (pairwise_ranking name candidates).imp fun hlt he => (he ▸ hlt).false
  have hperm : (ranking name others).Perm (ranking name candidates) := by
    refine (List.perm_ext_iff_of_nodup (hnodup others) (hnodup candidates)).mpr ?_
    rintro ⟨n, c⟩
    rw [mem_ranking, mem_ranking, h]
  refine hperm.eq_of_pairwise (fun a b _ _ hab hba => (hab.asymm hba).elim)
    (pairwise_ranking name others) (pairwise_ranking name candidates)

/-- What is suggested is the start of the ranking. So it does not hang on the order of the
candidates or on how often they come, and none that is left out is nearer. -/
theorem suggestions_spec (name : String) (candidates : List String) :
    (∃ ranked, Ranks name candidates ranked ∧ suggestions name candidates = ranked.take 3) ∧
    (∀ others, (∀ c, c ∈ others ↔ c ∈ candidates) →
      suggestions name others = suggestions name candidates) ∧
    ∀ c ∈ suggestions name candidates, ∀ d ∈ candidates, d ≠ name →
      d ∉ suggestions name candidates → ∀ m n, Apart name c m → Apart name d n → m ≤ n := by
  have hranks : Ranks name candidates ((ranking name candidates).map Prod.snd) :=
    ranks_ranking name candidates
  refine ⟨⟨_, hranks, suggestions_eq name candidates⟩, ?_, ?_⟩
  · intro others h
    rw [suggestions_eq, suggestions_eq, ranking_congr h]
  · intro c hc d hd hne hout m n hm hn
    rw [suggestions_eq] at hc hout
    obtain ⟨-, -, k, hk, hck⟩ := (hranks.mem_iff c).mp (List.mem_of_mem_take hc)
    obtain rfl := hm.unique hck
    by_cases hfar : n ≤ 3
    · have hd := (hranks.mem_iff d).mpr ⟨hd, hne, n, hfar, hn⟩
      have hordered := hranks.ordered
      rw [← List.take_append_drop 3 ((ranking name candidates).map Prod.snd)] at hd hordered
      have hlater := (List.mem_append.mp hd).resolve_left hout
      rcases (List.pairwise_append.mp hordered).2.2 c hc d hlater m n hm hn with hlt | ⟨rfl, -⟩
      · exact hlt.le
      · exact le_rfl
    · omega

/-- A misspelt name whose right form is given twice, with a capital letter, the name itself, one
that is too far away and three that are as far as each other, of which only two are suggested. -/
theorem suggestions_spec_of_repeated :
    let candidates := ["total", "Name", "game", "nam", "names", "nme", "Name"]
    let others := ["Name", "game", "names", "nme", "nam", "total"]
    ((∀ c, c ∈ others ↔ c ∈ candidates) ∧ "nme" ≠ "nam" ∧
      "nme" ∉ suggestions "nam" candidates ∧ Apart "nam" "Name" 1 ∧ Apart "nam" "nme" 2) ∧
    suggestions "nam" candidates = ["Name", "game", "names"] ∧
    suggestions "nam" others = ["Name", "game", "names"] ∧ 1 ≤ 2 := by
  intro candidates others
  have hsame (c : String) : c ∈ others ↔ c ∈ candidates := by
    simp [candidates, others]
    tauto
  obtain ⟨-, horder, hnear⟩ := suggestions_spec "nam" candidates
  have hscored : ((others.filter (· ≠ "nam")).map fun c => (nameDistance "nam" c, c)).filter
      (·.1 ≤ maxDistance) = [(1, "Name"), (2, "game"), (2, "names"), (2, "nme")] := by
    decide +kernel
  have hothers : suggestions "nam" others = ["Name", "game", "names"] := by
    rw [suggestions_eq, ranking, hscored, List.mergeSort_of_pairwise (by decide +kernel)]
    decide +kernel
  have hfound : suggestions "nam" candidates = ["Name", "game", "names"] :=
    (horder others hsame).symm.trans hothers
  have hname : Apart "nam" "Name" 1 := apart_iff.mpr (by decide +kernel)
  have hnme : Apart "nam" "nme" 2 := apart_iff.mpr (by decide +kernel)
  have hout : "nme" ∉ suggestions "nam" candidates := by simp [hfound]
  refine ⟨⟨hsame, by decide, hout, hname, hnme⟩, hfound, hothers, ?_⟩
  exact hnear "Name" (by simp [hfound]) "nme" (by simp [candidates]) (by decide) hout 1 2 hname hnme

end FormLetter.Validation
