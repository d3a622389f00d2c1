import FormLetter.Proofs.Document.Parts
import FormLetter.Proofs.Validation.Keys

namespace FormLetter.Document

namespace PartGroup

variable {group : PartGroup}

/-- The name is that of a part of a group, with digits for a number. -/
def Named (group : PartGroup) (name : String) (n : ℕ) : Prop :=
  ∃ digits, name.toList = group.stem ++ digits ++ partEnding ∧
    digits.all Decimal.isDigit = true ∧ Decimal.toNat digits = n

theorem named_iff : group.Named name n ↔ (group.digits? name).map Decimal.toNat = some n := by
  rw [Option.map_eq_some_iff]
  constructor
  · rintro ⟨digits, hname, hdigits, hn⟩
    exact ⟨digits, digits?_eq_some.mpr ⟨hname, hdigits⟩, hn⟩
  · rintro ⟨digits, hd, hn⟩
    obtain ⟨hname, hdigits⟩ := digits?_eq_some.mp hd
    exact ⟨digits, hname, hdigits, hn⟩

theorem Named.unique (h : group.Named name m) (h' : group.Named name n) : m = n :=
  Option.some.inj ((named_iff.mp h).symm.trans (named_iff.mp h'))

theorem number?_eq_some : group.number? name = some n ↔ group.Named name n ∧ n < 2 ^ 32 := by
  rw [number?, Option.filter_eq_some_iff, decide_eq_true_eq, named_iff]
  rfl

/-- The parts of a group among some names: those with a number of 32 bits, once each, by number and
then by name. -/
structure Lists (group : PartGroup) (names listed : List String) : Prop where
  mem_iff : ∀ name, name ∈ listed ↔ name ∈ names ∧ ∃ n < 2 ^ 32, group.Named name n
  nodup : listed.Nodup
  ordered : listed.Pairwise fun a b => ∀ m n, group.Named a m → group.Named b n →
    m < n ∨ m = n ∧ a < b

theorem partBefore_iff {a b : ℕ × String} : partBefore a b = true ↔ toLex a ≤ toLex b := by
  simp [partBefore, Prod.Lex.toLex_le_toLex]

/-- The names of a group with their numbers. -/
def numbered (group : PartGroup) (names : List String) : List (ℕ × String) :=
  names.filterMap fun name => (group.number? name).map (·, name)

theorem mem_numbered : (n, name) ∈ group.numbered names ↔
    name ∈ names ∧ group.number? name = some n := by
  simp only [numbered, List.mem_filterMap, Option.map_eq_some_iff, Prod.mk.injEq]
  constructor
  · rintro ⟨other, hm, k, hk, rfl, rfl⟩
    exact ⟨hm, hk⟩
  · rintro ⟨hm, hn⟩
    exact ⟨name, hm, n, hn, rfl, rfl⟩

theorem pairwise_sorted (pairs : List (ℕ × String)) :
    (pairs.mergeSort partBefore).Pairwise fun a b => toLex a ≤ toLex b :=
  Validation.pairwise_mergeSort_of_key toLex (fun _ _ => partBefore_iff) pairs

theorem parts_eq (group : PartGroup) (names : List String) :
    group.parts names = ((group.numbered names).mergeSort partBefore).map Prod.snd := rfl

theorem nodup_parts (h : names.Nodup) : (group.parts names).Nodup :=
  (group.parts_perm names).nodup_iff.mpr (h.filter _)

theorem lists_parts (h : names.Nodup) : group.Lists names (group.parts names) where
  mem_iff name := by
    rw [(group.parts_perm names).mem_iff, List.mem_filter, Option.isSome_iff_exists]
    refine and_congr_right fun _ => exists_congr fun n => ?_
    rw [number?_eq_some, and_comm]
  nodup := nodup_parts h
  ordered := by
    have hnodup : (group.parts names).Nodup := nodup_parts h
    rw [parts_eq] at hnodup ⊢
    rw [List.pairwise_map]
    refine ((pairwise_sorted _).and (List.pairwise_map.mp hnodup)).imp_of_mem ?_
    rintro ⟨k, a⟩ ⟨l, b⟩ ha hb ⟨hle, hne⟩ m n hm hn
    have hk := (mem_numbered.mp ((List.mergeSort_perm _ _).mem_iff.mp ha)).2
    have hl := (mem_numbered.mp ((List.mergeSort_perm _ _).mem_iff.mp hb)).2
    obtain rfl := hm.unique (number?_eq_some.mp hk).1
    obtain rfl := hn.unique (number?_eq_some.mp hl).1
    exact (Prod.Lex.toLex_le_toLex.mp hle).imp_right fun hab => ⟨hab.1, lt_of_le_of_ne hab.2 hne⟩

theorem parts_of_perm (group : PartGroup) (h : names.Perm others) :
    group.parts names = group.parts others := by
  have hperm : ((group.numbered names).mergeSort partBefore).Perm
      ((group.numbered others).mergeSort partBefore) :=
    ((List.mergeSort_perm _ _).trans (h.filterMap _)).trans (List.mergeSort_perm _ _).symm
  rw [parts_eq, parts_eq, hperm.eq_of_pairwise (fun a b _ _ hab hba => toLex.injective
    (le_antisymm hab hba)) (pairwise_sorted _) (pairwise_sorted _)]

end PartGroup

/-- The main part comes first if there is one, then the headers and then the footers. None comes
twice, and in whatever order the names are given, the parts come in one order. -/
theorem templateParts_spec (h : names.Nodup) :
    (∃ headers footers,
      PartGroup.header.Lists names headers ∧ PartGroup.footer.Lists names footers ∧
      templateParts names = (if mainPart ∈ names then [mainPart] else []) ++ headers ++ footers) ∧
    (templateParts names).Nodup ∧
    ∀ others : List String, names.Perm others → templateParts others = templateParts names := by
  refine ⟨⟨_, _, PartGroup.lists_parts h, PartGroup.lists_parts h, ?_⟩, nodup_templateParts h, ?_⟩
  · simp [templateParts]
  · intro others hp
    have hmain : others.contains mainPart = names.contains mainPart := by
      rw [Bool.eq_iff_iff, List.contains_iff_mem, List.contains_iff_mem, hp.mem_iff]
    rw [templateParts, templateParts, hmain, PartGroup.parts_of_perm _ hp,
      PartGroup.parts_of_perm _ hp]

/-- Two headers and a footer without digits, of a document whose main part comes last. -/
theorem templateParts_spec_of_headers :
    let names := ["word/header10.xml", "word/footer.xml", "word/header2.xml", mainPart]
    (names.Nodup ∧ names.Perm names.reverse ∧ PartGroup.header.Named "word/header2.xml" 2 ∧
      PartGroup.header.Named "word/header10.xml" 10 ∧ PartGroup.footer.Named "word/footer.xml" 0) ∧
    (∃ headers footers, "word/header2.xml" ∈ headers ∧ "word/header10.xml" ∈ headers ∧
      "word/footer.xml" ∈ footers ∧ templateParts names = [mainPart] ++ headers ++ footers) ∧
    templateParts names.reverse = templateParts names := by
  intro names
  have hnodup : names.Nodup := by decide +kernel
  have hperm : names.Perm names.reverse := (List.reverse_perm names).symm
  have htwo : PartGroup.header.Named "word/header2.xml" 2 := ⟨['2'], rfl, rfl, rfl⟩
  have hten : PartGroup.header.Named "word/header10.xml" 10 := ⟨['1', '0'], rfl, rfl, rfl⟩
  have hfooter : PartGroup.footer.Named "word/footer.xml" 0 := ⟨[], rfl, rfl, rfl⟩
  have hmain : mainPart ∈ names := by simp [names]
  obtain ⟨⟨headers, footers, hh, hf, hparts⟩, -, horder⟩ := templateParts_spec hnodup
  rw [if_pos hmain] at hparts
  refine ⟨⟨hnodup, hperm, htwo, hten, hfooter⟩, ⟨headers, footers, ?_, ?_, ?_, hparts⟩,
    horder names.reverse hperm⟩
  · exact (hh.mem_iff _).mpr ⟨by simp [names], 2, by decide, htwo⟩
  · exact (hh.mem_iff _).mpr ⟨by simp [names], 10, by decide, hten⟩
  · exact (hf.mem_iff _).mpr ⟨by simp [names], 0, by decide, hfooter⟩

/-- A header is not read if its number takes more than 32 bits. -/
theorem templateParts_omits_large_number : ¬∀ names : List String, names.Nodup →
    ∀ (group : PartGroup) (n : ℕ), ∀ name ∈ names, group.Named name n →
      name ∈ templateParts names := by
  intro h
  have hnamed : PartGroup.header.Named "word/header4294967296.xml" 4294967296 :=
    ⟨"4294967296".toList, rfl, by decide +kernel, by decide +kernel⟩
  have hmem := h [mainPart, "word/header4294967296.xml"] (by decide +kernel) .header 4294967296
    "word/header4294967296.xml" (by simp) hnamed
  revert hmem
  decide +kernel

end FormLetter.Document
