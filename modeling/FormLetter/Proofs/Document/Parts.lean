import FormLetter.Document
import FormLetter.Proofs.Document.Numbering
import FormLetter.Proofs.Outcome
import Mathlib.Data.List.Nodup
import Mathlib.Data.String.Basic

namespace FormLetter

open Outcome

namespace Dict

/-- The names of a finite map stay in order. -/
theorem pairwise_insert {entries : Dict α} (h : entries.names.Pairwise (· < ·)) (name : String)
    (value : α) : (insert name value entries).names.Pairwise (· < ·) ∧
      ∀ other ∈ (insert name value entries).names, other = name ∨ other ∈ entries.names := by
  induction entries with
  | nil => simp [insert, names]
  | cons entry rest ih =>
    obtain ⟨key, held⟩ := entry
    obtain ⟨hfirst, hrest⟩ := List.pairwise_cons.mp h
    obtain ⟨hpairwise, hnames⟩ := ih hrest
    rw [insert]
    split
    · rename_i hlt
      refine ⟨List.pairwise_cons.mpr ⟨?_, h⟩, by simp [names]⟩
      intro other ho
      rcases List.mem_cons.mp ho with rfl | ho
      · exact hlt
      · exact hlt.trans (hfirst other ho)
    · rename_i hlt
      split
      · rename_i heq
        exact ⟨by rw [heq]; exact h, by simp [names, heq]⟩
      · rename_i hne
        have hbefore : key < name := lt_of_le_of_ne (not_lt.mp hlt) (Ne.symm hne)
        refine ⟨List.pairwise_cons.mpr ⟨?_, hpairwise⟩, ?_⟩
        · intro other ho
          rcases hnames other ho with rfl | ho
          · exact hbefore
          · exact hfirst other ho
        · intro other ho
          rcases List.mem_cons.mp ho with rfl | ho
          · exact .inr List.mem_cons_self
          · exact (hnames other ho).imp_right (List.mem_cons_of_mem _)

end Dict

namespace Archive

theorem pairwise_unpack? {archive : List UInt8} {entries : List Entry}
    (h : unpack? archive entries = some files) : files.names.Pairwise (· < ·) := by
  induction entries generalizing files with
  | nil =>
    cases h
    exact .nil
  | cons e entries ih =>
    rw [unpack?] at h
    split at h
    · obtain ⟨_, _, h⟩ := Option.bind_eq_some_iff.mp h
      exact ih h
    · obtain ⟨content, _, h⟩ := Option.bind_eq_some_iff.mp h
      obtain ⟨rest, hr, h⟩ := Option.bind_eq_some_iff.mp h
      cases h
      exact (Dict.pairwise_insert (ih hr) e.name content).1

end Archive

namespace Document

theorem nodup_names_of_read {p : Package} (h : Package.read archive = .ok p) :
    p.parts.names.Nodup := by
  unfold Package.read at h
  split at h
  · cases h
  · rename_i parts hf
    split at h
    · cases h
      obtain ⟨entries, _, hu⟩ := Option.bind_eq_some_iff.mp hf
      exact (Archive.pairwise_unpack? hu).imp ne_of_lt
    · cases h

namespace PartGroup

/-- The names of a group are made of its stem, digits and an ending. -/
theorem digits?_eq_some {group : PartGroup} : group.digits? name = some digits ↔
    name.toList = group.stem ++ digits ++ partEnding ∧ digits.all Decimal.isDigit = true := by
  unfold digits?
  constructor
  · intro h
    obtain ⟨rest, hr, h⟩ := Option.bind_eq_some_iff.mp h
    obtain ⟨found, hf, h⟩ := Option.bind_eq_some_iff.mp h
    split at h
    · rename_i hdigits
      cases h
      refine ⟨?_, hdigits⟩
      rw [← List.isPrefixOf?_eq_some_iff_append_eq.mp hr,
        ← List.isSuffixOf?_eq_some_iff_append_eq.mp hf, List.append_assoc]
    · cases h
  · rintro ⟨hname, hdigits⟩
    have hr : group.stem.isPrefixOf? name.toList = some (digits ++ partEnding) :=
      List.isPrefixOf?_eq_some_iff_append_eq.mpr (by rw [hname, List.append_assoc])
    have hf : partEnding.isSuffixOf? (digits ++ partEnding) = some digits :=
      List.isSuffixOf?_eq_some_iff_append_eq.mpr rfl
    rw [hr]
    simp only [Option.bind_eq_bind, Option.bind_some, hf, hdigits, ↓reduceIte]

/-- The letter by which the names of the main part and of the groups differ. -/
def letter : PartGroup → Char
  | header => 'h'
  | footer => 'f'

theorem letter_of_digits? {group : PartGroup} (h : (group.digits? name).isSome) :
    name.toList[5]? = some group.letter := by
  obtain ⟨digits, hd⟩ := Option.isSome_iff_exists.mp h
  rw [(digits?_eq_some.mp hd).1]
  cases group <;> rfl

/-- The parts of a group are those of the names that have a number in it. -/
theorem parts_perm (group : PartGroup) (names : List String) :
    (group.parts names).Perm (names.filter fun name => (group.number? name).isSome) := by
  have hnames : (names.filterMap fun name => (group.number? name).map (·, name)).map Prod.snd =
      names.filter fun name => (group.number? name).isSome := by
    induction names with
    | nil => rfl
    | cons name names ih =>
      cases hn : group.number? name with
      | none => simpa [hn] using ih
      | some n => simpa [hn] using ih
  rw [← hnames]
  exact (List.mergeSort_perm _ _).map _

theorem mem_parts {group : PartGroup} (h : name ∈ group.parts names) :
    (group.digits? name).isSome := by
  have hn := (List.mem_filter.mp ((group.parts_perm names).mem_iff.mp h)).2
  obtain ⟨n, hn⟩ := Option.isSome_iff_exists.mp hn
  obtain ⟨hd, _⟩ := Option.filter_eq_some_iff.mp hn
  obtain ⟨digits, hd, _⟩ := Option.map_eq_some_iff.mp hd
  exact Option.isSome_iff_exists.mpr ⟨digits, hd⟩

end PartGroup

theorem mem_templateParts (h : name ∈ templateParts names) :
    name = mainPart ∨ ∃ group : PartGroup, (group.digits? name).isSome := by
  rw [templateParts, List.append_assoc] at h
  rcases List.mem_append.mp h with h | h
  · split at h
    · exact .inl (List.mem_singleton.mp h)
    · cases h
  · rcases List.mem_append.mp h with h | h
    · exact .inr ⟨.header, PartGroup.mem_parts h⟩
    · exact .inr ⟨.footer, PartGroup.mem_parts h⟩

/-- No part is read twice. -/
theorem nodup_templateParts (h : names.Nodup) : (templateParts names).Nodup := by
  have hgroup (group : PartGroup) : (group.parts names).Nodup :=
    (group.parts_perm names).nodup_iff.mpr (h.filter _)
  have hmain : (if names.contains mainPart then [mainPart] else []).Nodup := by
    split
    · exact List.nodup_singleton mainPart
    · exact .nil
  have hletter {name : String} (hm : name ∈ if names.contains mainPart then [mainPart] else []) :
      name.toList[5]? = some 'd' := by
    split at hm
    · rw [List.mem_singleton.mp hm]
      rfl
    · cases hm
  have happ (group : PartGroup) {name : String} (hm : name ∈ group.parts names) :=
    PartGroup.letter_of_digits? (PartGroup.mem_parts hm)
  refine (hmain.append (hgroup .header) ?_).append (hgroup .footer) ?_
  · intro name hd hh
    cases (hletter hd).symm.trans (happ .header hh)
  · intro name hm hf
    rcases List.mem_append.mp hm with hd | hh
    · cases (hletter hd).symm.trans (happ .footer hf)
    · cases (happ .header hh).symm.trans (happ .footer hf)

end Document

end FormLetter
