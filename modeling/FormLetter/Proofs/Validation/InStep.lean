import FormLetter.Proofs.Validation.Enclosing
import FormLetter.Proofs.Validation.Recovery

namespace FormLetter

namespace TagKinds

variable {ks : TagKinds}

/-- A tag opens a block, closes the innermost one, or leaves all of them as they are. -/
theorem opened_succ_cases (ks : TagKinds) (n : Nat) :
    ks.opened (n + 1) = n :: ks.opened n ∨ ks.opened (n + 1) = ks.opened n ∨
      ks.opened (n + 1) = (ks.opened n).tail := by
  by_cases hopens : ks.OpensAt n
  · exact .inl (opened_succ_of_opens hopens)
  · by_cases hend : ks.at? n = some .endTag
    · exact .inr (.inr (opened_succ_of_end hend))
    · exact .inr (.inl (opened_succ_of_other hopens hend))

/-- Blocks that are open stay where they are on the stack, until the innermost of them is closed. -/
theorem suffix_opened_succ (h : is <:+ ks.opened n) :
    is <:+ ks.opened (n + 1) ∨ ks.opened (n + 1) = is.tail := by
  rcases opened_succ_cases ks n with hn | hn | hn
  · exact .inl (hn ▸ h.trans (List.suffix_cons n _))
  · exact .inl (hn ▸ h)
  · rw [hn]
    cases hl : ks.opened n with
    | nil =>
      rw [hl, List.suffix_nil] at h
      exact .inl (h ▸ List.nil_suffix)
    | cons i rest =>
      rw [hl] at h
      rcases List.suffix_cons_iff.mp h with rfl | hrest
      · exact .inr rfl
      · exact .inl hrest

/-- As long as no fewer blocks are open than after a tag, those that were open there still are. -/
theorem suffix_opened (hij : i ≤ j)
    (h : ∀ m, i ≤ m → m ≤ j → (ks.opened i).length ≤ (ks.opened m).length)
    (hne : ks.opened i ≠ []) :
    ks.opened i <:+ ks.opened j := by
  induction hij with
  | refl => exact List.suffix_refl _
  | @step j hij ih =>
    have hbefore := ih fun m hm hmj => h m hm (Nat.le_succ_of_le hmj)
    rcases suffix_opened_succ hbefore with hs | hs
    · exact hs
    · have hlength := h (j + 1) (Nat.le_succ_of_le hij) (Nat.le_refl _)
      have hpos := List.length_pos_iff.mpr hne
      rw [hs, List.length_tail] at hlength
      omega

theorem IsOpen.of_le (h : ks.IsOpen i n) (him : i < m) (hmn : m ≤ n) : ks.IsOpen i m :=
  ⟨h.1, him, fun j hj => h.2.2 j (Nat.lt_of_lt_of_le hj hmn)⟩

/-- While a block is open, it is on the stack with all the blocks around it. -/
theorem IsOpen.suffix_opened (h : ks.IsOpen i n) : i :: ks.opened i <:+ ks.opened n := by
  obtain ⟨hopens, hin, -⟩ := id h
  induction hin with
  | refl => rw [opened_succ_of_opens hopens]
  | @step n hin ih =>
    have hin : i < n := hin
    rcases suffix_opened_succ (ih (h.of_le hin (Nat.le_succ n))) with hs | hs
    · exact hs
    · -- the block would be among those that were open before it
      have hmem := mem_opened.mpr h
      rw [hs] at hmem
      exact absurd (mem_opened.mp hmem).2.1 (Nat.lt_irrefl i)

/-- An `end` closes the block whose tag has left as many blocks open as there are before the `end`,
if there never were fewer in between. -/
theorem matches_iff_length :
    ks.Matches i j ↔ ks.OpensAt i ∧ i < j ∧ ks.at? j = some .endTag ∧
      (ks.opened j).length = (ks.opened (i + 1)).length ∧
      ∀ m, i < m → m ≤ j → (ks.opened (i + 1)).length ≤ (ks.opened m).length := by
  constructor
  · intro h
    have hinner := (matches_iff_innermost.mp h).2
    have hopen := isOpen_of_innermost hinner
    have hfirst := opened_succ_of_opens h.1
    have hsuffix := hopen.suffix_opened
    refine ⟨h.1, h.2.1, h.2.2.1, ?_, fun m him hmj => ?_⟩
    · -- the block is the innermost, and it is on the stack only once
      obtain ⟨rest, hrest⟩ := List.head?_eq_some_iff.mp hinner
      have hnodup := ks.nodup_opened j
      rw [hrest] at hsuffix hnodup
      rw [hrest, hfirst]
      rcases List.suffix_cons_iff.mp hsuffix with heq | hlater
      · rw [heq]
      · exact absurd (hlater.subset List.mem_cons_self) (List.nodup_cons.mp hnodup).1
    · rw [hfirst]
      exact (hopen.of_le him hmj).suffix_opened.length_le
  · intro h
    obtain ⟨hopens, hij, hend, hlength, hbetween⟩ := h
    have hfirst := opened_succ_of_opens hopens
    have hsuffix := suffix_opened hij hbetween (by simp [hfirst])
    have hsame := hsuffix.eq_of_length hlength.symm
    exact matches_iff_innermost.mpr ⟨hend, by rw [innermost?, ← hsame, hfirst]; rfl⟩

end TagKinds

namespace Validation

/-- The blocks that the block check keeps open after tags. -/
def openAfter (spans : List Span) : List OpenTag :=
  spans.foldl (fun tags span => (visit tags span).2) []

/-- The scopes that the schema check keeps after tags. -/
def scopesAfter (schema : Schema.Index) (spans : List Span) : List Scope :=
  spans.foldl (fun scopes span => (visitSpan schema scopes span).2) []

/-- The header of the loop that an open block is, if that can be read. -/
def OpenTag.header? (tag : OpenTag) : Option LoopHeader :=
  if tag.kind = .forTag then
    tag.opener.content.toOption.bind fun token => (LoopHeader.parse token.value).toOption
  else none

/-- A scope has the variables of the loop that a block is. Of any other block it has none. -/
structure Mirrors (tag : OpenTag) (scope : Scope) : Prop where
  loop : ∀ header, tag.header? = some header →
    scope.map Binding.name = header.item :: header.index.toList
  other : tag.header? = none → scope = []

/-- The tag at `i` starts a loop that can be read. -/
def LoopAt (spans : List Span) (i : Nat) (header : LoopHeader) : Prop :=
  ∃ span token, spans[i]? = some span ∧ span.content = .ok token ∧ token.Loops header

/-- The block check takes the `end` at `j` for that of the block opened at `i`: it takes away the
block that `i` has put on the stack, since all that came on top of it is gone. -/
def Closes (spans : List Span) (i j : Nat) : Prop :=
  (kinds spans).OpensAt i ∧ i < j ∧ (kinds spans).at? j = some .endTag ∧
    (openAfter (spans.take j)).length = (openAfter (spans.take (i + 1))).length ∧
    ∀ m, i < m → m ≤ j →
      (openAfter (spans.take (i + 1))).length ≤ (openAfter (spans.take m)).length

variable {schema : Schema.Index} {spans : List Span} {tags : List OpenTag}

theorem openAfter_concat (before : List Span) (span : Span) :
    openAfter (before ++ [span]) = (visit (openAfter before) span).2 := by
  simp [openAfter]

theorem scopesAfter_concat (schema : Schema.Index) (before : List Span) (span : Span) :
    scopesAfter schema (before ++ [span]) =
      (visitSpan schema (scopesAfter schema before) span).2 := by
  simp [scopesAfter]

/-- The block check goes on after some tags with the blocks that they leave open. -/
theorem exists_syntaxRemarks_append (before after : List Span) :
    ∃ found, syntaxRemarks (before ++ after) = found ++ blockRemarks (openAfter before) after := by
  induction before using List.reverseRecOn generalizing after with
  | nil => exact ⟨[], rfl⟩
  | append_singleton before span ih =>
    obtain ⟨found, hfound⟩ := ih (span :: after)
    refine ⟨found ++ (visit (openAfter before) span).1.map (⟨span, ·⟩), ?_⟩
    rw [List.append_assoc, List.singleton_append, hfound, openAfter_concat, List.append_assoc]
    rfl

/-- The schema check goes on after some tags with the scopes that they leave. -/
theorem exists_schemaRemarks_append (schema : Schema) (before after : List Span) :
    ∃ found, schemaRemarks schema (before ++ after) =
      found ++ scopeRemarks schema.index (scopesAfter schema.index before) after := by
  induction before using List.reverseRecOn generalizing after with
  | nil => exact ⟨[], rfl⟩
  | append_singleton before span ih =>
    obtain ⟨found, hfound⟩ := ih (span :: after)
    refine ⟨found ++
      (visitSpan schema.index (scopesAfter schema.index before) span).1.map (⟨span, ·⟩), ?_⟩
    rw [List.append_assoc, List.singleton_append, hfound, scopesAfter_concat, List.append_assoc]
    rfl

theorem header?_of_opens (hs : span.content = .ok token) (seenElse : Bool) :
    OpenTag.header? ⟨token.kind, span, seenElse⟩ =
      if token.kind = .forTag then (LoopHeader.parse token.value).toOption else none := by
  simp [OpenTag.header?, hs, Except.toOption]

/-- An `else` is noted at a block, and changes nothing else of it. -/
theorem map_header?_place_else (tags : List OpenTag) (span : Span) :
    (place tags span .elseTag).2.map OpenTag.header? = tags.map OpenTag.header? := by
  cases tags with
  | nil => rfl
  | cons tag tags =>
    by_cases htakes : tag.kind.TakesElse
    · rw [place_snd_of_else htakes]
      rfl
    · rw [place_snd_of_else_outside htakes]

/-- The open blocks, as loops and other blocks, follow from the tags as they are read. -/
theorem map_header?_visit (tags : List OpenTag) (hs : span.content = .ok token) :
    (visit tags span).2.map OpenTag.header? =
      Blocks.visit (tags.map OpenTag.header?) token := by
  have hvisit : (visit tags span).2 = (place tags span token.kind).2 := by simp [visit, hs]
  rw [hvisit]
  by_cases hopens : token.kind.Opens
  · rw [place_snd_of_opens hopens, List.map_cons, header?_of_opens hs]
    rcases hopens with hk | hk | hk <;> simp [Blocks.visit, hk]
  · by_cases hend : token.kind = .endTag
    · rw [hend, place_snd_of_end]
      simp [Blocks.visit, hend]
    · have hkept : Blocks.visit (tags.map OpenTag.header?) token = tags.map OpenTag.header? := by
        cases hk : token.kind <;> simp_all [Blocks.visit, MarkupKind.Opens]
      by_cases helse : token.kind = .elseTag
      · rw [hkept, helse, map_header?_place_else]
      · rw [hkept, place_snd_of_other hopens hend helse]

/-- One tag after another, the scopes are those of the open blocks. A malformed tag changes
neither. -/
theorem scopesAfter_eq (schema : Schema.Index) (spans : List Span) :
    scopesAfter schema spans = scopesIn schema ((openAfter spans).map OpenTag.header?) := by
  induction spans using List.reverseRecOn with
  | nil => rfl
  | append_singleton before span ih =>
    rw [scopesAfter_concat, openAfter_concat, ih]
    cases hs : span.content with
    | error fault => simp [visitSpan, visit, hs]
    | ok token =>
      rw [map_header?_visit _ hs, ← scopesIn_visit]
      simp [visitSpan, hs]

theorem forall₂_mirrors (schema : Schema.Index) (tags : List OpenTag) :
    List.Forall₂ Mirrors tags (scopesIn schema (tags.map OpenTag.header?)) := by
  induction tags with
  | nil => exact .nil
  | cons tag tags ih =>
    rw [List.map_cons]
    cases hh : tag.header? with
    | none =>
      refine .cons ⟨?_, fun _ => rfl⟩ ih
      intro header h
      cases hh.symm.trans h
    | some header =>
      refine .cons ⟨?_, ?_⟩ ih
      · intro header' h
        obtain rfl := Option.some.inj (hh.symm.trans h)
        simp [headerScope, Function.comp_def]
      · intro h
        cases hh.symm.trans h

/-- A name is that of a variable in scope if and only if an open block is a loop that has it. -/
theorem binding?_isSome_iff (schema : Schema.Index) (blocks : Blocks) (name : String) :
    ((envIn schema blocks).binding? name).isSome ↔
      ∃ header, some header ∈ blocks ∧ header.Binds name := by
  induction blocks with
  | nil => simp [envIn, Env.binding?, scopesIn]
  | cons block blocks ih =>
    cases block with
    | none =>
      have hsame : (envIn schema (none :: blocks)).binding? name =
          (envIn schema blocks).binding? name := rfl
      simpa [hsame] using ih
    | some header =>
      by_cases hbinds : header.Binds name
      · refine iff_of_true ?_ ⟨header, List.mem_cons_self, hbinds⟩
        rw [binding?_loop]
        rcases hbinds with hitem | hindex
        · rw [if_pos hitem]
          rfl
        · rw [if_pos hindex]
          split <;> rfl
      · rw [binding?_loop_of_not_binds hbinds, ih]
        simp [or_and_right, exists_or, hbinds]

theorem tracked_openAfter (hn : n ≤ spans.length) : Tracked spans n (openAfter (spans.take n)) := by
  induction n with
  | zero => exact List.Forall₂.nil
  | succ n ih =>
    have hspan := List.getElem?_eq_getElem hn
    rw [List.take_add_one, hspan]
    exact openAfter_concat _ _ ▸ (ih (Nat.le_of_lt hn)).visit_snd hspan

theorem length_openAfter (hn : n ≤ spans.length) :
    (openAfter (spans.take n)).length = ((kinds spans).opened n).length :=
  (tracked_openAfter hn).length_eq.symm

/-- What the block check closes by counting its open blocks is what matching closes. -/
theorem closes_iff_matches : Closes spans i j ↔ (kinds spans).Matches i j := by
  rw [TagKinds.matches_iff_length, Closes]
  refine and_congr_right fun _ => and_congr_right fun hij => and_congr_right fun hend => ?_
  have hj : j ≤ spans.length := by
    simpa using Nat.le_of_lt (TagKinds.lt_length_of_at? hend)
  rw [length_openAfter hj, length_openAfter (Nat.le_trans hij hj)]
  refine and_congr_right fun _ => forall_congr' fun m => forall_congr' fun _ => ?_
  exact forall_congr' fun hm => by rw [length_openAfter (Nat.le_trans hm hj)]

/-- The header of an open block is what its tag says. -/
theorem OpenTag.StandsFor.header?_iff (h : OpenTag.StandsFor spans n i tag) :
    tag.header? = some header ↔ LoopAt spans i header := by
  obtain ⟨hopener, hkind, -⟩ := h
  cases hs : tag.opener.content with
  | error fault =>
    rw [Span.kind?_of_error hs] at hkind
    cases hkind
  | ok token =>
    have hk := Option.some.inj ((Span.kind?_of_ok hs).symm.trans hkind)
    have hparse : (LoopHeader.parse token.value).toOption = some header ↔
        LoopHeader.parse token.value = .ok header := by
      cases LoopHeader.parse token.value <;> simp [Except.toOption]
    have hloops : tag.header? = some header ↔ token.Loops header := by
      rw [OpenTag.header?, hs, ← hk, MarkupToken.Loops, ← hparse]
      split <;> simp_all [Except.toOption]
    rw [hloops]
    constructor
    · intro hl
      exact ⟨tag.opener, token, hopener, hs, hl⟩
    · intro hx
      obtain ⟨span, token', hspan, hs', hl⟩ := hx
      obtain rfl := Option.some.inj (hopener.symm.trans hspan)
      obtain rfl := Except.ok.inj (hs.symm.trans hs')
      exact hl

theorem mem_headers_of_standsFor (h : List.Forall₂ (OpenTag.StandsFor spans n) is tags) :
    some header ∈ tags.map OpenTag.header? ↔ ∃ i ∈ is, LoopAt spans i header := by
  induction h with
  | nil => simp
  | cons htag _ ih =>
    rw [List.map_cons, List.mem_cons, ih, eq_comm, htag.header?_iff]
    simp

/-- The headers of the open blocks are those of the loops that no `end` has closed. -/
theorem mem_headers_iff (before after : List Span) :
    some header ∈ (openAfter before).map OpenTag.header? ↔
      ∃ i < before.length, LoopAt (before ++ after) i header ∧
        ∀ j, Closes (before ++ after) i j → before.length ≤ j := by
  have hlength : before.length ≤ (before ++ after).length := by simp
  have htracked := tracked_openAfter hlength
  rw [List.take_left] at htracked
  rw [mem_headers_of_standsFor htracked]
  refine exists_congr fun i => ?_
  rw [TagKinds.mem_opened, TagKinds.IsOpen]
  constructor
  · intro h
    obtain ⟨⟨-, hin, hopen⟩, hloop⟩ := h
    refine ⟨hin, hloop, fun j hj => ?_⟩
    exact not_lt.mp fun hlt => hopen j hlt (closes_iff_matches.mp hj)
  · intro h
    obtain ⟨hin, hloop, hopen⟩ := h
    refine ⟨⟨?_, hin, fun j hlt hj => ?_⟩, hloop⟩
    · obtain ⟨span, token, hspan, hs, hl⟩ := hloop
      refine ⟨token.kind, ?_, .inr (.inr hl.1)⟩
      rw [Option.mem_def, at?_kinds, hspan]
      exact Span.kind?_of_ok hs
    · exact absurd hlt (not_lt.mpr (hopen j (closes_iff_matches.mpr hj)))

/-- After any tags there is a scope for each open block, with the variables of a loop that can be
read and with none for any other block. So a name is taken for that of a loop if and only if the tag
of a loop that has it stands before, and not the `end` that the block check takes for its own. -/
theorem scopes_in_step (schema : Schema) (before after : List Span) :
    let spans := before ++ after
    let tags := openAfter before
    let scopes := scopesAfter schema.index before
    (∃ found, syntaxRemarks spans = found ++ blockRemarks tags after) ∧
    (∃ found, schemaRemarks schema spans = found ++ scopeRemarks schema.index scopes after) ∧
    List.Forall₂ Mirrors tags scopes ∧
    ∀ name, (Env.binding? ⟨schema.index, scopes⟩ name).isSome ↔
      ∃ header, header.Binds name ∧ ∃ i < before.length, LoopAt spans i header ∧
        ∀ j, Closes spans i j → before.length ≤ j := by
  intro spans tags scopes
  have hscopes : scopes = scopesIn schema.index (tags.map OpenTag.header?) :=
    scopesAfter_eq schema.index before
  refine ⟨exists_syntaxRemarks_append before after,
    exists_schemaRemarks_append schema before after,
    hscopes ▸ forall₂_mirrors schema.index tags, ?_⟩
  intro name
  rw [hscopes]
  refine (binding?_isSome_iff schema.index _ name).trans (exists_congr fun header => ?_)
  rw [and_comm, mem_headers_iff before after]

end Validation

end FormLetter
