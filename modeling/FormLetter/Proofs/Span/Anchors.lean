import FormLetter.Proofs.Decimal.Digits
import FormLetter.Proofs.Document.Fragments
import FormLetter.Proofs.Document.Numbering
import FormLetter.Proofs.Document.Parts
import FormLetter.Proofs.Expr.Unambiguous
import FormLetter.Proofs.Span.Tiling

namespace FormLetter

open Document (Paragraph)
open Outcome

/-- The first bytes of the digest of a text. -/
def Digest.short (text : String) : String :=
  hex ((ofBytes text.toUTF8.toList).take 8)

namespace Span

/-- What stands between the fields of the text that a tag is known by. -/
def separator : Char := '\x1f'

/-- The text that the anchor of a span is a digest of. -/
def named (s : Span) : String :=
  key s.part s.paragraph s.start s.stop s.raw

theorem anchor_eq_short (s : Span) : s.anchor = Digest.short s.named := rfl

theorem separator_not_mem_ofNat (n : Nat) : separator ∉ Decimal.ofNat n := by
  intro h
  cases (Decimal.areDigits_ofNat n).2 separator h

theorem toList_key (part : String) (paragraph start stop : Nat) (raw : String) :
    (key part paragraph start stop raw).toList =
      part.toList ++ separator :: (Decimal.ofNat paragraph ++ separator :: (Decimal.ofNat start ++
        separator :: (Decimal.ofNat stop ++ separator :: raw.toList))) := by
  simp [key, separator]

/-- Two fields with more after them, which may hold separators. -/
theorem field_inj {as bs rest more : List Char} (ha : separator ∉ as) (hb : separator ∉ bs)
    (h : as ++ separator :: rest = bs ++ separator :: more) : as = bs ∧ rest = more := by
  have hends {xs ys : List Char} (hy : separator ∉ ys) (zs : List Char) :
      ys ≠ xs ++ separator :: zs := by
    rintro rfl
    simp at hy
  obtain ⟨hfield, -, hrest⟩ := append_cons_inj h (hends hb) (hends ha)
  exact ⟨hfield, hrest⟩

theorem number_inj {m n : Nat} {rest more : List Char}
    (h : Decimal.ofNat m ++ separator :: rest = Decimal.ofNat n ++ separator :: more) :
    m = n ∧ rest = more := by
  obtain ⟨hn, hr⟩ := field_inj (separator_not_mem_ofNat m) (separator_not_mem_ofNat n) h
  refine ⟨?_, hr⟩
  rw [← Decimal.toNat_ofNat m, hn, Decimal.toNat_ofNat]

/-- The fields are told apart from the left: only the last one, the text of the tag, may hold a
separator. -/
theorem fields_of_named {s t : Span} (hs : separator ∉ s.part.toList)
    (ht : separator ∉ t.part.toList) (h : s.named = t.named) :
    s.part = t.part ∧ s.paragraph = t.paragraph ∧ s.start = t.start ∧ s.stop = t.stop ∧
      s.raw = t.raw := by
  have hl := congrArg String.toList h
  rw [named, named, toList_key, toList_key] at hl
  obtain ⟨hpart, hl⟩ := field_inj hs ht hl
  obtain ⟨hparagraph, hl⟩ := number_inj hl
  obtain ⟨hstart, hl⟩ := number_inj hl
  obtain ⟨hstop, hraw⟩ := number_inj hl
  exact ⟨String.toList_inj.mp hpart, hparagraph, hstart, hstop, String.toList_inj.mp hraw⟩

/-- Where the paragraph of a span is. -/
def place (s : Span) : String × Nat :=
  (s.part, s.paragraph)

theorem place_of_mem {part : String} {p : Paragraph} (h : s ∈ ofParagraph part n p) :
    s.place = (part, p.index) := by
  obtain ⟨i, hi, rfl⟩ := List.mem_mapIdx.mp h
  rfl

theorem ordinal_ofParagraph (part : String) (n : Nat) (p : Paragraph) :
    (ofParagraph part n p).map ordinal = List.range' n (ofParagraph part n p).length := by
  apply List.ext_getElem
  · simp
  · intro i hi _
    simp [ofParagraph, ofStretch]

/-- No two spans of a paragraph start at one place. -/
theorem pairwise_start (part : String) (n : Nat) (p : Paragraph) :
    (ofParagraph part n p).Pairwise fun s t => s.start < t.start := by
  have htiles := tiles_tags part (p := p) (fun m => n + m) (List.nil_append _).symm
  refine htiles.disjoint.imp_of_mem ?_
  intro s t hs _ hst
  have := (htiles.bounds s hs).2.1
  omega

/-- What names the spans of a paragraph does not hang on its runs, nor on the spans before. -/
theorem named_ofParagraph (part : String) (m n : Nat) {p q : Paragraph} (ht : q.text = p.text)
    (hi : q.index = p.index) :
    (ofParagraph part m q).map named = (ofParagraph part n p).map named := by
  have herase : named ∘ eraseRun = named := rfl
  have hordinal : (ofParagraph part m q).map named = (ofParagraph part n q).map named := by
    rw [map_ofParagraph (g := fun tag => (ofStretch part q 0 tag.1 tag.2).named) fun _ _ => rfl,
      map_ofParagraph (g := fun tag => (ofStretch part q 0 tag.1 tag.2).named) fun _ _ => rfl]
  rw [hordinal, ← herase, ← List.map_map, ← List.map_map, eraseRun_eq_of_text part n ht hi]

/-- The spans that paragraphs add after so many others. -/
def added (n : Nat) : List (String × Paragraph) → List Span
  | [] => []
  | (part, p) :: paragraphs =>
    ofParagraph part n p ++ added (n + (ofParagraph part n p).length) paragraphs

theorem scan_eq_append_added (found : List Span) (paragraphs : List (String × Paragraph)) :
    scan found paragraphs = found ++ added found.length paragraphs := by
  induction paragraphs generalizing found with
  | nil => exact (List.append_nil found).symm
  | cons first paragraphs ih =>
    obtain ⟨part, p⟩ := first
    rw [scan_cons, ih, added, List.length_append, List.append_assoc]

theorem ordinal_added (n : Nat) (paragraphs : List (String × Paragraph)) :
    (added n paragraphs).map ordinal = List.range' n (added n paragraphs).length := by
  induction paragraphs generalizing n with
  | nil => rfl
  | cons first paragraphs ih =>
    obtain ⟨part, p⟩ := first
    rw [added, List.map_append, ordinal_ofParagraph, ih, List.length_append, ← List.range'_append_1]

theorem mem_added {paragraphs : List (String × Paragraph)} (h : s ∈ added n paragraphs) :
    ∃ part p m, (part, p) ∈ paragraphs ∧ s ∈ ofParagraph part m p := by
  induction paragraphs generalizing n with
  | nil => cases h
  | cons first paragraphs ih =>
    obtain ⟨part, p⟩ := first
    rcases List.mem_append.mp h with h | h
    · exact ⟨part, p, n, List.mem_cons_self, h⟩
    · obtain ⟨part', p', m, hm, hs⟩ := ih h
      exact ⟨part', p', m, List.mem_cons_of_mem _ hm, hs⟩

/-- Where paragraphs are. -/
def places (paragraphs : List (String × Paragraph)) : List (String × Nat) :=
  paragraphs.map fun x => (x.1, x.2.index)

theorem place_mem_places {paragraphs : List (String × Paragraph)} (h : s ∈ added n paragraphs) :
    s.place ∈ places paragraphs := by
  obtain ⟨part, p, m, hm, hs⟩ := mem_added h
  rw [place_of_mem hs]
  exact List.mem_map.mpr ⟨(part, p), hm, rfl⟩

/-- Spans of one paragraph start at different places, and those of others are elsewhere. -/
theorem pairwise_added {paragraphs : List (String × Paragraph)} (h : (places paragraphs).Nodup)
    (n : Nat) : (added n paragraphs).Pairwise fun s t => s.place = t.place → s.start ≠ t.start := by
  induction paragraphs generalizing n with
  | nil => exact .nil
  | cons first paragraphs ih =>
    obtain ⟨part, p⟩ := first
    obtain ⟨hfirst, hrest⟩ := List.nodup_cons.mp h
    refine List.pairwise_append.mpr ⟨?_, ih hrest _, ?_⟩
    · refine (pairwise_start part n p).imp ?_
      intro s t hst _
      exact Nat.ne_of_lt hst
    · intro s hs t ht hplace
      have helsewhere := place_mem_places ht
      rw [← hplace, place_of_mem hs] at helsewhere
      exact absurd helsewhere hfirst

/-- The spans at the place of a paragraph are its own. -/
theorem filter_place_added {part : String} {p : Paragraph} {paragraphs : List (String × Paragraph)}
    (h : (places paragraphs).Nodup) (hm : (part, p) ∈ paragraphs) (n : Nat) :
    ∃ m, (added n paragraphs).filter (·.place = (part, p.index)) = ofParagraph part m p := by
  induction paragraphs generalizing n with
  | nil => cases hm
  | cons first paragraphs ih =>
    obtain ⟨part', p'⟩ := first
    obtain ⟨hfirst, hrest⟩ := List.nodup_cons.mp h
    rw [added, List.filter_append]
    rcases List.mem_cons.mp hm with he | hm
    · cases he
      refine ⟨n, ?_⟩
      rw [List.filter_eq_self.mpr fun s hs => by simp [place_of_mem hs],
        List.filter_eq_nil_iff.mpr fun s hs => ?_, List.append_nil]
      intro hplace
      have helsewhere := place_mem_places hs
      rw [of_decide_eq_true hplace] at helsewhere
      exact hfirst helsewhere
    · have hne : (part', p'.index) ≠ (part, p.index) := by
        intro he
        exact hfirst (List.mem_map.mpr ⟨(part, p), hm, he.symm⟩)
      obtain ⟨m, hf⟩ := ih hrest hm (n + (ofParagraph part' n p').length)
      refine ⟨m, ?_⟩
      rw [List.filter_eq_nil_iff.mpr fun s hs => by simp [place_of_mem hs, hne], List.nil_append,
        hf]

/-- The parts of a document with their paragraphs: the names of the parts differ, and so do the
numbers of the paragraphs in each. -/
structure ArePlaced (parts : List (String × List Paragraph)) : Prop where
  names : (parts.map Prod.fst).Nodup
  separated : ∀ part ∈ parts, separator ∉ part.1.toList
  paragraphs : ∀ part ∈ parts, (part.2.map Paragraph.index).Nodup

/-- The paragraphs of parts, each with the name of its part. -/
def paragraphsOf (parts : List (String × List Paragraph)) : List (String × Paragraph) :=
  parts.flatMap fun part => part.2.map (part.1, ·)

/-- The spans of a document. -/
def ofParts (parts : List (String × List Paragraph)) : List Span :=
  scan [] (paragraphsOf parts)

theorem ofParts_eq_added (parts : List (String × List Paragraph)) :
    ofParts parts = added 0 (paragraphsOf parts) :=
  scan_eq_append_added [] _

theorem ordinal_ofParts (parts : List (String × List Paragraph)) :
    (ofParts parts).map ordinal = List.range (ofParts parts).length := by
  rw [ofParts_eq_added, ordinal_added, List.range_eq_range']

/-- The names of the tags of one paragraph. -/
def anchorsAt (part : String) (index : Nat) (spans : List Span) : List String :=
  (spans.filter (·.place = (part, index))).map anchor

theorem mem_paragraphsOf {part : String} {p : Paragraph} {parts : List (String × List Paragraph)} :
    (part, p) ∈ paragraphsOf parts ↔ ∃ ps, (part, ps) ∈ parts ∧ p ∈ ps := by
  simp [paragraphsOf]

namespace ArePlaced

variable {parts : List (String × List Paragraph)}

theorem nodup_places (h : ArePlaced parts) : (places (paragraphsOf parts)).Nodup := by
  have hplaces : places (paragraphsOf parts) =
      parts.flatMap fun part => (part.2.map Paragraph.index).map (part.1, ·) := by
    simp [places, paragraphsOf, List.map_flatMap, Function.comp_def]
  rw [hplaces, List.nodup_flatMap]
  refine ⟨?_, ?_⟩
  · intro part hm
    exact (h.paragraphs part hm).map fun m n hmn => (Prod.mk.inj hmn).2
  · refine (List.pairwise_map.mp h.names).imp ?_
    intro a b hne x ha hb
    obtain ⟨_, _, rfl⟩ := List.mem_map.mp ha
    obtain ⟨_, _, hx⟩ := List.mem_map.mp hb
    exact hne (Prod.mk.inj hx).1.symm

/-- The names of parts do not hold the separator. -/
theorem separator_not_mem (h : ArePlaced parts) (hs : s ∈ ofParts parts) :
    separator ∉ s.part.toList := by
  rw [ofParts_eq_added] at hs
  obtain ⟨part, p, m, hm, hs⟩ := mem_added hs
  obtain ⟨ps, hm, _⟩ := mem_paragraphsOf.mp hm
  have hpart : s.part = part := (Prod.mk.inj (place_of_mem hs)).1
  rw [hpart]
  exact h.separated (part, ps) hm

theorem nodup_named (h : ArePlaced parts) : ((ofParts parts).map named).Nodup := by
  have hstarts := pairwise_added h.nodup_places 0
  rw [← ofParts_eq_added] at hstarts
  refine List.pairwise_map.mpr (hstarts.imp_of_mem ?_)
  intro s t hs ht hstart hnamed
  obtain ⟨hpart, hparagraph, hsame, -, -⟩ :=
    fields_of_named (h.separator_not_mem hs) (h.separator_not_mem ht) hnamed
  exact hstart (Prod.ext hpart hparagraph) hsame

/-- Tags with one anchor are one tag, where no two texts have the same digest. -/
theorem eq_of_anchor_eq (h : ArePlaced parts)
    (hcollision : ∀ s ∈ ofParts parts, ∀ t ∈ ofParts parts,
      Digest.short s.named = Digest.short t.named → s.named = t.named)
    (hs : s ∈ ofParts parts) (ht : t ∈ ofParts parts) (hanchor : s.anchor = t.anchor) : s = t := by
  rw [anchor_eq_short, anchor_eq_short] at hanchor
  exact List.inj_on_of_nodup_map h.nodup_named hs ht (hcollision s hs t ht hanchor)

/-- What names the tags of a paragraph is found at its place. -/
theorem anchorsAt_eq {part : String} {p : Paragraph} (h : ArePlaced parts)
    (hm : (part, ps) ∈ parts) (hp : p ∈ ps) :
    anchorsAt part p.index (ofParts parts) =
      ((ofParagraph part 0 p).map named).map Digest.short := by
  obtain ⟨m, hf⟩ := filter_place_added h.nodup_places (mem_paragraphsOf.mpr ⟨ps, hm, hp⟩) 0
  rw [anchorsAt, ofParts_eq_added, hf, ← named_ofParagraph part m 0 rfl rfl, List.map_map]
  rfl

end ArePlaced

/-- The names of the parts that are read do not hold the separator. -/
theorem separator_not_mem_templateParts (h : name ∈ Document.templateParts names) :
    separator ∉ name.toList := by
  rcases Document.mem_templateParts h with rfl | ⟨group, hd⟩
  · decide
  · obtain ⟨digits, hd⟩ := Option.isSome_iff_exists.mp hd
    obtain ⟨hname, hdigits⟩ := Document.PartGroup.digits?_eq_some.mp hd
    have hstem : separator ∉ group.stem := by cases group <;> decide
    have hending : separator ∉ Document.partEnding := by decide
    have hmiddle : separator ∉ digits := by
      intro hm
      cases List.all_eq_true.mp hdigits separator hm
    rw [hname]
    simp [hstem, hmiddle, hending]

/-- The paragraphs of a part, as they are read. -/
def IsRead (part : String × List Paragraph) : Prop :=
  ∃ octets, Document.partParagraphs part.1 octets = .ok part.2

theorem IsRead.nodup {part : String × List Paragraph} (h : IsRead part) :
    (part.2.map Paragraph.index).Nodup := by
  obtain ⟨octets, h⟩ := h
  unfold Document.partParagraphs at h
  split at h
  · rename_i ps hps
    cases h
    obtain ⟨source, _, hps⟩ := Option.bind_eq_some_iff.mp hps
    obtain ⟨events, _, hps⟩ := Option.bind_eq_some_iff.mp hps
    rw [(Document.numbered_of_paragraphs? hps).1]
    exact List.nodup_range
  · cases h

/-- Reads one more part and adds its spans. -/
def scanPart (read : String → Except DocumentError (List UInt8)) (found : List Span)
    (part : String) : Except DocumentError (List Span) := do
  let paragraphs ← Document.partParagraphs part (← read part)
  return scan found (paragraphs.map (part, ·))

theorem scan_of_foldlM {read : String → Except DocumentError (List UInt8)} {names : List String}
    (h : names.foldlM (scanPart read) found = .ok spans) :
    ∃ parts, parts.map Prod.fst = names ∧ (∀ part ∈ parts, IsRead part) ∧
      spans = scan found (paragraphsOf parts) := by
  induction names generalizing found with
  | nil =>
    cases h
    exact ⟨[], rfl, by simp, rfl⟩
  | cons name names ih =>
    obtain ⟨next, hnext, h⟩ := bind_eq_ok.mp h
    obtain ⟨octets, _, hnext⟩ := bind_eq_ok.mp hnext
    obtain ⟨ps, hps, hnext⟩ := bind_eq_ok.mp hnext
    cases hnext
    obtain ⟨parts, hnames, hread, rfl⟩ := ih h
    refine ⟨(name, ps) :: parts, by simp [hnames], ?_, ?_⟩
    · exact List.forall_mem_cons.mpr ⟨⟨octets, hps⟩, hread⟩
    · exact List.foldl_append.symm

/-- Every document that can be read has its parts and paragraphs placed so. -/
theorem exists_parts_of_ofDocument (h : ofDocument archive = .ok spans) :
    ∃ parts, ArePlaced parts ∧ spans = ofParts parts := by
  obtain ⟨package, hpackage, hscan⟩ := bind_eq_ok.mp h
  have hnames : package.parts.names.Nodup := by
    unfold Document.readPackage at hpackage
    cases hread : Document.Package.read archive with
    | error e =>
      rw [hread] at hpackage
      cases hpackage
    | ok p =>
      rw [hread] at hpackage
      cases hpackage
      exact Document.nodup_names_of_read hread
  have hfold : (Document.templateParts package.parts.names).foldlM (scanPart package.getPart) [] =
      .ok spans := hscan
  obtain ⟨parts, hparts, hread, rfl⟩ := scan_of_foldlM hfold
  refine ⟨parts, ⟨?_, ?_, fun part hm => (hread part hm).nodup⟩, rfl⟩
  · rw [hparts]
    exact Document.nodup_templateParts hnames
  · intro part hm
    have hname := List.mem_map_of_mem (f := Prod.fst) hm
    rw [hparts] at hname
    exact separator_not_mem_templateParts hname

/-- The tags of a document that can be read are known by different texts, and are numbered in the
order in which they are found; so anchors tell them apart, where no two texts have the same
digest. -/
theorem anchors_ofDocument (h : ofDocument archive = .ok spans) :
    (spans.map named).Nodup ∧ spans.map ordinal = List.range spans.length ∧
    ((∀ s ∈ spans, ∀ t ∈ spans, Digest.short s.named = Digest.short t.named → s.named = t.named) →
      ∀ s ∈ spans, ∀ t ∈ spans, s.anchor = t.anchor → s = t) := by
  obtain ⟨parts, hparts, rfl⟩ := exists_parts_of_ofDocument h
  refine ⟨hparts.nodup_named, ordinal_ofParts parts, ?_⟩
  intro hcollision s hs t ht hanchor
  exact hparts.eq_of_anchor_eq hcollision hs ht hanchor

/-- In a document whose parts have different names, without the separator, and whose paragraphs have
different numbers in each part, the texts that anchors are digests of are different, and the tags
are numbered in the order in which they are found. Unless the digests of two of these texts are the
same, tags with one anchor are one tag. The anchors in a paragraph depend on its place and its text
only: they are the same in any other such document that has the text there, in whatever runs. -/
theorem anchors_of_parts {parts : List (String × List Paragraph)} (h : ArePlaced parts) :
    ((ofParts parts).map named).Nodup ∧
    (ofParts parts).map ordinal = List.range (ofParts parts).length ∧
    ((∀ s ∈ ofParts parts, ∀ t ∈ ofParts parts,
        Digest.short s.named = Digest.short t.named → s.named = t.named) →
      ∀ s ∈ ofParts parts, ∀ t ∈ ofParts parts, s.anchor = t.anchor → s = t) ∧
    ∀ others : List (String × List Paragraph), ArePlaced others →
      ∀ (part : String) (ps qs : List Paragraph) (p q : Paragraph),
        (part, ps) ∈ parts → p ∈ ps → (part, qs) ∈ others → q ∈ qs →
        q.index = p.index → q.text = p.text →
        anchorsAt part q.index (ofParts others) = anchorsAt part p.index (ofParts parts) := by
  refine ⟨h.nodup_named, ordinal_ofParts parts, ?_, ?_⟩
  · intro hcollision s hs t ht hanchor
    exact h.eq_of_anchor_eq hcollision hs ht hanchor
  · intro others ho part ps qs p q hm hp hn hq hindex htext
    rw [h.anchorsAt_eq hm hp, ho.anchorsAt_eq hn hq, named_ofParagraph part 0 0 htext hindex]

/-- One paragraph in different runs, and a tag in another part whose text holds the separator. -/
theorem anchors_of_parts_of_split :
    let whole : Paragraph := ⟨0, [⟨0, "\x7b\x7ba\x7d\x7d \x7b\x7ba\x7d\x7d".toList⟩]⟩
    let split : Paragraph :=
      ⟨0, [⟨0, "\x7b".toList⟩, ⟨1, "\x7ba\x7d\x7d \x7b\x7ba\x7d\x7d".toList⟩]⟩
    let header : Paragraph := ⟨0, [⟨0, "\x7b\x7ba\x1f5\x1fa\x7d\x7d".toList⟩]⟩
    let parts := [("word/document.xml", [whole]), ("word/header1.xml", [header])]
    let others := [("word/document.xml", [split])]
    (ArePlaced parts ∧ ArePlaced others ∧
      ∀ s ∈ ofParts parts, ∀ t ∈ ofParts parts,
        Digest.short s.named = Digest.short t.named → s.named = t.named) ∧
    (ofParts parts).length = 3 ∧
    ((ofParts parts).map named).Nodup ∧
    (∀ s ∈ ofParts parts, ∀ t ∈ ofParts parts, s.anchor = t.anchor → s = t) ∧
    anchorsAt "word/document.xml" 0 (ofParts others) =
      anchorsAt "word/document.xml" 0 (ofParts parts) := by
  intro whole split header parts others
  have hparts : ArePlaced parts := ⟨by decide, by decide, by decide⟩
  have hothers : ArePlaced others := ⟨by decide, by decide, by decide⟩
  have hanchors : ((ofParts parts).map fun s => Digest.short s.named).Nodup := by decide +kernel
  have hcollision : ∀ s ∈ ofParts parts, ∀ t ∈ ofParts parts,
      Digest.short s.named = Digest.short t.named → s.named = t.named := by
    intro s hs t ht h
    rw [List.inj_on_of_nodup_map hanchors hs ht h]
  obtain ⟨hnamed, hordinals, hunique, hsame⟩ := anchors_of_parts hparts
  have hlength : (ofParts parts).length = 3 := by decide +kernel
  refine ⟨⟨hparts, hothers, hcollision⟩, hlength, hnamed, hunique hcollision, ?_⟩
  have hdocument : ("word/document.xml", [whole]) ∈ parts := by simp [parts]
  have hother : ("word/document.xml", [split]) ∈ others := by simp [others]
  exact hsame others hothers "word/document.xml" [whole] [split] whole split hdocument (by simp)
    hother (by simp) rfl rfl

end Span

end FormLetter
