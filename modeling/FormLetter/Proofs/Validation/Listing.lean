import FormLetter.Proofs.Validation.Keys
import FormLetter.Proofs.Validation.Uses

namespace FormLetter.Validation

theorem ReferenceKind.ofName?_name (k : ReferenceKind) : ofName? k.name = some k := by
  cases k <;> decide

theorem ReferenceKind.name_injective : Function.Injective name := by
  intro a b h
  have ha := ofName?_name a
  rw [h, ofName?_name] at ha
  exact (Option.some.inj ha).symm

namespace Reference

/-- References in the order of their keys. -/
def sort (found : List Reference) : List Reference :=
  found.mergeSort fun a b => (a.compare b).isLE

theorem sort_perm (found : List Reference) : (sort found).Perm found :=
  List.mergeSort_perm found _

theorem pairwise_sort (found : List Reference) :
    (sort found).Pairwise fun a b => a.key ≤ b.key :=
  pairwise_mergeSort_of_key key (fun _ _ => isLE_iff_key_le) found

/-- References with different keys are put in strict order. -/
theorem pairwise_lt_sort (h : found.Pairwise fun a b => a.key ≠ b.key) :
    (sort found).Pairwise fun a b => a.key < b.key := by
  have hne : (sort found).Pairwise fun a b => a.key ≠ b.key :=
    ((sort_perm found).pairwise_iff Ne.symm).mpr h
  exact ((pairwise_sort found).and hne).imp fun hab => lt_of_le_of_ne hab.1 hab.2

/-- There is one such order. -/
theorem sort_eq_of_perm (h : found.Pairwise fun a b => a.key ≠ b.key) (hp : found.Perm others) :
    sort others = sort found := by
  have hother : others.Pairwise fun a b => a.key ≠ b.key := (hp.pairwise_iff Ne.symm).mp h
  have hperm : (sort others).Perm (sort found) :=
    ((sort_perm others).trans hp.symm).trans (sort_perm found).symm
  refine hperm.eq_of_pairwise ?_ (pairwise_lt_sort hother) (pairwise_lt_sort h)
  intro a b _ _ hab hba
  exact absurd hba hab.not_gt

end Reference

variable {spans : List Span} {span : Span} {kind : ReferenceKind}

theorem mem_spanReferences {r : Reference} : r ∈ spanReferences span ↔
    Refers span r.kind r.expression ∧
      r = ⟨span.raw, r.kind, r.expression, span.ordinal, span.location⟩ := by
  rw [spanReferences, List.mem_map]
  constructor
  · rintro ⟨⟨kind, text⟩, hm, rfl⟩
    exact ⟨mem_spanMentions.mp hm, rfl⟩
  · rintro ⟨h, hr⟩
    exact ⟨(r.kind, r.expression), mem_spanMentions.mpr h, hr.symm⟩

theorem ordinal_of_mem_spanReferences {r : Reference} (h : r ∈ spanReferences span) :
    r.ordinal = span.ordinal := by
  rw [(mem_spanReferences.mp h).2]

/-- What tags with different numbers refer to has different keys: those of one tag by their kinds or
texts, the others by the numbers. -/
theorem pairwise_spanReferences (h : (spans.map Span.ordinal).Nodup) :
    (spans.flatMap spanReferences).Pairwise fun a b => a.key ≠ b.key := by
  refine List.pairwise_flatMap.mpr ⟨?_, ?_⟩
  · intro span _
    refine List.pairwise_map.mpr ((nodup_spanMentions span).imp ?_)
    rintro ⟨kind, text⟩ ⟨other, more⟩ hne hkey
    simp only [Reference.key, toLex_inj, Prod.mk.injEq, true_and, and_true] at hkey
    exact hne (Prod.ext (ReferenceKind.name_injective hkey.1) hkey.2)
  · refine (List.pairwise_map.mp h).imp fun hne a ha b hb hkey => hne ?_
    rw [← ordinal_of_mem_spanReferences ha, ← ordinal_of_mem_spanReferences hb]
    exact congrArg (fun key => (ofLex key).1) hkey

/-- What is listed of one tag is found by its number. -/
theorem filter_spanReferences (h : (spans.map Span.ordinal).Nodup) (hs : span ∈ spans) :
    (spans.flatMap spanReferences).filter (·.ordinal = span.ordinal) = spanReferences span := by
  obtain ⟨before, after, rfl⟩ := List.append_of_mem hs
  rw [List.map_append, List.map_cons, List.nodup_middle, List.nodup_cons, ← List.map_append] at h
  have hother {others : List Span} (ho : ∀ other ∈ others, other ∈ before ++ after) :
      (others.flatMap spanReferences).filter (·.ordinal = span.ordinal) = [] := by
    refine List.filter_eq_nil_iff.mpr fun r hr hn => h.1 ?_
    obtain ⟨other, hm, hr⟩ := List.mem_flatMap.mp hr
    rw [← of_decide_eq_true hn, ordinal_of_mem_spanReferences hr]
    exact List.mem_map_of_mem (ho other hm)
  have hself : (spanReferences span).filter (·.ordinal = span.ordinal) = spanReferences span :=
    List.filter_eq_self.mpr fun r hr => decide_eq_true (ordinal_of_mem_spanReferences hr)
  rw [List.flatMap_append, List.flatMap_cons, List.filter_append, List.filter_append, hself,
    hother fun _ hm => List.mem_append_left _ hm, hother fun _ hm => List.mem_append_right _ hm,
    List.nil_append, List.append_nil]

/-- The texts of one kind that are listed for a tag. -/
def entries (found : List Reference) (span : Span) (kind : ReferenceKind) : List String :=
  (found.filter fun r => r.kind = kind ∧ r.ordinal = span.ordinal).map (·.expression)

theorem entries_perm (h : (spans.map Span.ordinal).Nodup) (hs : span ∈ spans)
    (kind : ReferenceKind) : (entries (references spans) span kind).Perm
      (((spanMentions span).filter (·.1 = kind)).map Prod.snd) := by
  have hlisted : entries (spans.flatMap spanReferences) span kind =
      ((spanMentions span).filter (·.1 = kind)).map Prod.snd := by
    simp only [entries, Bool.decide_and, ← List.filter_filter]
    rw [filter_spanReferences h hs, spanReferences, List.filter_map, List.map_map]
    rfl
  rw [← hlisted]
  exact ((Reference.sort_perm _).filter _).map _

theorem mem_entries (h : (spans.map Span.ordinal).Nodup) (hs : span ∈ spans) :
    text ∈ entries (references spans) span kind ↔ Refers span kind text := by
  rw [(entries_perm h hs kind).mem_iff, ← mem_spanMentions]
  simp

theorem nodup_entries (h : (spans.map Span.ordinal).Nodup) (hs : span ∈ spans)
    (kind : ReferenceKind) : (entries (references spans) span kind).Nodup := by
  rw [(entries_perm h hs kind).nodup_iff]
  refine ((nodup_spanMentions span).filter _).map_on ?_
  intro m hm n hn htext
  have hkind := of_decide_eq_true (List.mem_filter.mp hm).2
  exact Prod.ext (hkind.trans (of_decide_eq_true (List.mem_filter.mp hn).2).symm) htext

theorem eq_singleton_of_nodup {as : List α} (h : as.Nodup) (ha : ∀ b, b ∈ as ↔ b = a) :
    as = [a] := by
  refine List.perm_singleton.mp <|
    (List.perm_ext_iff_of_nodup h (List.nodup_singleton a)).mpr fun b => ?_
  rw [ha, List.mem_singleton]

/-- A tag that controls is listed itself, once. -/
theorem entries_control (h : (spans.map Span.ordinal).Nodup) (hs : span ∈ spans)
    (hc : span.content = .ok token) : entries (references spans) span .control =
      if token.kind.isControl then [span.inner] else [] := by
  have hmem {text : String} : text ∈ entries (references spans) span .control ↔
      token.kind.isControl = true ∧ text = span.inner := by
    rw [mem_entries h hs]
    simp [Refers, hc]
  split
  · rename_i hk
    exact eq_singleton_of_nodup (nodup_entries h hs _) fun text => hmem.trans (and_iff_right hk)
  · rename_i hk
    exact List.eq_nil_iff_forall_not_mem.mpr fun text ht => hk (hmem.mp ht).1

/-- Nothing but the tag itself is listed for a text that cannot be read. -/
theorem entries_of_not_readable (h : (spans.map Span.ordinal).Nodup) (hs : span ∈ spans)
    (hc : span.content = .ok token) (hr : ¬token.Readable) (hk : kind ≠ .control) :
    entries (references spans) span kind = [] := by
  refine List.eq_nil_iff_forall_not_mem.mpr fun text ht => hr ?_
  have href := (mem_entries h hs).mp ht
  cases kind with
  | control => exact absurd rfl hk
  | function | path =>
    obtain ⟨other, e, ho, hb, -⟩ := href
    cases hc.symm.trans ho
    exact hb.readable

theorem entries_of_fault (h : (spans.map Span.ordinal).Nodup) (hs : span ∈ spans)
    (hc : span.content = .error fault) : entries (references spans) span kind = [] := by
  refine List.eq_nil_iff_forall_not_mem.mpr fun text ht => ?_
  have href := (mem_entries h hs).mp ht
  cases kind with
  | control | function | path =>
    obtain ⟨token, href⟩ := href
    simp [hc] at href

/-- What tags with different numbers refer to is listed in the strict order of the keys, so each
thing once and in one order only, whatever order the tags or the references come in. Each reference
is that of a tag, with its text and its place. For each tag the list has its own text once, if it
controls, each function that its expression calls once, and each path that its expression reads
once; no function and no path where the text cannot be read, and nothing where the tag is not
complete. -/
theorem references_spec (h : (spans.map Span.ordinal).Nodup) :
    ((references spans).Pairwise fun a b => a.key < b.key) ∧ (references spans).Nodup ∧
    (∀ found, found.Perm (spans.flatMap spanReferences) →
      Reference.sort found = references spans) ∧
    (∀ others, spans.Perm others → references others = references spans) ∧
    (∀ r ∈ references spans, ∃ span ∈ spans, Refers span r.kind r.expression ∧
      r = ⟨span.raw, r.kind, r.expression, span.ordinal, span.location⟩) ∧
    ∀ span ∈ spans,
      (∀ kind, (entries (references spans) span kind).Nodup ∧
        ∀ text, text ∈ entries (references spans) span kind ↔ Refers span kind text) ∧
      (∀ token, span.content = .ok token →
        (entries (references spans) span .control =
          if token.kind.isControl then [span.inner] else []) ∧
        (¬token.Readable → ∀ kind, kind ≠ .control → entries (references spans) span kind = [])) ∧
      ∀ fault, span.content = .error fault → ∀ kind, entries (references spans) span kind = [] := by
  have hkeys := pairwise_spanReferences h
  have hsorted : (references spans).Pairwise fun a b => a.key < b.key :=
    Reference.pairwise_lt_sort hkeys
  refine ⟨hsorted, hsorted.imp ?_, ?_, ?_, ?_, ?_⟩
  · rintro a _ hab rfl
    exact lt_irrefl _ hab
  · intro found hp
    exact Reference.sort_eq_of_perm hkeys hp.symm
  · intro others hp
    exact Reference.sort_eq_of_perm hkeys (hp.flatMap_right spanReferences)
  · intro r hr
    obtain ⟨span, hs, hr⟩ := List.mem_flatMap.mp ((Reference.sort_perm _).mem_iff.mp hr)
    exact ⟨span, hs, mem_spanReferences.mp hr⟩
  · intro span hs
    refine ⟨fun kind => ⟨nodup_entries h hs kind, fun text => mem_entries h hs⟩, ?_, ?_⟩
    · intro token hc
      exact ⟨entries_control h hs hc, fun hr kind hk => entries_of_not_readable h hs hc hr hk⟩
    · intro fault hc kind
      exact entries_of_fault h hs hc

/-- A tag that calls a function, one that cannot be read and one that nothing closes, found last to
first. -/
theorem references_spec_of_call :
    let span (ordinal : Nat) (raw inner : String) (content : Except SpanFault MarkupToken) : Span :=
      ⟨Document.mainPart, 0, 0, 20 * ordinal, 20 * ordinal + 17, raw, inner, ordinal, content⟩
    let call := span 0 "\x7b\x7bif f(a[i])\x7d\x7d" "if f(a[i])" (.ok ⟨.ifTag, "f(a[i])", 3⟩)
    let stray := span 1 "\x7b\x7bif #\x7d\x7d" "if #" (.ok ⟨.ifTag, "#", 3⟩)
    let cut := span 2 "\x7b\x7ba" "a" (.error .unclosed)
    let spans := [cut, stray, call]
    ((spans.map Span.ordinal).Nodup ∧ spans.Perm spans.reverse) ∧
    references spans.reverse = references spans ∧
    entries (references spans) call .control = ["if f(a[i])"] ∧
    entries (references spans) call .function = ["f"] ∧
    (entries (references spans) call .path).Perm ["a[]", "i"] ∧
    entries (references spans) stray .control = ["if #"] ∧
    entries (references spans) stray .path = [] ∧
    ∀ kind, entries (references spans) cut kind = [] := by
  intro span call stray cut spans
  let e : Expr := .call "f" [.index (.var "a") (.var "i")]
  have hname {s : String} {c : Char} (hs : s.toList = [c]) (hc : Text.startsName c = true)
      (hv : Value.ofName? s = none) : Expr.IsReference s := ⟨isName_of_all hs hc rfl, hv⟩
  have hparse : Expr.parse "f(a[i])" = .ok e := by
    have hdisplay : e.display = "f(a[i])" := by decide +kernel
    have hwritten : e.Written :=
      ⟨hname (c := 'f') rfl rfl rfl, ⟨hname (c := 'a') rfl rfl rfl, hname (c := 'i') rfl rfl rfl⟩,
        trivial⟩
    rw [← hdisplay]
    exact Expr.parse_display_of_written hwritten
  have hbears {e' : Expr} : MarkupToken.Bears ⟨.ifTag, "f(a[i])", 3⟩ e' ↔ e' = e := by
    constructor
    · rintro (⟨⟨-, h⟩, -⟩ | ⟨h, -⟩)
      · cases hparse.symm.trans h
        rfl
      · cases h
    · rintro rfl
      exact .value ⟨rfl, hparse⟩ rfl
  have hstray : ¬MarkupToken.Readable ⟨.ifTag, "#", 3⟩ := by
    rintro ⟨e', h⟩
    have hhash : Lexer.lexeme false '#' [] = .error (.unexpectedCharacter '#') := by rfl
    have hlex : Lexer.lexFrom 0 false "#".toList = .error ⟨0, .unexpectedCharacter '#'⟩ := by
      change Lexer.lexFrom 0 false ['#'] = _
      rw [Lexer.lexFrom_error (by decide) hhash]
    simp only [Expr.parse, Tokens.parse, Tokens.ofChars?, hlex] at h
    cases h
  have hordinals : (spans.map Span.ordinal).Nodup := by decide
  have hperm : spans.Perm spans.reverse := (List.reverse_perm spans).symm
  have hcall : call ∈ spans := by simp [spans]
  have hs : stray ∈ spans := by simp [spans]
  have hcut : cut ∈ spans := by simp [spans]
  obtain ⟨-, -, -, horder, -, hentries⟩ := references_spec hordinals
  obtain ⟨hlisted, hread, -⟩ := hentries call hcall
  obtain ⟨-, hunread, -⟩ := hentries stray hs
  obtain ⟨-, -, hfault⟩ := hentries cut hcut
  refine ⟨⟨hordinals, hperm⟩, horder _ hperm, (hread _ rfl).1, ?_, ?_, (hunread _ rfl).1,
    (hunread _ rfl).2 hstray .path (by decide), hfault _ rfl⟩
  · refine eq_singleton_of_nodup (hlisted .function).1 fun name => ?_
    rw [(hlisted .function).2, Refers]
    simp [call, span, hbears, e, Expr.calls, Expr.argCalls]
  · refine (List.perm_ext_iff_of_nodup (hlisted .path).1 (by decide)).mpr fun text => ?_
    have hreads : e.reads.map ReferencePath.display = ["a[]", "i"] := by decide +kernel
    rw [(hlisted .path).2, ← hreads, List.mem_map, Refers]
    simp [call, span, hbears, eq_comm]

end FormLetter.Validation
