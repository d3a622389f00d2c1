import FormLetter.Proofs.Document.Reader

namespace FormLetter.Document

/-- A name of the namespace for alternatives. -/
def Names (scope : Xml.Scope) (tag : Xml.Tag) (localName : String) : Prop :=
  resolve scope tag.name = (some compatibilitySpace, localName)

instance : Decidable (Names scope tag localName) :=
  inferInstanceAs (Decidable (_ = _))

/-- What is read of a node in a block of alternatives. -/
inductive Piece where
  /-- The content of a choice. -/
  | choice (found : List Event)
  | fallback
  /-- What stands between the branches. -/
  | between (found : List Event)
  deriving DecidableEq

namespace Piece

def events : Piece → List Event
  | choice found => found
  | fallback => []
  | between found => found

def isChoice : Piece → Bool
  | choice _ => true
  | fallback | between _ => false

def isBranch : Piece → Bool
  | choice _ | fallback => true
  | between _ => false

end Piece

/-- The node is a choice or a fallback. -/
def BranchIn (scopes : List Xml.Scope) : Xml.Node → Prop
  | .element tag _ | .empty tag => ∃ scope, (scopes.headD []).enter? tag = some scope ∧
    (Names scope tag "Choice" ∨ Names scope tag "Fallback")
  | .text _ | .characters _ => False

/-- What is read of the nodes in a block, from some scopes on, and the scopes after it. -/
inductive Pieces : List Xml.Scope → List Xml.Node → List Piece → List Xml.Scope → Prop where
  | nil (scopes : List Xml.Scope) : Pieces scopes [] [] scopes
  | choice {inner : List Xml.Node} (enters : (scopes.headD []).enter? tag = some scope)
    (names : Names scope tag "Choice")
    (reads : (Reader.reading (scope :: scopes)).run? (Xml.eventsOf inner) =
      some (found, .reading within))
    (rest : Pieces within.tail nodes pieces last) :
    Pieces scopes (.element tag inner :: nodes) (.choice found :: pieces) last
  | emptyChoice (enters : (scopes.headD []).enter? tag = some scope)
    (names : Names scope tag "Choice") (rest : Pieces scopes nodes pieces last) :
    Pieces scopes (.empty tag :: nodes) (.choice [] :: pieces) last
  | fallback {inner : List Xml.Node} (enters : (scopes.headD []).enter? tag = some scope)
    (names : Names scope tag "Fallback") (rest : Pieces (scope :: scopes) nodes pieces last) :
    Pieces scopes (.element tag inner :: nodes) (.fallback :: pieces) last
  | emptyFallback (enters : (scopes.headD []).enter? tag = some scope)
    (names : Names scope tag "Fallback") (rest : Pieces scopes nodes pieces last) :
    Pieces scopes (.empty tag :: nodes) (.fallback :: pieces) last
  | between {node : Xml.Node} (other : ¬BranchIn scopes node)
    (reads : (Reader.reading scopes).run? node.events = some (found, .reading next))
    (rest : Pieces next nodes pieces last) :
    Pieces scopes (node :: nodes) (.between found :: pieces) last

/-- In the text of a part stands a block of alternatives that is not in a fallback element: what is
read before it, of the nodes in it, and after it. -/
inductive BlockIn (source : List Char) : List Event → List Piece → List Event → Prop where
  | intro (events : Xml.events? source =
      some (before ++ ((Xml.Node.element tag nodes).events ++ after)))
    (reached : (Reader.reading []).run? before = some (found, .reading scopes))
    (enters : (scopes.headD []).enter? tag = some scope)
    (names : Names scope tag "AlternateContent")
    (holds : Pieces (scope :: scopes) nodes pieces last)
    (left : events? last.tail after = some rest) : BlockIn source found pieces rest

/-- A node of a block is a branch, and leaving out what is read of it changes the paragraphs. -/
structure Contributes (found : List Event) (pieces : List Piece) (rest : List Event) (i : ℕ) :
    Prop where
  branch : ∃ piece, pieces[i]? = some piece ∧ piece.isBranch = true
  changes : paragraphs? (found ++ (pieces.eraseIdx i).flatMap Piece.events ++ rest) ≠
    paragraphs? (found ++ pieces.flatMap Piece.events ++ rest)

/-- The collector is left in the same state by both. -/
def SameRead (events others : List Event) : Prop :=
  ∀ c : Collector, events.foldlM Collector.step? c = others.foldlM Collector.step? c

theorem SameRead.refl (events : List Event) : SameRead events events :=
  fun _ => rfl

theorem SameRead.append (h : SameRead events others) (h' : SameRead more rest) :
    SameRead (events ++ more) (others ++ rest) := by
  intro c
  rw [List.foldlM_append, List.foldlM_append, h c]
  exact congrArg _ (funext h')

theorem SameRead.paragraphs? (h : SameRead events others) :
    paragraphs? events = paragraphs? others := by
  rw [Document.paragraphs?, Document.paragraphs?, h]

/-- The tags of other elements say nothing. -/
theorem sameRead_wrapped (events : List Event) :
    SameRead ([.start .other] ++ (events ++ [.stop .other])) events := by
  intro c
  change (events ++ [Event.stop .other]).foldlM Collector.step? c = _
  rw [List.foldlM_append]
  exact Option.bind_fun_some _

theorem Names.ofName (h : Names scope tag localName)
    (hname : localName ∉ ["p", "r", "t", "tab", "br", "cr"]) (other : Xml.Scope) :
    Element.ofName other tag.name = .other := by
  have hlocal : (resolve other tag.name).2 = localName := congrArg Prod.snd h
  obtain ⟨space, hresolved⟩ : ∃ space, resolve other tag.name = (space, localName) :=
    ⟨_, Prod.ext rfl hlocal⟩
  simp only [List.mem_cons, not_or] at hname
  simp only [Element.ofName, hresolved]
  split
  · split <;> simp_all
  · rfl

theorem Names.isFallback (h : Names scope tag "Fallback") : isFallback scope tag.name = true :=
  decide_eq_true h

theorem Names.not_isFallback (h : Names scope tag localName) (hname : localName ≠ "Fallback") :
    Document.isFallback scope tag.name = false := by
  refine decide_eq_false fun hfallback => hname ?_
  exact congrArg Prod.snd (h.symm.trans hfallback)

/-- A fallback element is none of a word processor. -/
theorem not_isFallback_of_ofName (h : Element.ofName scope name = element)
    (helement : element ≠ .other) : isFallback scope name = false := by
  by_contra hfallback
  have hnames : Names scope ⟨name, []⟩ "Fallback" :=
    of_decide_eq_true (Bool.of_not_eq_false hfallback)
  exact helement (h.symm.trans (hnames.ofName (by decide) scope))

namespace Reader

theorem step?_word {tag : Xml.Tag} (hscope : (scopes.headD []).enter? tag = some scope)
    (h : Element.ofName scope tag.name = element) (helement : element ≠ .other) :
    step? (reading scopes) (.start tag) = some ([.start element], reading (scope :: scopes)) := by
  rw [step?_start hscope (not_isFallback_of_ofName h helement), h]

/-- A block or a choice is read as what is in it. -/
theorem run?_named {inner : List Xml.Node} (hscope : (scopes.headD []).enter? tag = some scope)
    (h : Names scope tag localName)
    (hname : localName ∉ ["p", "r", "t", "tab", "br", "cr", "Fallback"])
    (hinner : run? (reading (scope :: scopes)) (Xml.eventsOf inner) =
      some (found, reading within)) :
    run? (reading scopes) (Xml.Node.element tag inner).events =
      some ([.start .other] ++ (found ++ [.stop .other]), reading within.tail) := by
  have hother (other : Xml.Scope) : Element.ofName other tag.name = .other :=
    h.ofName (fun hm => hname (by simp_all)) other
  have hstart := step?_start hscope (h.not_isFallback fun he => hname (by simp [he]))
  have hstop : step? (reading within) (.stop tag.name) =
      some ([.stop .other], reading within.tail) := by
    rw [step?, hother]
  rw [hother] at hstart
  exact run?_element hstart hinner hstop

theorem run?_namedEmpty (hscope : (scopes.headD []).enter? tag = some scope)
    (h : Names scope tag localName) (hname : localName ∉ ["p", "r", "t", "tab", "br", "cr"]) :
    run? (reading scopes) (Xml.Node.empty tag).events =
      some ([.empty .other], reading scopes) := by
  rw [Xml.Node.events, run?_cons (step?_empty hscope), h.ofName hname]
  rfl

end Reader

/-- One node of a block and then the others. -/
theorem exists_run?_cons {node : Xml.Node}
    (hnode : Reader.run? (.reading scopes) node.events = some (found, .reading next))
    (hread : SameRead found piece.events)
    (hrest : ∃ found,
      Reader.run? (.reading next) (Xml.eventsOf nodes) = some (found, .reading last) ∧
        SameRead found (pieces.flatMap Piece.events)) :
    ∃ found, Reader.run? (.reading scopes) (Xml.eventsOf (node :: nodes)) =
      some (found, .reading last) ∧ SameRead found ((piece :: pieces).flatMap Piece.events) := by
  obtain ⟨more, hrun, hmore⟩ := hrest
  refine ⟨found ++ more, ?_, ?_⟩
  · rw [Xml.eventsOf, Reader.run?_append hnode, hrun]
    rfl
  · rw [List.flatMap_cons]
    exact hread.append hmore

theorem Pieces.exists_run? (h : Pieces scopes nodes pieces last) :
    ∃ found, Reader.run? (.reading scopes) (Xml.eventsOf nodes) = some (found, .reading last) ∧
      SameRead found (pieces.flatMap Piece.events) := by
  induction h with
  | nil scopes => exact ⟨[], rfl, fun _ => rfl⟩
  | choice enters names reads rest ih =>
    exact exists_run?_cons (Reader.run?_named enters names (by decide) reads)
      (sameRead_wrapped _) ih
  | emptyChoice enters names rest ih =>
    exact exists_run?_cons (Reader.run?_namedEmpty enters names (by decide)) (fun _ => rfl) ih
  | fallback enters names rest ih =>
    exact exists_run?_cons (Reader.run?_fallback enters names.isFallback _) (fun _ => rfl) ih
  | emptyFallback enters names rest ih =>
    exact exists_run?_cons (Reader.run?_namedEmpty enters names (by decide)) (fun _ => rfl) ih
  | between other reads rest ih => exact exists_run?_cons reads (fun _ => rfl) ih

theorem SameRead.trans (h : SameRead events others) (h' : SameRead others more) :
    SameRead events more :=
  fun c => (h c).trans (h' c)

/-- Whatever stands in a block, if it can be read. -/
theorem exists_pieces (h : Reader.run? (.reading scopes) (Xml.eventsOf nodes) =
    some (found, .reading last)) : ∃ pieces, Pieces scopes nodes pieces last := by
  induction nodes generalizing scopes found with
  | nil =>
    cases h
    exact ⟨[], .nil last⟩
  | cons node nodes ih =>
    obtain ⟨first, next, rest, hnode, hrest⟩ := Reader.run?_append_eq_some h
    obtain ⟨between, rfl⟩ := Reader.exists_reading node hnode
    obtain ⟨pieces, hpieces⟩ := ih hrest
    by_cases hbranch : BranchIn scopes node
    · cases node with
      | element tag inner =>
        obtain ⟨scope, enters, hchoice | hfallback⟩ := hbranch
        · obtain ⟨held, within, hinner, rfl⟩ :=
            Reader.run?_element_eq_some enters (hchoice.not_isFallback (by decide)) hnode
          exact ⟨.choice held :: pieces, .choice enters hchoice hinner hpieces⟩
        · rw [Reader.run?_fallback enters hfallback.isFallback] at hnode
          cases hnode
          exact ⟨.fallback :: pieces, .fallback enters hfallback hpieces⟩
      | empty tag =>
        obtain ⟨scope, enters, hchoice | hfallback⟩ := hbranch
        · rw [Reader.run?_namedEmpty enters hchoice (by decide)] at hnode
          cases hnode
          exact ⟨.choice [] :: pieces, .emptyChoice enters hchoice hpieces⟩
        · rw [Reader.run?_namedEmpty enters hfallback (by decide)] at hnode
          cases hnode
          exact ⟨.fallback :: pieces, .emptyFallback enters hfallback hpieces⟩
      | text | characters => exact hbranch.elim
    · exact ⟨.between first :: pieces, .between hbranch hnode hpieces⟩

/-- Every block that is reached, in a part that can be read. -/
theorem exists_blockIn (hread : (readEvents? source).isSome = true)
    (hevents : Xml.events? source = some (before ++ ((Xml.Node.element tag nodes).events ++ after)))
    (hreached : (Reader.reading []).run? before = some (found, .reading scopes))
    (henters : (scopes.headD []).enter? tag = some scope)
    (hnames : Names scope tag "AlternateContent") :
    ∃ pieces last rest, Pieces (scope :: scopes) nodes pieces last ∧
      BlockIn source found pieces rest := by
  obtain ⟨all, hall⟩ := Option.isSome_iff_exists.mp hread
  rw [readEvents?, hevents, Option.bind_some] at hall
  obtain ⟨held, last, rest, hblock, hrest⟩ := Reader.exists_run?_of_events? hreached hall
  obtain ⟨last, rfl⟩ := Reader.exists_reading _ hblock
  obtain ⟨held, within, hinner, rfl⟩ :=
    Reader.run?_element_eq_some henters (hnames.not_isFallback (by decide)) hblock
  obtain ⟨pieces, hpieces⟩ := exists_pieces hinner
  rw [Reader.run?_reading] at hrest
  exact ⟨pieces, within, rest, hpieces, .intro hevents hreached henters hnames hpieces hrest⟩

theorem readParagraphs?_of_decode? (hsource : Text.decode? octets = some source) :
    readParagraphs? octets = (readEvents? source).bind paragraphs? := by
  rw [readParagraphs?, hsource]
  rfl

/-- A part with a block is read as one that has what the choices hold in place of the block. -/
theorem BlockIn.exists_readEvents? (h : BlockIn source found pieces rest) :
    ∃ held, readEvents? source = some (found ++ (held ++ rest)) ∧
      SameRead held (pieces.flatMap Piece.events) := by
  obtain ⟨hevents, hreached, henters, hnames, hholds, hleft⟩ := h
  obtain ⟨held, hrun, hsame⟩ := hholds.exists_run?
  have hblock := Reader.run?_named henters hnames (by decide) hrun
  refine ⟨_, ?_, (sameRead_wrapped held).trans hsame⟩
  rw [readEvents?, hevents, Option.bind_some, Reader.events?_append_reading hreached,
    Reader.events?_append_reading hblock, hleft]
  rfl

theorem BlockIn.readParagraphs? (hsource : Text.decode? octets = some source)
    (h : BlockIn source found pieces rest) :
    readParagraphs? octets = paragraphs? (found ++ pieces.flatMap Piece.events ++ rest) := by
  obtain ⟨held, hheld, hread⟩ := h.exists_readEvents?
  have hsame : SameRead (found ++ (held ++ rest))
      (found ++ (pieces.flatMap Piece.events ++ rest)) :=
    (SameRead.refl found).append (hread.append (SameRead.refl rest))
  rw [readParagraphs?_of_decode? hsource, hheld, Option.bind_some, hsame.paragraphs?,
    List.append_assoc]

/-- A node of which nothing is read makes no difference. -/
theorem flatMap_eraseIdx {pieces : List Piece} (h : pieces[i]? = some piece)
    (hnone : piece.events = []) :
    (pieces.eraseIdx i).flatMap Piece.events = pieces.flatMap Piece.events := by
  induction pieces generalizing i with
  | nil => rfl
  | cons first pieces ih =>
    cases i with
    | zero =>
      cases h
      simp [hnone]
    | succ i =>
      rw [List.eraseIdx_cons_succ, List.flatMap_cons, List.flatMap_cons, ih h]

theorem countP_isChoice_pos {pieces : List Piece} {i : ℕ} {piece : Piece}
    (h : pieces[i]? = some piece) (hpiece : piece.isChoice = true) :
    0 < pieces.countP Piece.isChoice :=
  List.countP_pos_iff.mpr ⟨piece, List.mem_of_getElem? h, hpiece⟩

theorem eq_of_countP_le_one {pieces : List Piece} {i j : ℕ} {a b : Piece}
    (h : pieces.countP Piece.isChoice ≤ 1) (hi : pieces[i]? = some a) (ha : a.isChoice = true)
    (hj : pieces[j]? = some b) (hb : b.isChoice = true) : i = j := by
  induction pieces generalizing i j with
  | nil => cases hi
  | cons first pieces ih =>
    rw [List.countP_cons] at h
    match i, j with
    | 0, 0 => rfl
    | 0, j + 1 =>
      cases hi
      have hlater : 0 < pieces.countP Piece.isChoice := countP_isChoice_pos hj hb
      rw [if_pos ha] at h
      omega
    | i + 1, 0 =>
      cases hj
      have hlater : 0 < pieces.countP Piece.isChoice := countP_isChoice_pos hi ha
      rw [if_pos hb] at h
      omega
    | i + 1, j + 1 => exact congrArg (· + 1) (ih (by omega) hi hj)

/-- In a part that is text, what is read of a block of alternatives is what its choices hold, one
after the other, and nothing of its fallbacks. So one branch at most counts if there is one choice
at most. Of a block in a fallback element nothing is read. -/
theorem alternatives_of_part (hsource : Text.decode? octets = some source) :
    (∀ before tag nodes after found scopes scope, (readEvents? source).isSome = true →
      Xml.events? source = some (before ++ ((Xml.Node.element tag nodes).events ++ after)) →
      (Reader.reading []).run? before = some (found, .reading scopes) →
      (scopes.headD []).enter? tag = some scope → Names scope tag "AlternateContent" →
      ∃ pieces last rest, Pieces (scope :: scopes) nodes pieces last ∧
        BlockIn source found pieces rest) ∧
    (∀ found pieces rest, BlockIn source found pieces rest →
      readParagraphs? octets = paragraphs? (found ++ pieces.flatMap Piece.events ++ rest) ∧
      (∀ i, pieces[i]? = some .fallback → ¬Contributes found pieces rest i) ∧
      (pieces.countP Piece.isChoice ≤ 1 → ∀ i j, Contributes found pieces rest i →
        Contributes found pieces rest j → i = j)) ∧
    ∀ before after found scopes name depth, ∀ node : Xml.Node,
      Xml.events? source = some (before ++ (node.events ++ after)) →
      (Reader.reading []).run? before = some (found, .skipping scopes name depth) →
      readParagraphs? octets = (events? [] (before ++ after)).bind paragraphs? := by
  refine ⟨?_, fun found pieces rest h => ?_, ?_⟩
  · intro before tag nodes after found scopes scope hread hevents hreached henters hnames
    exact exists_blockIn hread hevents hreached henters hnames
  · have hnone (i : ℕ) (hi : pieces[i]? = some .fallback) : ¬Contributes found pieces rest i := by
      intro h
      exact h.changes (by rw [flatMap_eraseIdx hi rfl])
    have hchoice (i : ℕ) (h : Contributes found pieces rest i) :
        ∃ piece, pieces[i]? = some piece ∧ piece.isChoice = true := by
      obtain ⟨piece, hi, hbranch⟩ := h.branch
      cases piece with
      | choice held => exact ⟨_, hi, rfl⟩
      | fallback => exact absurd h (hnone i hi)
      | between => cases hbranch
    refine ⟨h.readParagraphs? hsource, hnone, ?_⟩
    intro hone i j hi hj
    obtain ⟨a, hi, ha⟩ := hchoice i hi
    obtain ⟨b, hj, hb⟩ := hchoice j hj
    exact eq_of_countP_le_one hone hi ha hj hb
  · intro before after found scopes name depth node hevents hskips
    rw [readParagraphs?_of_decode? hsource, readEvents?, hevents, Option.bind_some,
      Reader.events?_append hskips, Reader.events?_append hskips,
      Reader.run?_append (Reader.run?_skipped node scopes name depth)]
    simp

/-- A paragraph tag, which binds a qualifier for names of blocks. -/
def bindingTag : Xml.Tag :=
  ⟨"w:p".toList,
    [⟨"xmlns:w".toList, "http://purl.oclc.org/ooxml/wordprocessingml/main".toList⟩,
      ⟨"xmlns:c".toList, compatibilitySpace⟩]⟩

def bindingScope : Xml.Scope :=
  [⟨some "c".toList, compatibilitySpace⟩,
    ⟨some "w".toList, "http://purl.oclc.org/ooxml/wordprocessingml/main".toList⟩]

/-- An element without attributes. -/
def bare (name : String) (inner : List Xml.Node) : Xml.Node := .element ⟨name.toList, []⟩ inner

def textChoice : Xml.Node := bare "c:Choice" [bare "w:t" [.text ['x']]]

/-- A block in a run. -/
def inRun (branches : List Xml.Node) : Xml.Node :=
  .element bindingTag [bare "w:r" [bare "c:AlternateContent" branches]]

def inRunPart (branches : List Char) : List Char :=
  "<w:p xmlns:w='".toList ++ "http://purl.oclc.org/ooxml/wordprocessingml/main".toList ++
    "' xmlns:c='".toList ++ compatibilitySpace ++ "'><w:r><c:AlternateContent>".toList ++
    branches ++ "</c:AlternateContent></w:r></w:p>".toList

def textChoicePart : List Char := "<c:Choice><w:t>x</w:t></c:Choice>".toList

theorem enter?_bindingTag : Xml.Scope.enter? [] bindingTag = some bindingScope := by
  decide +kernel

theorem ofName_bindingScope :
    Element.ofName bindingScope "w:p".toList = .paragraph ∧
    Element.ofName bindingScope "w:r".toList = .run ∧
    Element.ofName bindingScope "w:t".toList = .text := by
  decide +kernel

theorem names_bindingScope :
    Names bindingScope ⟨"c:AlternateContent".toList, []⟩ "AlternateContent" ∧
    Names bindingScope ⟨"c:Choice".toList, []⟩ "Choice" ∧
    Names bindingScope ⟨"c:Fallback".toList, []⟩ "Fallback" := by
  decide +kernel

theorem events?_inRun (h : Xml.flatEvents? source = some (inRun branches).events) :
    Xml.events? source = some (inRun branches).events := by
  have hforest : Xml.flatEvents? source = some (Xml.eventsOf [inRun branches]) := by
    rw [h, Xml.eventsOf, Xml.eventsOf, List.append_nil]
  rw [Xml.events?_of_forest hforest, Xml.eventsOf, Xml.eventsOf, List.append_nil]

theorem events?_block (h : Xml.flatEvents? source = some (inRun branches).events) :
    Xml.events? source = some ([.start bindingTag, .start ⟨"w:r".toList, []⟩] ++
      ((bare "c:AlternateContent" branches).events ++
        [.stop "w:r".toList, .stop "w:p".toList])) := by
  rw [events?_inRun h]
  simp [inRun, bare, bindingTag, Xml.eventsOf, Xml.Node.events]

theorem reached_block : (Reader.reading []).run? [.start bindingTag, .start ⟨"w:r".toList, []⟩] =
    some ([.start .paragraph, .start .run], .reading [bindingScope, bindingScope]) := by
  obtain ⟨hp, hr, -⟩ := ofName_bindingScope
  have hparagraph : Reader.step? (.reading []) (.start bindingTag) =
      some ([.start .paragraph], .reading [bindingScope]) :=
    Reader.step?_word enter?_bindingTag hp nofun
  have hrun : Reader.step? (.reading [bindingScope]) (.start ⟨"w:r".toList, []⟩) =
      some ([.start .run], .reading [bindingScope, bindingScope]) :=
    Reader.step?_word rfl hr nofun
  rw [Reader.run?_cons hparagraph, Reader.run?_cons hrun]
  rfl

theorem blockIn_inRun (hevents : Xml.flatEvents? source = some (inRun branches).events)
    (holds : Pieces [bindingScope, bindingScope, bindingScope] branches pieces last)
    (hlast : last.tail = bindingScope :: bindingScope :: more) :
    BlockIn source [.start .paragraph, .start .run] pieces [.stop .run, .stop .paragraph] := by
  obtain ⟨hp, hr, -⟩ := ofName_bindingScope
  have left : events? last.tail [.stop "w:r".toList, .stop "w:p".toList] =
      some [.stop .run, .stop .paragraph] := by
    rw [hlast, events?_stop, events?_stop, events?, List.tail_cons, List.headD_cons, hr,
      List.headD_cons, hp]
    rfl
  exact .intro (events?_block hevents) reached_block rfl names_bindingScope.1 holds left

/-- What is read of a choice with text. -/
def textRead : Piece := .choice [.start .text, .text ['x'], .stop .text]

theorem Pieces.textChoice
    (rest : Pieces [bindingScope, bindingScope, bindingScope] nodes pieces last) :
    Pieces [bindingScope, bindingScope, bindingScope] (textChoice :: nodes) (textRead :: pieces)
      last := by
  obtain ⟨-, -, ht⟩ := ofName_bindingScope
  let scopes := [bindingScope, bindingScope, bindingScope, bindingScope]
  have hstart : Reader.step? (.reading scopes) (.start ⟨"w:t".toList, []⟩) =
      some ([.start .text], .reading (bindingScope :: scopes)) :=
    Reader.step?_word rfl ht nofun
  have hstop : Reader.step? (.reading (bindingScope :: scopes)) (.stop "w:t".toList) =
      some ([.stop .text], .reading scopes) := by
    rw [Reader.step?, List.headD_cons, ht, List.tail_cons]
  have htext : (Reader.reading (bindingScope :: scopes)).run? (Xml.eventsOf [.text ['x']]) =
      some ([.text ['x']], .reading (bindingScope :: scopes)) := rfl
  have reads : (Reader.reading scopes).run? (Xml.eventsOf [bare "w:t" [.text ['x']]]) =
      some ([.start .text, .text ['x'], .stop .text], .reading scopes) := by
    rw [Xml.eventsOf, bare, Reader.run?_append (Reader.run?_element hstart htext hstop)]
    rfl
  exact .choice rfl names_bindingScope.2.1 reads rest

/-- A block whose fallback element holds another block. -/
def fallbackPart : List Char :=
  inRunPart (textChoicePart ++ " <c:Fallback><c:AlternateContent>".toList ++ textChoicePart ++
    "</c:AlternateContent></c:Fallback>".toList)

/-- Of a block with a choice and a fallback, only the choice counts, and nothing is read of the
block in the fallback. -/
theorem alternatives_of_part_of_fallback :
    let octets := fallbackPart.map fun c => c.toNat.toUInt8
    let nested := bare "c:AlternateContent" [textChoice]
    let branches := [textChoice, .text [' '], bare "c:Fallback" [nested]]
    let pieces := [textRead, .between [.text [' ']], .fallback]
    let before := [.start bindingTag, .start ⟨"w:r".toList, []⟩,
      .start ⟨"c:AlternateContent".toList, []⟩] ++ textChoice.events ++
        [.text [' '], .start ⟨"c:Fallback".toList, []⟩]
    let after := [.stop "c:Fallback".toList, .stop "c:AlternateContent".toList,
      .stop "w:r".toList, .stop "w:p".toList]
    (Text.decode? octets = some fallbackPart ∧ (readEvents? fallbackPart).isSome = true ∧
      BlockIn fallbackPart [.start .paragraph, .start .run] pieces [.stop .run, .stop .paragraph] ∧
      pieces.countP Piece.isChoice ≤ 1) ∧
    (∃ pieces last rest, Pieces [bindingScope, bindingScope, bindingScope] branches pieces last ∧
      BlockIn fallbackPart [.start .paragraph, .start .run] pieces rest) ∧
    readParagraphs? octets = some [⟨0, [⟨0, ['x']⟩]⟩] ∧
    ¬Contributes [.start .paragraph, .start .run] pieces [.stop .run, .stop .paragraph] 2 ∧
    (∀ i, Contributes [.start .paragraph, .start .run] pieces [.stop .run, .stop .paragraph] i →
      i = 0) ∧
    readParagraphs? octets = (events? [] (before ++ after)).bind paragraphs? := by
  intro octets nested branches pieces before after
  have hsource : Text.decode? octets = some fallbackPart := by decide +kernel
  have hevents : Xml.flatEvents? fallbackPart = some (inRun branches).events := by
    decide +kernel
  have hblock : BlockIn fallbackPart [.start .paragraph, .start .run] pieces
      [.stop .run, .stop .paragraph] :=
    blockIn_inRun hevents
      (.textChoice (.between id rfl (.fallback rfl names_bindingScope.2.2 (.nil _)))) rfl
  obtain ⟨held, hheld, -⟩ := hblock.exists_readEvents?
  have hsome : (readEvents? fallbackPart).isSome = true := by rw [hheld, Option.isSome_some]
  obtain ⟨hblocks, hread, hskipped⟩ := alternatives_of_part hsource
  obtain ⟨hread, hnone, hone⟩ := hread _ _ _ hblock
  have hcounts : Contributes [.start .paragraph, .start .run] pieces [.stop .run, .stop .paragraph]
      0 := ⟨⟨_, rfl, rfl⟩, by decide +kernel⟩
  refine ⟨⟨hsource, hsome, hblock, by decide⟩, ?_, ?_, hnone 2 rfl, ?_, ?_⟩
  · exact hblocks _ _ _ _ _ _ _ hsome (events?_block hevents) reached_block rfl names_bindingScope.1
  · rw [hread]
    decide +kernel
  · intro i hi
    exact hone (by decide) i 0 hi hcounts
  · have hsplit : Xml.events? fallbackPart = some (before ++ (nested.events ++ after)) := by
      rw [events?_inRun hevents]
      rfl
    have hskips : (Reader.reading []).run? before =
        some ([.start .paragraph, .start .run, .start .other, .start .other, .start .text,
          .text ['x'], .stop .text, .stop .other, .text [' ']],
          .skipping [bindingScope, bindingScope, bindingScope, bindingScope] "c:Fallback".toList
            0) := by
      decide +kernel
    exact hskipped _ _ _ _ _ _ nested hsplit hskips

/-- A block with two choices that say the same. -/
def choicesPart : List Char :=
  inRunPart (textChoicePart ++ textChoicePart)

/-- All choices of a block are read, so that its text is there twice. -/
theorem two_choices_contribute :
    (¬∀ octets source found pieces rest, Text.decode? octets = some source →
      BlockIn source found pieces rest → ∀ i j, Contributes found pieces rest i →
        Contributes found pieces rest j → i = j) ∧
    readParagraphs? (choicesPart.map fun c => c.toNat.toUInt8) =
      some [⟨0, [⟨0, ['x', 'x']⟩]⟩] := by
  have hsource : Text.decode? (choicesPart.map fun c => c.toNat.toUInt8) = some choicesPart := by
    decide +kernel
  have hevents : Xml.flatEvents? choicesPart = some (inRun [textChoice, textChoice]).events := by
    decide +kernel
  have hblock : BlockIn choicesPart [.start .paragraph, .start .run] [textRead, textRead]
      [.stop .run, .stop .paragraph] :=
    blockIn_inRun hevents (.textChoice (.textChoice (.nil _))) rfl
  constructor
  · intro h
    have hfirst : Contributes [.start .paragraph, .start .run] [textRead, textRead]
        [.stop .run, .stop .paragraph] 0 := ⟨⟨_, rfl, rfl⟩, by decide +kernel⟩
    have hsecond : Contributes [.start .paragraph, .start .run] [textRead, textRead]
        [.stop .run, .stop .paragraph] 1 := ⟨⟨_, rfl, rfl⟩, by decide +kernel⟩
    cases h _ _ _ _ _ hsource hblock 0 1 hfirst hsecond
  · rw [hblock.readParagraphs? hsource]
    decide +kernel

end FormLetter.Document
