import FormLetter.Proofs.Document.Collecting
import FormLetter.Proofs.Document.Names

namespace FormLetter

namespace Xml

/-- An element with what is in it, an empty element, or text. -/
inductive Node where
  | element (tag : Tag) (inner : List Node)
  | empty (tag : Tag)
  | text (raw : List Char)
  | characters (raw : List Char)

mutual
def Node.events : Node → List Event
  | .element tag inner => .start tag :: (eventsOf inner ++ [.stop tag.name])
  | .empty tag => [.empty tag]
  | .text raw => [.text raw]
  | .characters raw => [.characters raw]
termination_by structural node => node

def eventsOf : List Node → List Event
  | [] => []
  | node :: rest => node.events ++ eventsOf rest
termination_by structural nodes => nodes
end

mutual
theorem Node.nested_events : (node : Node) → (names : List (List Char)) → (rest : List Event) →
    nested names (node.events ++ rest) = nested names rest
  | .element tag inner, names, rest => by
    simp [Node.events, nested, nested_eventsOf inner]
  | .empty _, names, _ | .text _, names, _ | .characters _, names, _ => by
    cases names <;> rfl
termination_by structural node => node

/-- The elements of a forest change nothing for what follows it. -/
theorem nested_eventsOf : (nodes : List Node) → (names : List (List Char)) → (rest : List Event) →
    nested names (eventsOf nodes ++ rest) = nested names rest
  | [], _, _ => rfl
  | node :: nodes, names, rest => by
    rw [eventsOf, List.append_assoc, node.nested_events, nested_eventsOf nodes]
termination_by structural nodes => nodes
end

/-- The events of a forest are those of a well formed text. -/
theorem events?_of_forest (h : flatEvents? source = some (eventsOf nodes)) :
    events? source = some (eventsOf nodes) := by
  have hnested : nested [] (eventsOf nodes) = true := by
    rw [← List.append_nil (eventsOf nodes), nested_eventsOf]
    rfl
  rw [events?, h, Option.filter_some, if_pos hnested]

end Xml

namespace Document

/-- What nodes hold, their names resolved, from some scopes on, and the scopes that are then entered
and not left. Fallback elements are left out with all that is in them. The scope of one is left too
late, so that an end tag has to stand for the same element as the start tag. -/
inductive Holds : List Xml.Scope → List Xml.Node → List Content → List Xml.Scope → Prop where
  | nil (scopes : List Xml.Scope) : Holds scopes [] [] scopes
  | fallback {inner : List Xml.Node} (enters : (scopes.headD []).enter? tag = some scope)
    (names : NamesFallback (resolve scope tag.name))
    (rest : Holds (scope :: scopes) nodes contents last) :
    Holds scopes (.element tag inner :: nodes) contents last
  | element {inner : List Xml.Node} (enters : (scopes.headD []).enter? tag = some scope)
    (kept : ¬NamesFallback (resolve scope tag.name)) (opens : e.Named (resolve scope tag.name))
    (holds : Holds (scope :: scopes) inner held within)
    (closes : e.Named (resolve (within.headD []) tag.name))
    (rest : Holds within.tail nodes contents last) :
    Holds scopes (.element tag inner :: nodes) (.element e held :: contents) last
  | empty (enters : (scopes.headD []).enter? tag = some scope)
    (named : e.Named (resolve scope tag.name)) (rest : Holds scopes nodes contents last) :
    Holds scopes (.empty tag :: nodes) (.empty e :: contents) last
  | text (raw : List Char) (rest : Holds scopes nodes contents last) :
    Holds scopes (.text raw :: nodes) (.text raw :: contents) last
  | characters (raw : List Char) (rest : Holds scopes nodes contents last) :
    Holds scopes (.characters raw :: nodes) (.characters raw :: contents) last

/-- No attribute of a tag declares a namespace. -/
def Declarationless (tag : Xml.Tag) : Prop :=
  ∀ a ∈ tag.attributes, Xml.declared? a.name = none

theorem Declarationless.enter? (h : Declarationless tag) (scope : Xml.Scope) :
    scope.enter? tag = some scope := by
  obtain ⟨name, attributes⟩ := tag
  induction attributes with
  | nil => rfl
  | cons a attributes ih =>
    have hfirst : scope.declare? a = some scope := by
      rw [Xml.Scope.declare?, h a List.mem_cons_self]
    exact (congrArg (· >>= _) hfirst).trans (ih fun b hb => h b (List.mem_cons_of_mem _ hb))

mutual
/-- No element of a node declares a namespace. -/
def NodeDeclarationless : Xml.Node → Prop
  | .element tag inner => Declarationless tag ∧ NodesDeclarationless inner
  | .empty tag => Declarationless tag
  | .text _ | .characters _ => True
termination_by structural node => node

def NodesDeclarationless : List Xml.Node → Prop
  | [] => True
  | node :: rest => NodeDeclarationless node ∧ NodesDeclarationless rest
termination_by structural nodes => nodes
end

mutual
/-- What a node holds with all names resolved in one scope, and without fallback elements. -/
def contentIn (scope : Xml.Scope) : Xml.Node → List Content
  | .element tag inner =>
    if isFallback scope tag.name then []
    else [.element (.ofName scope tag.name) (contentsIn scope inner)]
  | .empty tag => [.empty (.ofName scope tag.name)]
  | .text raw => [.text raw]
  | .characters raw => [.characters raw]
termination_by structural node => node

def contentsIn (scope : Xml.Scope) : List Xml.Node → List Content
  | [] => []
  | node :: rest => contentIn scope node ++ contentsIn scope rest
termination_by structural nodes => nodes
end

theorem replicate_headD_enter? (h : Declarationless tag) (scope : Xml.Scope) (n : Nat) :
    ((List.replicate (n + 1) scope).headD []).enter? tag = some scope :=
  h.enter? scope

-- A fallback element leaves its scope entered, which is then the same as those around it.
mutual
theorem holds_cons_of_declarationless (scope : Xml.Scope) : (node : Xml.Node) →
    NodeDeclarationless node → (n : Nat) → ∃ m, n ≤ m ∧ ∀ {nodes contents last},
      Holds (List.replicate (m + 1) scope) nodes contents last →
      Holds (List.replicate (n + 1) scope) (node :: nodes) (contentIn scope node ++ contents) last
  | .element tag inner, h, n => by
    have henters := replicate_headD_enter? h.1 scope n
    rw [contentIn]
    cases hf : isFallback scope tag.name with
    | true => exact ⟨n + 1, Nat.le_succ n, .fallback henters (isFallback_iff.mp hf)⟩
    | false =>
      obtain ⟨m, hm, hinner⟩ := holds_of_declarationless scope inner h.2 (n + 1)
      obtain ⟨m, rfl⟩ : ∃ k, m = k + 1 := ⟨m - 1, by omega⟩
      have hkept : ¬NamesFallback (resolve scope tag.name) := by
        rw [← isFallback_iff, hf]
        exact Bool.false_ne_true
      exact ⟨m, by omega, .element henters hkept (Element.named_iff.mpr rfl) hinner
        (Element.named_iff.mpr rfl)⟩
  | .empty tag, h, n =>
    ⟨n, Nat.le_refl n, .empty (replicate_headD_enter? h scope n) (Element.named_iff.mpr rfl)⟩
  | .text raw, _, n => ⟨n, Nat.le_refl n, .text raw⟩
  | .characters raw, _, n => ⟨n, Nat.le_refl n, .characters raw⟩
termination_by structural node => node

theorem holds_of_declarationless (scope : Xml.Scope) : (nodes : List Xml.Node) →
    NodesDeclarationless nodes → (n : Nat) → ∃ m, n ≤ m ∧
      Holds (List.replicate (n + 1) scope) nodes (contentsIn scope nodes)
        (List.replicate (m + 1) scope)
  | [], _, n => ⟨n, Nat.le_refl n, .nil _⟩
  | node :: nodes, h, n => by
    obtain ⟨m, hm, hnode⟩ := holds_cons_of_declarationless scope node h.1 n
    obtain ⟨k, hk, hnodes⟩ := holds_of_declarationless scope nodes h.2 m
    exact ⟨k, Nat.le_trans hm hk, hnode hnodes⟩
termination_by structural nodes => nodes
end

/-- Declarations of an outermost element are in force in all of it, also after fallback elements. -/
theorem holds_outermost {inner : List Xml.Node} (enters : Xml.Scope.enter? [] tag = some scope)
    (kept : ¬NamesFallback (resolve scope tag.name)) (opens : e.Named (resolve scope tag.name))
    (h : NodesDeclarationless inner) :
    ∃ after, Holds [] [.element tag inner] [.element e (contentsIn scope inner)] after := by
  obtain ⟨m, -, hinner⟩ := holds_of_declarationless scope inner h 0
  exact ⟨List.replicate m scope, .element enters kept opens hinner opens (.nil _)⟩

mutual
theorem skip?_events (name : List Char) : (node : Xml.Node) → (depth : Nat) →
    (rest : List Xml.Event) → skip? name depth (node.events ++ rest) = skip? name depth rest
  | .element tag inner, depth, rest => by
    by_cases h : tag.name = name
    · simp [Xml.Node.events, skip?, h, skip?_eventsOf name inner]
    · simp [Xml.Node.events, skip?, h, skip?_eventsOf name inner]
  | .empty _, _, _ | .text _, _, _ | .characters _, _, _ => rfl
termination_by structural node => node

/-- The namesakes of an element that are in it end in it. -/
theorem skip?_eventsOf (name : List Char) : (nodes : List Xml.Node) → (depth : Nat) →
    (rest : List Xml.Event) → skip? name depth (Xml.eventsOf nodes ++ rest) = skip? name depth rest
  | [], _, _ => rfl
  | node :: nodes, depth, rest => by
    rw [Xml.eventsOf, List.append_assoc, skip?_events name node, skip?_eventsOf name nodes]
termination_by structural nodes => nodes
end

theorem events?_fallback {inner : List Xml.Node} {rest : List Xml.Event}
    (hscope : (scopes.headD []).enter? tag = some scope) (h : isFallback scope tag.name = true) :
    events? scopes (.start tag :: (Xml.eventsOf inner ++ .stop tag.name :: rest)) =
      events? (scope :: scopes) rest := by
  have hskip : skip? tag.name 0 (Xml.eventsOf inner ++ .stop tag.name :: rest) = some rest := by
    rw [skip?_eventsOf, skip?, if_pos rfl]
  rw [events?]
  simp only [hscope, h, if_true]
  split
  · next hnone =>
    rw [hskip] at hnone
    cases hnone
  · next hafter =>
    rw [hskip] at hafter
    cases hafter
    rfl

theorem events?_start {rest : List Xml.Event} (hscope : (scopes.headD []).enter? tag = some scope)
    (h : isFallback scope tag.name = false) :
    events? scopes (.start tag :: rest) =
      (events? (scope :: scopes) rest).map (.start (.ofName scope tag.name) :: ·) := by
  rw [events?]
  simp only [hscope, h, Bool.false_eq_true, if_false]

theorem events?_stop (scopes : List Xml.Scope) (name : List Char) (rest : List Xml.Event) :
    events? scopes (.stop name :: rest) =
      (events? scopes.tail rest).map (.stop (.ofName (scopes.headD []) name) :: ·) := by
  rw [events?]

theorem events?_empty {rest : List Xml.Event}
    (hscope : (scopes.headD []).enter? tag = some scope) :
    events? scopes (.empty tag :: rest) =
      (events? scopes rest).map (.empty (.ofName scope tag.name) :: ·) := by
  rw [events?]
  simp only [hscope]

/-- What is read of nodes is what they hold. -/
theorem Holds.events? (h : Holds scopes nodes contents last) (rest : List Xml.Event) :
    Document.events? scopes (Xml.eventsOf nodes ++ rest) =
      (Document.events? last rest).map (eventsOf contents ++ ·) := by
  induction h generalizing rest with
  | nil => simp [Xml.eventsOf, eventsOf]
  | fallback enters names _ ih =>
    rw [Xml.eventsOf, Xml.Node.events, List.append_assoc, List.cons_append, List.append_assoc,
      List.singleton_append, events?_fallback enters (isFallback_iff.mpr names), ih]
  | element enters kept opens _ closes _ ihInner ih =>
    have hkept := Bool.eq_false_iff.mpr (mt isFallback_iff.mp kept)
    rw [Xml.eventsOf, Xml.Node.events, List.append_assoc, List.cons_append, List.append_assoc,
      List.singleton_append, events?_start enters hkept, ihInner, events?_stop, ih,
      Element.named_iff.mp opens, Element.named_iff.mp closes]
    simp [eventsOf, Content.events, Function.comp_def]
  | empty enters named _ ih =>
    rw [Xml.eventsOf, Xml.Node.events, List.append_assoc, List.singleton_append,
      events?_empty enters, ih, Element.named_iff.mp named]
    simp [eventsOf, Content.events, Function.comp_def]
  | text raw _ ih | characters raw _ ih =>
    rw [Xml.eventsOf, Xml.Node.events, List.append_assoc, List.singleton_append, Document.events?,
      ih]
    simp [eventsOf, Content.events, Function.comp_def]

/-- A part that is a forest of elements, with resolved names, has the paragraphs of the forest, its
fallback elements left out, if the references in text elements are sound. Whatever the events,
paragraphs are numbered in their order, and so are the runs of each. -/
theorem paragraphs_of_forest :
    (∀ octets source nodes forest after, Text.decode? octets = some source →
      Xml.flatEvents? source = some (Xml.eventsOf nodes) → Holds [] nodes forest after →
      PlainIn false forest →
      readParagraphs? octets = if soundIn forest then some (paragraphsOf forest) else none) ∧
    ∀ events ps, paragraphs? events = some ps →
      ps.map Paragraph.index = List.range ps.length ∧
        ∀ p ∈ ps, p.runs.map Run.index = List.range p.runs.length := by
  refine ⟨?_, fun events ps h => numbered_of_paragraphs? h⟩
  intro octets source nodes forest after hsource hevents hforest hplain
  have hread : readEvents? source = some (eventsOf forest) := by
    have hall := hforest.events? []
    rw [List.append_nil, events?] at hall
    rw [readEvents?, Xml.events?_of_forest hevents, Option.bind_some, hall]
    simp
  simp only [readParagraphs?, hsource, hread, bind, Option.bind_some]
  exact paragraphs?_eventsOf hplain

/-- Names of both namespaces of a word processor, and of fallback elements. -/
def boxedTag : Xml.Tag :=
  ⟨"w:p".toList,
    [⟨"xmlns:w".toList, "http://schemas.openxmlformats.org/wordprocessingml/2006/main".toList⟩,
      ⟨"xmlns:s".toList, "http://purl.oclc.org/ooxml/wordprocessingml/main".toList⟩,
      ⟨"xmlns:c".toList,
        "http://schemas.openxmlformats.org/markup-compatibility/2006".toList⟩]⟩

def boxedScope : Xml.Scope :=
  [⟨some "c".toList, "http://schemas.openxmlformats.org/markup-compatibility/2006".toList⟩,
    ⟨some "s".toList, "http://purl.oclc.org/ooxml/wordprocessingml/main".toList⟩,
    ⟨some "w".toList, "http://schemas.openxmlformats.org/wordprocessingml/2006/main".toList⟩]

/-- A run with text, a fallback element, a text box and both kinds of line breaks. -/
def boxedNodes : List Xml.Node :=
  [.element ⟨"w:r".toList, []⟩
    [.element ⟨"w:t".toList, []⟩ [.text "a&amp;".toList],
      .element ⟨"c:Fallback".toList, []⟩ [.empty ⟨"w:r".toList, []⟩],
      .element ⟨"s:p".toList, []⟩ [.element ⟨"s:r".toList, []⟩ [.empty ⟨"s:tab".toList, []⟩]],
      .empty ⟨"w:cr".toList, []⟩, .empty ⟨"s:br".toList, []⟩]]

def boxedContent : List Content :=
  [.element .run
    [.element .text [.text "a&amp;".toList],
      .element .paragraph [.element .run [.empty .tab]],
      .empty .lineBreak, .empty .lineBreak]]

def boxedPart : List Char :=
  "<w:p xmlns:w='".toList ++
    "http://schemas.openxmlformats.org/wordprocessingml/2006/main".toList ++
    "' xmlns:s='".toList ++ "http://purl.oclc.org/ooxml/wordprocessingml/main".toList ++
    "' xmlns:c='".toList ++
    "http://schemas.openxmlformats.org/markup-compatibility/2006".toList ++
    "'><w:r><w:t>a&amp;</w:t>".toList ++ "<c:Fallback><w:r/></c:Fallback>".toList ++
    "<s:p><s:r><s:tab/></s:r></s:p>".toList ++ "<w:cr/><s:br/></w:r></w:p>".toList

theorem paragraphs_of_forest_of_textBox :
    (∃ after, Holds [] [.element boxedTag boxedNodes] [.element .paragraph boxedContent] after) ∧
      readParagraphs? (boxedPart.map fun c => c.toNat.toUInt8) =
        some [⟨0, [⟨0, "a&\n\n".toList⟩]⟩, ⟨1, [⟨0, "\t".toList⟩]⟩] ∧
      [⟨0, [⟨0, []⟩, ⟨1, []⟩]⟩].map Paragraph.index = List.range 1 := by
  have hsource : Text.decode? (boxedPart.map fun c => c.toNat.toUInt8) = some boxedPart := by
    decide +kernel
  have hevents : Xml.flatEvents? boxedPart =
      some (Xml.eventsOf [.element boxedTag boxedNodes]) := by
    decide +kernel
  have hscope : Xml.Scope.enter? [] boxedTag = some boxedScope := by decide +kernel
  have hname : resolve boxedScope "w:p".toList =
      (some "http://schemas.openxmlformats.org/wordprocessingml/2006/main".toList, "p") := by
    decide +kernel
  have hopens : Element.Named .paragraph (resolve boxedScope boxedTag.name) := by
    rw [boxedTag, hname]
    exact .paragraph .ordinary
  have hnone : NodesDeclarationless boxedNodes := by
    simp [boxedNodes, NodesDeclarationless, NodeDeclarationless, Declarationless]
  have hcontent : contentsIn boxedScope boxedNodes = boxedContent := rfl
  obtain ⟨after, hforest⟩ :=
    holds_outermost hscope (hopens.not_namesFallback (by decide)) hopens hnone
  rw [hcontent] at hforest
  have hopen : paragraphs? [.start .paragraph, .empty .run, .stop .text, .start .run] =
      some [⟨0, [⟨0, []⟩, ⟨1, []⟩]⟩] := congrArg some (List.mergeSort_singleton _)
  have hplain : PlainIn false [.element .paragraph boxedContent] := by
    simp [boxedContent, PlainIn, Content.Plain, Content.isText]
  refine ⟨⟨after, hforest⟩, ?_, (paragraphs_of_forest.2 _ _ hopen).1⟩
  rw [paragraphs_of_forest.1 _ _ _ _ _ hsource hevents hforest hplain]
  decide +kernel

end Document

end FormLetter
