import FormLetter.Proofs.Document.Numbering

namespace FormLetter.Document

/-- An element with its content, an empty element, or text. -/
inductive Content where
  | element (element : Element) (inner : List Content)
  | empty (element : Element)
  | text (raw : List Char)
  | characters (raw : List Char)

mutual
def Content.events : Content → List Event
  | .element e inner => .start e :: (eventsOf inner ++ [.stop e])
  | .empty e => [.empty e]
  | .text raw => [.text raw]
  | .characters raw => [.characters raw]
termination_by structural content => content

def eventsOf : List Content → List Event
  | [] => []
  | content :: rest => content.events ++ eventsOf rest
termination_by structural contents => contents
end

mutual
/-- The contents of all paragraphs, in the order of their opening tags. -/
def Content.paragraphs : Content → List (List Content)
  | .element .paragraph inner => inner :: paragraphsIn inner
  | .element .run inner | .element .text inner | .element .tab inner
  | .element .lineBreak inner | .element .other inner => paragraphsIn inner
  | .empty .paragraph => [[]]
  | .empty .run | .empty .text | .empty .tab | .empty .lineBreak | .empty .other => []
  | .text _ | .characters _ => []
termination_by structural content => content

def paragraphsIn : List Content → List (List Content)
  | [] => []
  | content :: rest => content.paragraphs ++ paragraphsIn rest
termination_by structural contents => contents
end

mutual
/-- The contents of the runs outside the paragraphs in it, in order. -/
def Content.runs : Content → List (List Content)
  | .element .paragraph _ => []
  | .element .run inner => inner :: runsIn inner
  | .element .text inner | .element .tab inner | .element .lineBreak inner
  | .element .other inner => runsIn inner
  | .empty .run => [[]]
  | .empty .paragraph | .empty .text | .empty .tab | .empty .lineBreak | .empty .other => []
  | .text _ | .characters _ => []
termination_by structural content => content

def runsIn : List Content → List (List Content)
  | [] => []
  | content :: rest => content.runs ++ runsIn rest
termination_by structural contents => contents
end

/-- Text, or an empty element that stands for nothing, as an empty fallback element does. -/
def Content.isText : Content → Bool
  | .text _ | .characters _ | .empty .other => true
  | .element .. | .empty .paragraph | .empty .run | .empty .text | .empty .tab
  | .empty .lineBreak => false

/-- The text of an element that holds nothing but text, if its references are sound. -/
def characterData? : List Content → Option (List Char)
  | [] => some []
  | .text raw :: rest =>
    (Xml.unescape? raw).bind fun text => (characterData? rest).map (text ++ ·)
  | .characters raw :: rest => (characterData? rest).map (raw ++ ·)
  | .empty .other :: rest => characterData? rest
  | .element .. :: _ | .empty .paragraph :: _ | .empty .run :: _ | .empty .text :: _
  | .empty .tab :: _ | .empty .lineBreak :: _ => none

mutual
/-- What is read outside the paragraphs in it: the text of text elements, tabs and line breaks. -/
def Content.readText : Content → List Char
  | .element .paragraph _ => []
  | .element .text inner => (characterData? inner).getD []
  | .element .tab inner => '\t' :: readTextIn inner
  | .element .lineBreak inner => '\n' :: readTextIn inner
  | .element .run inner | .element .other inner => readTextIn inner
  | .empty .tab => ['\t']
  | .empty .lineBreak => ['\n']
  | .empty .paragraph | .empty .run | .empty .text | .empty .other => []
  | .text _ | .characters _ => []
termination_by structural content => content

def readTextIn : List Content → List Char
  | [] => []
  | content :: rest => content.readText ++ readTextIn rest
termination_by structural contents => contents
end

mutual
/-- No run is in a run without a paragraph between them, and text elements hold only text. -/
def Content.Plain (inRun : Bool) : Content → Prop
  | .element .paragraph inner => PlainIn false inner
  | .element .run inner => inRun = false ∧ PlainIn true inner
  | .element .text inner => inner.all Content.isText = true
  | .element .tab inner | .element .lineBreak inner | .element .other inner => PlainIn inRun inner
  | .empty .run => inRun = false
  | .empty .paragraph | .empty .text | .empty .tab | .empty .lineBreak | .empty .other => True
  | .text _ | .characters _ => True
termination_by structural content => content

def PlainIn (inRun : Bool) : List Content → Prop
  | [] => True
  | content :: rest => content.Plain inRun ∧ PlainIn inRun rest
termination_by structural contents => contents
end

mutual
/-- The references in text elements are sound. -/
def Content.sound : Content → Bool
  | .element .text inner => (characterData? inner).isSome
  | .element .paragraph inner | .element .run inner | .element .tab inner
  | .element .lineBreak inner | .element .other inner => soundIn inner
  | .empty _ | .text _ | .characters _ => true
termination_by structural content => content

def soundIn : List Content → Bool
  | [] => true
  | content :: rest => content.sound && soundIn rest
termination_by structural contents => contents
end

/-- The paragraph of a number with a given content. -/
def paragraphOf (n : Nat) (inner : List Content) : Paragraph :=
  ⟨n, (runsIn inner).mapIdx fun m run => ⟨m, readTextIn run⟩⟩

/-- Paragraphs with given contents, numbered from a number on. -/
def numberedFrom (n : Nat) (contents : List (List Content)) : List Paragraph :=
  contents.mapIdx fun m inner => paragraphOf (n + m) inner

/-- The paragraphs of a forest. -/
def paragraphsOf (forest : List Content) : List Paragraph :=
  numberedFrom 0 (paragraphsIn forest)

theorem numberedFrom_append (n : Nat) (contents rest : List (List Content)) :
    numberedFrom n (contents ++ rest) =
      numberedFrom n contents ++ numberedFrom (n + contents.length) rest := by
  simp [numberedFrom, List.mapIdx_append, Nat.add_assoc, Nat.add_comm contents.length]

theorem numberedFrom_cons (n : Nat) (inner : List Content) (rest : List (List Content)) :
    numberedFrom n (inner :: rest) = paragraphOf n inner :: numberedFrom (n + 1) rest := by
  simp [numberedFrom, List.mapIdx_cons, Nat.add_assoc, Nat.add_comm 1]

theorem index_numberedFrom (n : Nat) (contents : List (List Content)) :
    (numberedFrom n contents).map Paragraph.index = List.range' n contents.length := by
  induction contents generalizing n with
  | nil => rfl
  | cons inner rest ih =>
    rw [numberedFrom_cons, List.map_cons, ih]
    rfl

theorem only_text (h : contents.all Content.isText = true) :
    paragraphsIn contents = [] ∧ runsIn contents = [] := by
  induction contents with
  | nil => exact ⟨rfl, rfl⟩
  | cons content rest ih =>
    rw [List.all_cons, Bool.and_eq_true] at h
    obtain ⟨hparagraphs, hruns⟩ := ih h.2
    cases content with
    | element => cases h.1
    | empty e =>
      cases e with
      | other => exact ⟨hparagraphs, hruns⟩
      | paragraph | run | text | tab | lineBreak => cases h.1
    | text | characters => exact ⟨hparagraphs, hruns⟩

mutual
theorem Content.runs_of_plain : (content : Content) → content.Plain true → content.runs = []
  | .element .paragraph _, _ => rfl
  | .element .run _, h => by cases h.1
  | .element .text _, h => (only_text h).2
  | .element .tab inner, h | .element .lineBreak inner, h | .element .other inner, h =>
    runsIn_of_plain inner h
  | .empty .run, h => by cases h
  | .empty .paragraph, _ | .empty .text, _ | .empty .tab, _ | .empty .lineBreak, _
  | .empty .other, _ => rfl
  | .text _, _ | .characters _, _ => rfl
termination_by structural content => content

theorem runsIn_of_plain : (contents : List Content) → PlainIn true contents → runsIn contents = []
  | [], _ => rfl
  | content :: rest, h => by
    rw [runsIn, content.runs_of_plain h.1, runsIn_of_plain rest h.2, List.append_nil]
termination_by structural contents => contents
end

end FormLetter.Document
