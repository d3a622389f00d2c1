import FormLetter.Xml.Tag

namespace FormLetter.Xml

/-- A tag, or the text between two. Comments, instructions and declarations have to end, but are no
events. -/
inductive Event where
  | start (tag : Tag)
  /-- A tag that opens an element and closes it. -/
  | empty (tag : Tag)
  | stop (name : List Char)
  | text (raw : List Char)
  | characters (raw : List Char)
  deriving DecidableEq

/-- What stands before and after the first occurrence of a pattern. -/
def splitAt? (pattern : List Char) : List Char → Option (List Char × List Char)
  | [] => if pattern.isEmpty then some ([], []) else none
  | c :: cs =>
    if pattern.isPrefixOf (c :: cs) then some ([], (c :: cs).drop pattern.length)
    else (splitAt? pattern cs).map fun (before, after) => (c :: before, after)

/-- The content of a tag and what follows it. A closing bracket in quotes does not end a tag. -/
def splitTag? : Option Char → List Char → Option (List Char × List Char)
  | _, [] => none
  | some quote, c :: cs =>
    (splitTag? (if c = quote then none else some quote) cs).map fun (content, rest) =>
      (c :: content, rest)
  | none, c :: cs =>
    if c = '>' then some ([], cs)
    else
      (splitTag? (if c = '"' ∨ c = '\'' then some c else none) cs).map fun (content, rest) =>
        (c :: content, rest)

/-- A document type and what follows it. Brackets in it are paired. -/
def splitDeclaration? (depth : Nat) : List Char → Option (List Char × List Char)
  | [] => none
  | '<' :: cs =>
    (splitDeclaration? (depth + 1) cs).map fun (content, rest) => ('<' :: content, rest)
  | '>' :: cs =>
    match depth with
    | 0 => some ([], cs)
    | depth + 1 => (splitDeclaration? depth cs).map fun (content, rest) => ('>' :: content, rest)
  | c :: cs => (splitDeclaration? depth cs).map fun (content, rest) => (c :: content, rest)

/-- A document type has its keyword in any case, and a name. -/
def isDocumentType (content : List Char) : Bool :=
  (content.take 7).map Char.toUpper == "DOCTYPE".toList && (content.drop 7).any (!isSpace ·)

/-- The name of an end tag may have blanks after it. -/
def endName (content : List Char) : List Char :=
  let name := (content.reverse.dropWhile isSpace).reverse
  if name.isEmpty then content else name

/-- A tag, or an empty one if its content ends with a slash. -/
def tagEvent (content : List Char) : Event :=
  if content.getLast? = some '/' then .empty (.ofContent content.dropLast)
  else .start (.ofContent content)

/-- The markup after a `<`: its event, if it has one, and what follows it. -/
def markup? : List Char → Option (List Event × List Char)
  | '!' :: '-' :: '-' :: cs => (splitAt? "-->".toList cs).map fun (_, rest) => ([], rest)
  | '!' :: '[' :: 'C' :: 'D' :: 'A' :: 'T' :: 'A' :: '[' :: cs =>
    (splitAt? "]]>".toList cs).map fun (content, rest) => ([.characters content], rest)
  | '!' :: cs =>
    match splitDeclaration? 0 cs with
    | some (content, rest) => if isDocumentType content then some ([], rest) else none
    | none => none
  | '?' :: '>' :: _ => none
  | '?' :: cs => (splitAt? "?>".toList cs).map fun (_, rest) => ([], rest)
  | '/' :: cs => (splitTag? none cs).map fun (content, rest) => ([.stop (endName content)], rest)
  | [] => none
  | cs => (splitTag? none cs).map fun (content, rest) => ([tagEvent content], rest)

theorem splitAt?_length (h : splitAt? pattern cs = some (before, rest)) :
    rest.length ≤ cs.length := by
  fun_induction splitAt? pattern cs generalizing before <;>
    grind [List.length_drop, Option.map_eq_some_iff]

theorem splitTag?_length (h : splitTag? quote cs = some (content, rest)) :
    rest.length < cs.length := by
  fun_induction splitTag? quote cs generalizing content <;>
    grind [Option.map_eq_some_iff]

theorem splitDeclaration?_length (h : splitDeclaration? depth cs = some (content, rest)) :
    rest.length < cs.length := by
  fun_induction splitDeclaration? depth cs generalizing content <;>
    grind [Option.map_eq_some_iff]

theorem markup?_length (h : markup? cs = some (found, rest)) : rest.length ≤ cs.length := by
  fun_cases markup? cs <;> simp_all only [markup?, Option.map_eq_some_iff, reduceCtorEq]
  all_goals
    grind [→ splitAt?_length, → splitTag?_length, → splitDeclaration?_length]

def textEvent (cs : List Char) : List Event :=
  if cs.isEmpty then [] else [.text cs]

/-- The events of a text in order, nested or not. -/
def flatEvents? (cs : List Char) : Option (List Event) :=
  match _h : cs.dropWhile (· != '<') with
  | [] => some (textEvent cs)
  | _ :: after =>
    match _hm : markup? after with
    | none => none
    | some (found, rest) =>
      (flatEvents? rest).map fun more => textEvent (cs.takeWhile (· != '<')) ++ found ++ more
termination_by cs.length
decreasing_by
  have := markup?_length _hm
  have := (List.dropWhile_suffix (l := cs) (· != '<')).length_le
  simp_all only [List.length_cons]
  omega

/-- Every end tag has the name of the innermost open element. An element may stay open. -/
def nested : List (List Char) → List Event → Bool
  | _, [] => true
  | names, .start tag :: events => nested (tag.name :: names) events
  | name :: names, .stop closed :: events => name = closed && nested names events
  | [], .stop _ :: _ => false
  | names, _ :: events => nested names events

def events? (cs : List Char) : Option (List Event) :=
  (flatEvents? cs).filter (nested [])

end FormLetter.Xml
