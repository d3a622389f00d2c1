namespace FormLetter.Xml

def isSpace (c : Char) : Bool :=
  c == ' ' || c == '\r' || c == '\n' || c == '\t'

structure Attribute where
  name : List Char
  value : List Char
  deriving DecidableEq

/-- The first attribute of a text and what follows it. -/
def attribute? (cs : List Char) : Option (Attribute × List Char) :=
  let inName (c : Char) := c != '=' && !isSpace c
  match cs.dropWhile isSpace with
  | [] => none
  | first :: named =>
    match (named.dropWhile inName).dropWhile isSpace with
    | '=' :: valued =>
      match valued.dropWhile isSpace with
      | [] => none
      | quote :: quoted =>
        if quote = '"' ∨ quote = '\'' then
          match quoted.dropWhile (· != quote) with
          | [] => none
          | _ :: rest =>
            some (⟨first :: named.takeWhile inName, quoted.takeWhile (· != quote)⟩, rest)
        else none
    | _ => none

theorem dropWhile_length_le (p : α → Bool) (l : List α) : (l.dropWhile p).length ≤ l.length :=
  (List.dropWhile_suffix p).length_le

theorem attribute?_length (h : attribute? cs = some (a, rest)) : rest.length < cs.length := by
  unfold attribute? at h
  grind [dropWhile_length_le]

/-- Reading attributes stops at the first that has no value in quotes. -/
def attributes (cs : List Char) : List Attribute :=
  match _h : attribute? cs with
  | none => []
  | some (a, rest) => a :: attributes rest
termination_by cs.length
decreasing_by exact attribute?_length _h

structure Tag where
  name : List Char
  attributes : List Attribute
  deriving DecidableEq

def Tag.ofContent (content : List Char) : Tag :=
  let inName (c : Char) := !isSpace c
  ⟨content.takeWhile inName, Xml.attributes (content.dropWhile inName)⟩

end FormLetter.Xml
