import FormLetter.Xml.Tag

namespace FormLetter.Xml

def xmlSpace : List Char := "http://www.w3.org/XML/1998/namespace".toList

def xmlnsSpace : List Char := "http://www.w3.org/2000/xmlns/".toList

/-- The qualifier before the first colon of a name, and the local name. -/
def splitName (name : List Char) : Option (List Char) × List Char :=
  match name.dropWhile (· != ':') with
  | [] => (none, name)
  | _ :: localName => (some (name.takeWhile (· != ':')), localName)

structure Declaration where
  /-- A default declaration has no qualifier. -/
  qualifier : Option (List Char)
  /-- Empty where the declaration takes another one back. -/
  space : List Char
  deriving DecidableEq

/-- The declarations in force, the latest first. -/
abbrev Scope := List Declaration

/-- What the name of an attribute declares: a default, or a qualifier, which may be empty. -/
def declared? (name : List Char) : Option (Option (List Char)) :=
  if name = "xmlns".toList then some none
  else if "xmlns:".toList.isPrefixOf name then some (some (name.drop 6))
  else none

/-- The reserved qualifiers and namespaces belong to each other: `xml` may be declared as what it
is, all else is refused. An empty qualifier is held to the same, and then declares the default. -/
def Scope.declare? (scope : Scope) (a : Attribute) : Option Scope :=
  match declared? a.name with
  | none => some scope
  | some none => some (⟨none, a.value⟩ :: scope)
  | some (some qualifier) =>
    if qualifier = "xml".toList then if a.value = xmlSpace then some scope else none
    else if qualifier = "xmlns".toList ∨ a.value = xmlSpace ∨ a.value = xmlnsSpace then none
    else some (⟨if qualifier.isEmpty then none else some qualifier, a.value⟩ :: scope)

/-- The scope inside a tag. -/
def Scope.enter? (scope : Scope) (tag : Tag) : Option Scope :=
  tag.attributes.foldlM Scope.declare? scope

/-- The namespace of a qualifier, or of names without one. -/
def Scope.space? (scope : Scope) (qualifier : Option (List Char)) : Option (List Char) :=
  (scope.find? (·.qualifier = qualifier)).bind fun d =>
    if d.space.isEmpty then none else some d.space

end FormLetter.Xml
