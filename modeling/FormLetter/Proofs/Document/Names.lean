import FormLetter.Document.Event

namespace FormLetter.Document

/-- The namespaces of a word processor: the ordinary one, and that of its strict form. -/
inductive IsWordSpace : List Char → Prop where
  | ordinary : IsWordSpace "http://schemas.openxmlformats.org/wordprocessingml/2006/main".toList
  | strict : IsWordSpace "http://purl.oclc.org/ooxml/wordprocessingml/main".toList

/-- The elements that a reader of text knows, by their namespace and their local name. -/
inductive Element.Named : Element → Option (List Char) × String → Prop where
  | paragraph (h : IsWordSpace space) : Named .paragraph (some space, "p")
  | run (h : IsWordSpace space) : Named .run (some space, "r")
  | text (h : IsWordSpace space) : Named .text (some space, "t")
  | tab (h : IsWordSpace space) : Named .tab (some space, "tab")
  | lineBreak (h : IsWordSpace space) : Named .lineBreak (some space, "br")
  | carriageReturn (h : IsWordSpace space) : Named .lineBreak (some space, "cr")
  | other (h : ∀ space, IsWordSpace space → ∀ localName ∈ ["p", "r", "t", "tab", "br", "cr"],
      name ≠ (some space, localName)) : Named .other name

/-- The name of a fallback element. -/
def NamesFallback (name : Option (List Char) × String) : Prop :=
  name =
    (some "http://schemas.openxmlformats.org/markup-compatibility/2006".toList, "Fallback")

theorem Element.Named.not_namesFallback (h : Element.Named e name) (he : e ≠ .other) :
    ¬NamesFallback name := by
  intro hname
  have hlocal : name.2 = "Fallback" := congrArg Prod.snd hname
  cases h with
  | other => exact he rfl
  | paragraph | run | text | tab | lineBreak | carriageReturn => simp at hlocal

theorem isWordSpace_iff : IsWordSpace space ↔ space ∈ wordSpaces := by
  constructor
  · rintro (_ | _) <;> simp [wordSpaces]
  · intro h
    rcases List.mem_cons.mp h with rfl | h
    · exact .ordinary
    · rw [List.mem_singleton.mp h]
      exact .strict

theorem isFallback_iff : isFallback scope name = true ↔ NamesFallback (resolve scope name) :=
  decide_eq_true_iff

theorem any_wordSpaces_iff {space : Option (List Char)} :
    space.any (wordSpaces.contains ·) = true ↔ ∃ s, space = some s ∧ IsWordSpace s := by
  cases space with
  | none => simp
  | some s => simp [isWordSpace_iff]

/-- An element is what its name says in either namespace of a word processor, and what has no such
name there is none. -/
theorem Element.named_iff : e.Named (resolve scope name) ↔ Element.ofName scope name = e := by
  unfold Element.ofName
  generalize resolve scope name = resolved
  constructor
  · intro h
    cases h with
    | paragraph h | run h | text h | tab h | lineBreak h | carriageReturn h =>
      exact if_pos (any_wordSpaces_iff.mpr ⟨_, rfl, h⟩)
    | other h =>
      obtain ⟨space, localName⟩ := resolved
      dsimp only
      split
      · next hspace =>
        obtain ⟨s, rfl, hs⟩ := any_wordSpaces_iff.mp hspace
        split <;> first | rfl | exact absurd rfl (h s hs _ (by simp))
      · rfl
  · rintro rfl
    obtain ⟨space, localName⟩ := resolved
    dsimp only
    split
    · next hspace =>
      obtain ⟨s, rfl, hs⟩ := any_wordSpaces_iff.mp hspace
      split
      · exact .paragraph hs
      · exact .run hs
      · exact .text hs
      · exact .tab hs
      · exact .lineBreak hs
      · exact .carriageReturn hs
      · refine .other ?_
        rintro _ _ localName hm he
        cases he
        simp_all
    · next hspace =>
      refine .other ?_
      rintro s hs localName hm he
      cases he
      exact hspace (any_wordSpaces_iff.mpr ⟨s, rfl, hs⟩)

end FormLetter.Document
