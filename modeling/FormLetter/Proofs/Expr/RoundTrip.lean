import FormLetter.Proofs.Expr.Header
import FormLetter.Proofs.Expr.Numbers

namespace FormLetter

open Outcome

namespace Lexer

theorem lexeme_written (h : lexeme touching c rest = .ok l) : l.kind.Written := by
  unfold lexeme at h
  split at h
  · dsimp only at h
    split at h
    · rename_i hk
      cases h
      exact written_of_numberKind? hk
    · cases h
  split at h
  · rename_i hc
    cases h
    refine ⟨c, rest.takeWhile Text.continuesName, String.toList_ofList, hc, fun d hd => ?_⟩
    exact List.all_eq_true.mp List.all_takeWhile d hd
  split at h
  · split at h
    · cases h
      trivial
    · cases h
  · split at h
    · cases h
      trivial
    · cases h
      trivial
    · cases h

/-- Tokens come from source text. -/
theorem lexFrom_written (h : lexFrom position touching cs = .ok ts) :
    ∀ t ∈ ts, t.kind.Written := by
  fun_induction lexFrom position touching cs generalizing ts with
  | case1 =>
    cases h
    simp
  | case2 position touching c rest hb ih => exact ih h
  | case3 => cases h
  | case4 => cases h
  | case5 position touching c rest hb l hl hlt tokens hrest ih =>
    cases h
    exact List.forall_mem_cons.mpr ⟨lexeme_written hl, ih hrest⟩

/-- What may come after the display form of a tree: the end of the text, what stands after operands
within the form of a larger tree, and an access to a tree that needs no parentheses. -/
def Follows (accessible : Bool) (cs : List Char) : Prop :=
  ∀ c rest, cs = c :: rest → c ∈ [')', ']', ',', ' '] ∨ accessible = true ∧ c ∈ ['.', '[']

theorem follows_nil (accessible : Bool) : Follows accessible [] := by
  intro c rest h
  cases h

theorem follows_closer (hc : c ∈ [')', ']', ',', ' ']) (accessible : Bool) (rest : List Char) :
    Follows accessible (c :: rest) := by
  intro c rest hx
  cases hx
  exact .inl hc

theorem Follows.endsName (h : Follows accessible cs) : EndsName cs := by
  have hmarks : [')', ']', ',', ' ', '.', '['].all (fun c => !Text.continuesName c) = true :=
    rfl
  intro c rest hcs
  have hc := List.all_eq_true.mp hmarks c (by rcases h c rest hcs with hc | ⟨_, hc⟩ <;> grind)
  rwa [Bool.not_eq_true'] at hc

theorem Follows.endsNumber (h : Follows false cs) : EndsNumber cs := by
  intro c rest hcs
  rcases h c rest hcs with hc | ⟨hf, _⟩
  · simp only [List.mem_cons, List.not_mem_nil, or_false] at hc
    rcases hc with rfl | rfl | rfl | rfl <;> exact ⟨rfl, by decide⟩
  · cases hf

/-- An object in front of an access is put in parentheses if it needs them. -/
theorem Spells.grouped {object : Expr}
    (ho : ∀ {rest ks}, Follows object.isAccessible rest → Spells rest ks →
      Spells (object.chars ++ rest) (object.tokens ++ ks))
    (hc : c ∈ ['.', '[']) (h : Spells (c :: rest) ks) :
    Spells (Expr.parenthesized (!object.isAccessible) object.chars ++ c :: rest)
      (Expr.groupedTokens (!object.isAccessible) object.tokens ++ ks) := by
  unfold Expr.parenthesized Expr.groupedTokens
  cases ha : object.isAccessible with
  | true =>
    refine ho (fun d us hd => .inr ⟨ha, ?_⟩) h
    cases hd
    exact hc
  | false =>
    simp only [Bool.not_false, if_true, List.append_assoc, List.cons_append, List.nil_append]
    exact (ho (follows_closer (by simp) _ _) h.closeParen).openParen

theorem Spells.literal (hv : Expr.IsLiteral value)
    (hf : Follows (Expr.literal value).isAccessible rest) (h : Spells rest ks) :
    Spells (Expr.literalChars value ++ rest) (Expr.literalToken value :: ks) := by
  have hword (word : String) (hw : IsName word) :
      Spells (word.toList ++ rest) (.name word :: ks) := h.name hw hf.endsName
  cases value with
  | null =>
    have hlist : "null".toList = ['n', 'u', 'l', 'l'] := rfl
    exact hword "null" (isName_of_all hlist rfl rfl)
  | bool b =>
    cases b with
    | true =>
      have hlist : "true".toList = ['t', 'r', 'u', 'e'] := rfl
      exact hword "true" (isName_of_all hlist rfl rfl)
    | false =>
      have hlist : "false".toList = ['f', 'a', 'l', 's', 'e'] := rfl
      exact hword "false" (isName_of_all hlist rfl rfl)
  | int n => exact h.int hv hf.endsNumber
  | float x => exact h.float hv hf.endsNumber
  | string s => exact h.string s
  | array | object => cases hv

mutual
theorem spells_chars : (e : Expr) → e.Written → ∀ {rest ks}, Follows e.isAccessible rest →
    Spells rest ks → Spells (e.chars ++ rest) (e.tokens ++ ks)
  | .literal value, hw, rest, ks, hf, h => h.literal hw hf
  | .var name, hw, rest, ks, hf, h => h.name hw.1 hf.endsName
  | .field object name, hw, rest, ks, hf, h => by
    have hname := (h.name hw.2 hf.endsName).dot hw.2
    simpa [Expr.chars, Expr.tokens] using
      Spells.grouped (spells_chars object hw.1) (by simp) hname
  | .index object key, hw, rest, ks, hf, h => by
    have hkey := (spells_chars key hw.2 (follows_closer (by simp) _ _) h.closeBracket).openBracket
    simpa [Expr.chars, Expr.tokens] using
      Spells.grouped (spells_chars object hw.1) (by simp) hkey
  | .unary op operand, hw, rest, ks, hf, h => by
    have ho := (spells_chars operand hw (follows_closer (by simp) _ _) h.closeParen).openParen
    simpa [Expr.chars, Expr.tokens] using ho.unaryOp op
  | .binary op left right, hw, rest, ks, hf, h => by
    have hright := spells_chars right hw.2 (follows_closer (by simp) _ _) h.closeParen
    have hleft := spells_chars left hw.1 (follows_closer (by simp) _ _) (hright.binaryOp op).space
    simpa [Expr.chars, Expr.tokens] using hleft.openParen
  | .call function args, hw, rest, ks, hf, h => by
    have hargs := spells_argChars args hw.2 h.closeParen
    have hparen : Text.continuesName '(' = false := rfl
    have hcall := hargs.openParen.name hw.1.1 (by
      intro c rest hx
      cases hx
      exact hparen)
    simpa [Expr.chars, Expr.tokens] using hcall
termination_by structural e => e

theorem spells_argChars : (es : List Expr) → Expr.AllWritten es → ∀ {rest ks},
    Spells (')' :: rest) ks → Spells (Expr.argChars es ++ ')' :: rest) (Expr.argTokens es ++ ks)
  | [], _, rest, ks, h => h
  | [e], hw, rest, ks, h => spells_chars e hw.1 (follows_closer (by simp) _ _) h
  | e :: next :: es, hw, rest, ks, h => by
    have hrest := (spells_argChars (next :: es) hw.2 h).space.comma
    have he := spells_chars e hw.1 (follows_closer (by simp) _ _) hrest
    simpa [Expr.argChars, Expr.argTokens] using he
termination_by structural es => es
end

end Lexer

theorem Tokens.parse_eq_ok {parse : Tokens → Except ParseError α} :
    Tokens.parse parse s = .ok a ↔
      ∃ ts, Lexer.lexFrom 0 false s.toList = .ok ts ∧ parse ⟨ts, Text.size8 s.toList⟩ = .ok a := by
  unfold Tokens.parse Tokens.ofChars?
  cases Lexer.lexFrom 0 false s.toList <;> simp

theorem Lexer.Spells.parse {parse : Tokens → Except ParseError α} (h : Spells cs ks)
    (hp : ∀ ts : List Token, ts.map Token.kind = ks → ∀ stop, parse ⟨ts, stop⟩ = .ok a) :
    Tokens.parse parse (String.ofList cs) = .ok a := by
  obtain ⟨ts, hts, hks⟩ := h 0 false
  rw [Tokens.parse_eq_ok, String.toList_ofList]
  exact ⟨ts, hts, hp ts hks _⟩

namespace Expr

theorem written_of_parse (h : parse s = .ok e ∨ parseStart s = .ok e) : e.Written := by
  have hstart : parseStart s = .ok e := by
    rcases h with h | h
    · obtain ⟨ts, hts, hw⟩ := Tokens.parse_eq_ok.mp h
      refine Tokens.parse_eq_ok.mpr ⟨ts, hts, ?_⟩
      rw [Parser.whole_eq_ok.mp hw]
      rfl
    · exact h
  obtain ⟨ts, hts, hp⟩ := Tokens.parse_eq_ok.mp hstart
  obtain ⟨⟨found, rest⟩, hfound, rfl⟩ := map_eq_ok.mp hp
  obtain ⟨ks, ⟨us, rfl, rfl⟩, hd⟩ := Parser.derives_of_expression hfound
  apply hd.written
  intro k hk
  obtain ⟨t, ht, rfl⟩ := List.mem_map.mp hk
  exact Lexer.lexFrom_written hts t (List.mem_append_left _ ht)

theorem spells (h : Written e) : Lexer.Spells e.chars e.tokens := by
  have := Lexer.spells_chars e h (Lexer.follows_nil _) .nil
  rwa [List.append_nil, List.append_nil] at this

theorem parse_display_of_written (h : Written e) : parse e.display = .ok e :=
  (spells h).parse fun ts hts stop => by
    rw [Parser.whole_iff_derives, hts]
    exact (derives_tokens e h).1.anyLevel .or

/-- A name that stands for no value is a variable. -/
theorem parse_of_isReference (h : IsReference name) : parse name = .ok (.var name) := by
  have := parse_display_of_written (e := .var name) h
  rwa [display, chars, String.ofList_toList] at this

end Expr

namespace LoopHeader

def variableChars : LoopHeader → List Char
  | ⟨some index, item, _⟩ => index.toList ++ ", ".toList ++ item.toList
  | ⟨none, item, _⟩ => item.toList

/-- The text of a header, with its collection in display form. -/
def display (h : LoopHeader) : String :=
  String.ofList (h.variableChars ++ " in ".toList ++ h.collection.chars)

/-- Headers that source text can stand for. -/
structure Written (h : LoopHeader) : Prop where
  names : ∀ name, TokenKind.name name ∈ h.variableTokens → IsName name
  free : h.AreVariables
  collection : h.collection.Written

theorem written_of_parse (hp : parse s = .ok h) : h.Written := by
  obtain ⟨ts, hts, hp⟩ := Tokens.parse_eq_ok.mp hp
  obtain ⟨hv, ks, hks, hd⟩ := Parser.header_iff_derives.mp hp
  have hw : ∀ k ∈ h.variableTokens ++ .name "in" :: ks, k.Written := fun k hk => by
    rw [← hks] at hk
    obtain ⟨t, ht, rfl⟩ := List.mem_map.mp hk
    exact Lexer.lexFrom_written hts t ht
  exact ⟨fun name hn => hw _ (List.mem_append_left _ hn), hv,
    hd.written fun k hk => hw k (by simp [hk])⟩

theorem spells (hw : Written h) : Lexer.Spells
    (h.variableChars ++ " in ".toList ++ h.collection.chars)
    (h.variableTokens ++ .name "in" :: h.collection.tokens) := by
  obtain ⟨index, item, collection⟩ := h
  have hlist : "in".toList = ['i', 'n'] := rfl
  have hin : IsName "in" := isName_of_all hlist rfl rfl
  have hspace (cs : List Char) : Lexer.EndsName (' ' :: cs) :=
    (Lexer.follows_closer (by simp) false cs).endsName
  have hcomma (cs : List Char) : Lexer.EndsName (',' :: cs) :=
    (Lexer.follows_closer (by simp) false cs).endsName
  have hitem := hw.names item (by cases index <;> simp [variableTokens])
  have hrest :=
    (((Expr.spells hw.collection).space.name hin (hspace _)).space.name hitem (hspace _))
  cases index with
  | none => simpa [variableChars, variableTokens] using hrest
  | some index =>
    have hindex := hw.names index (by simp [variableTokens])
    simpa [variableChars, variableTokens] using hrest.space.comma.name hindex (hcomma _)

theorem parse_display_of_written (hw : Written h) : parse h.display = .ok h :=
  (spells hw).parse fun _ hts _ =>
    Parser.header_iff_derives.mpr
      ⟨hw.free, _, hts, (Expr.derives_tokens _ hw.collection).1.anyLevel .or⟩

end LoopHeader

/-- What is parsed from a text is parsed again from its display form: expressions, the longest
expression at the start of a text, and loop headers. -/
theorem parse_display_of_parse :
    (∀ s e, Expr.parse s = .ok e ∨ Expr.parseStart s = .ok e → Expr.parse e.display = .ok e) ∧
      ∀ s h, LoopHeader.parse s = .ok h → LoopHeader.parse h.display = .ok h :=
  ⟨fun _ _ h => Expr.parse_display_of_written (Expr.written_of_parse h),
    fun _ _ h => LoopHeader.parse_display_of_written (LoopHeader.written_of_parse h)⟩

/-- A negation whose operand gets parentheses. -/
theorem parse_display_of_parse_negation :
    Expr.parse "!a" = .ok (.unary .not (.var "a")) ∧
      Expr.parse "!(a)" = .ok (.unary .not (.var "a")) := by
  have ha : Expr.IsReference "a" := ⟨⟨'a', [], rfl, rfl, by simp⟩, rfl⟩
  have hnil : Lexer.EndsName [] := by simp [Lexer.EndsName]
  have hspells : Lexer.Spells ['!', 'a'] [.symbol .bang, .name "a"] :=
    (Lexer.Spells.nil.name ha.1 hnil).symbol rfl rfl
  have hparse : Expr.parse "!a" = .ok (.unary .not (.var "a")) :=
    hspells.parse fun ts hts stop => by
      rw [Parser.whole_iff_derives, hts]
      exact (Derives.unary rfl (.accessed (.primary (.var ha.2)))).anyLevel .or
  have hdisplay : Expr.display (.unary .not (.var "a")) = "!(a)" := by decide +kernel
  refine ⟨hparse, ?_⟩
  rw [← hdisplay]
  exact parse_display_of_parse.1 "!a" _ (.inl hparse)

end FormLetter
