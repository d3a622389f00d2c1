import FormLetter.Proofs.Expr.RoundTrip

namespace FormLetter

open Outcome

namespace Lexer

/-- The kinds of the tokens of a text, if all of it can be read. Positions do not matter to them. -/
def kinds? (touching : Bool) (cs : List Char) : Option (List TokenKind) :=
  (lexFrom 0 touching cs).toOption.map (List.map Token.kind)

theorem toOption_map {f : α → β} (r : Except ε α) : (r.map f).toOption = r.toOption.map f := by
  cases r <;> rfl

theorem kinds_lexFrom (cs : List Char) (position : Nat) (touching : Bool) :
    (lexFrom position touching cs).toOption.map (List.map Token.kind) = kinds? touching cs := by
  rw [← Nat.add_zero position, lexFrom_moved, kinds?]
  cases lexFrom 0 touching cs <;>
    simp [Except.map, Except.mapError, Except.toOption, Token.moved, Function.comp_def]

theorem kinds_nil (touching : Bool) : kinds? touching [] = some [] := by
  rw [kinds?, lexFrom]
  rfl

theorem kinds_lexeme (hb : Text.isBlank c = false) (h : lexeme touching c rest = .ok l) :
    kinds? touching (c :: rest) = (kinds? l.kind.endsOperand l.rest).map (l.kind :: ·) := by
  rw [← kinds_lexFrom l.rest (0 + Text.size8 l.text), kinds?, lexFrom_lexeme hb h, toOption_map,
    Option.map_map, Option.map_map]
  rfl

theorem kinds_error (hb : Text.isBlank c = false) (h : lexeme touching c rest = .error fault) :
    kinds? touching (c :: rest) = none := by
  rw [kinds?, lexFrom_error hb h]
  rfl

/-- A dot that touches an operand is an access, whatever follows it. -/
theorem kinds_dot (rest : List Char) :
    kinds? true ('.' :: rest) = (kinds? false rest).map (.symbol .dot :: ·) := by
  have hd : startsNumber true '.' rest = false := rfl
  have hs : Text.startsName '.' = false := rfl
  have hl : lexeme true '.' rest = .ok ⟨.symbol .dot, ['.'], rest⟩ := by
    rw [lexeme, if_neg (by simp [hd]), if_neg (by simp [hs])]
    rfl
  exact kinds_lexeme (by decide) hl

theorem kinds_name {name : String} (hn : IsName name) (he : EndsName rest) (touching : Bool) :
    kinds? touching (name.toList ++ rest) = (kinds? true rest).map (.name name :: ·) := by
  obtain ⟨c, cs, hname, hc, hcs⟩ := hn
  rw [hname, List.cons_append]
  exact kinds_lexeme (Text.isBlank_of_startsName hc) (lexeme_name hname hc hcs he touching)

theorem kinds_number (hd : Decimal.AreDigits cs) (hs : splitNumber (cs ++ more) = (text, rest))
    (touching : Bool) : kinds? touching (cs ++ more) =
      (numberKind? text).bind fun k => (kinds? k.endsOperand rest).map (k :: ·) := by
  obtain ⟨c, cs, rfl⟩ := List.exists_cons_of_ne_nil hd.1
  have hc := hd.2 c (by simp)
  have hb := Text.isBlank_of_isDigit hc
  have hl := lexeme_number hc hs touching
  cases hk : numberKind? text with
  | some k =>
    rw [hk] at hl
    exact kinds_lexeme hb hl
  | none =>
    rw [hk] at hl
    exact kinds_error hb hl

/-- A whole number ends before a point that no digit follows. -/
theorem kinds_digits (hd : Decimal.AreDigits cs) (hn : Decimal.int64? (Decimal.toNat cs) = some n)
    (he : EndsDigits rest) (hp : ∀ us, rest = '.' :: us → EndsDigits us) (touching : Bool) :
    kinds? touching (cs ++ rest) = (kinds? true rest).map (.int n :: ·) := by
  rw [kinds_number hd (splitNumber_whole hd he hp), numberKind?_digits hd hn]
  rfl

/-- Digits around a point are one number. -/
theorem kinds_fraction (hw : Decimal.AreDigits whole) (hf : Decimal.AreDigits fraction)
    (he : EndsDigits rest) (h : kinds? touching (whole ++ '.' :: fraction ++ rest) = some ks) :
    ∃ x ls, ks = .float x :: ls := by
  have hs := splitNumber_fraction hw.2 hf he
  rw [List.append_assoc] at h hs
  rw [kinds_number hw hs, numberKind?_point hw] at h
  obtain ⟨k, hk, h⟩ := Option.bind_eq_some_iff.mp h
  obtain ⟨ls, -, rfl⟩ := Option.map_eq_some_iff.mp h
  dsimp only at hk
  split at hk
  · cases hk
    exact ⟨_, ls, rfl⟩
  · cases hk

end Lexer

/-- A text is parsed as what the grammar derives from its tokens. -/
theorem Expr.parse_eq_ok : Expr.parse (String.ofList cs) = .ok e ↔
    ∃ ks, Lexer.kinds? false cs = some ks ∧ Derives (.level .or) ks e := by
  unfold Expr.parse Lexer.kinds?
  rw [Tokens.parse_eq_ok, String.toList_ofList]
  simp only [Parser.whole_iff_derives]
  cases Lexer.lexFrom 0 false cs <;> simp [Except.toOption]

/-- Every dot is followed by a name or a whole number. -/
def DotsAccess (ks : List TokenKind) : Prop :=
  ∀ front back, ks = front ++ .symbol .dot :: back →
    ∃ ls, (∃ name, back = .name name :: ls) ∨ ∃ n, back = .int n :: ls

namespace DotsAccess

theorem nil : DotsAccess [] := by
  intro front back h
  simp at h

theorem cons (hk : k ≠ .symbol .dot) (h : DotsAccess ks) : DotsAccess (k :: ks) := by
  intro front back hks
  cases front with
  | nil => exact absurd (List.cons.inj hks).1 hk
  | cons _ front => exact h front back (List.cons.inj hks).2

theorem name (h : DotsAccess ks) : DotsAccess (.symbol .dot :: .name s :: ks) := by
  intro front back hks
  cases front with
  | nil => exact ⟨ks, .inl ⟨s, (List.cons.inj hks).2.symm⟩⟩
  | cons _ front => exact h.cons (by simp) front back (List.cons.inj hks).2

theorem int (h : DotsAccess ks) : DotsAccess (.symbol .dot :: .int n :: ks) := by
  intro front back hks
  cases front with
  | nil => exact ⟨ks, .inr ⟨n, (List.cons.inj hks).2.symm⟩⟩
  | cons _ front => exact h.cons (by simp) front back (List.cons.inj hks).2

theorem append (hk : DotsAccess ks) (hl : DotsAccess ls) : DotsAccess (ks ++ ls) := by
  intro front back h
  obtain ⟨us, rfl, hr⟩ | ⟨us, rfl, hr⟩ := List.append_eq_append_iff.mp h
  · exact hl us back hr
  · cases us with
    | nil => exact hl [] back hr.symm
    | cons k us =>
      obtain ⟨rfl, rfl⟩ := List.cons.inj hr
      obtain ⟨vs, ⟨name, rfl⟩ | ⟨n, rfl⟩⟩ := hk front us rfl
      · exact ⟨vs ++ ls, .inl ⟨name, rfl⟩⟩
      · exact ⟨vs ++ ls, .inr ⟨n, rfl⟩⟩

theorem commaSeparated {kss : List (List TokenKind)} (h : ∀ ks ∈ kss, DotsAccess ks) :
    DotsAccess (commaSeparated kss) := by
  induction kss with
  | nil => exact nil
  | cons ks kss ih =>
    rw [List.forall_mem_cons] at h
    cases kss with
    | nil => exact h.1
    | cons next kss => exact h.1.append ((ih h.2).cons (by simp))

end DotsAccess

theorem Level.token_ne_dot {l : Level} (h : l.operator? s = some op) :
    TokenKind.symbol s ≠ .symbol .dot := by
  intro hs
  cases hs
  exact (Level.operator?_ne h).1 rfl

theorem Derives.dotsAccess (h : Derives c ks e) : DotsAccess ks := by
  induction h with
  | operand _ ih | accessed _ ih | primary _ ih => exact ih
  | binary _ hop _ ihl ihr => exact ihl.append (ihr.cons (Level.token_ne_dot hop))
  | unary hs _ ih =>
    refine ih.cons ?_
    rintro ⟨⟩
    cases hs
  | field _ ih => exact ih.append DotsAccess.nil.name
  | number _ ih => exact ih.append DotsAccess.nil.int
  | index _ _ iho ihk =>
    exact (iho.append (ihk.cons (by simp))).append (DotsAccess.nil.cons (by simp))
  | int | float | string | word | var => exact DotsAccess.nil.cons (by simp)
  | call args _ _ ih =>
    have hargs : DotsAccess (commaSeparated (args.map Prod.fst)) :=
      DotsAccess.commaSeparated (by simpa using fun ks e h => ih (ks, e) h)
    exact ((hargs.cons (by simp)).cons (by simp)).append (DotsAccess.nil.cons (by simp))
  | paren _ ih => exact (ih.cons (by simp)).append (DotsAccess.nil.cons (by simp))

/-- A segment of a path as it is written: a name or a run of digits. -/
inductive Accessor where
  | name (s : String)
  | digits (cs : List Char)

namespace Accessor

/-- Segments that can be written after a dot. Digits stand for a number that fits in 64 bits. -/
def Written : Accessor → Prop
  | name s => IsName s
  | digits cs => Decimal.AreDigits cs ∧ Decimal.toNat cs ≤ Int64.maxValue.toInt

def isNumber : Accessor → Bool
  | name _ => false
  | digits _ => true

def chars : Accessor → List Char
  | name s => s.toList
  | digits cs => cs

def number (cs : List Char) : Int64 :=
  Int64.ofInt (Decimal.toNat cs)

/-- What is read of an object: a field, or the element at an index. -/
def access (object : Expr) : Accessor → Expr
  | name s => .field object s
  | digits cs => .index object (.literal (.int (number cs)))

/-- The access as it is written with a dot. -/
def dotted (a : Accessor) : List Char :=
  '.' :: a.chars

/-- The access as it is written with brackets around a number. -/
def bracketed : Accessor → List Char
  | name s => '.' :: s.toList
  | digits cs => '[' :: cs ++ [']']

def dottedTokens : Accessor → List TokenKind
  | name s => [.symbol .dot, .name s]
  | digits cs => [.symbol .dot, .int (number cs)]

def bracketedTokens : Accessor → List TokenKind
  | name s => [.symbol .dot, .name s]
  | digits cs => [.symbol .openBracket, .int (number cs), .symbol .closeBracket]

/-- No two numbers stand side by side. -/
def NumbersApart (segments : List Accessor) : Prop :=
  segments.IsChain fun a b => ¬(a.isNumber = true ∧ b.isNumber = true)

theorem written_of_all (hne : cs ≠ []) (hd : cs.all Decimal.isDigit = true)
    (hv : Decimal.toNat cs ≤ Int64.maxValue.toInt) : (digits cs).Written :=
  ⟨⟨hne, List.all_eq_true.mp hd⟩, hv⟩

theorem int64?_number (h : Decimal.toNat cs ≤ Int64.maxValue.toInt) :
    Decimal.int64? (Decimal.toNat cs) = some (number cs) := by
  have hmin : Int64.minValue.toInt ≤ 0 := by decide
  exact if_pos ⟨hmin.trans (Int.natCast_nonneg _), h⟩

/-- A path derives the chain of its accesses, as long as the tokens of each derive it. -/
theorem derives_foldl {tokens : Accessor → List TokenKind} (h : ∀ a object ks,
      Derives .accessed ks object → Derives .accessed (ks ++ tokens a) (access object a))
    (segments : List Accessor) (ho : Derives .accessed ks object) :
    Derives .accessed (ks ++ segments.flatMap tokens) (segments.foldl access object) := by
  induction segments generalizing ks object with
  | nil => simpa using ho
  | cons a segments ih =>
    rw [List.flatMap_cons, ← List.append_assoc]
    exact ih (h a object ks ho)

theorem derives_dotted (a : Accessor) (h : Derives .accessed ks object) :
    Derives .accessed (ks ++ a.dottedTokens) (a.access object) := by
  cases a with
  | name s => exact h.field
  | digits cs => exact h.number

theorem derives_bracketed (a : Accessor) (h : Derives .accessed ks object) :
    Derives .accessed (ks ++ a.bracketedTokens) (a.access object) := by
  cases a with
  | name s => exact h.field
  | digits cs =>
    have := h.index (Derives.loosest (.int (n := number cs)))
    rwa [List.append_assoc] at this

theorem exists_cons_of_written {a : Accessor} (h : a.Written) :
    ∃ c cs, a.chars = c :: cs ∧ Decimal.isDigit c = a.isNumber := by
  cases a with
  | name s =>
    obtain ⟨c, cs, hs, hc, -⟩ := h
    exact ⟨c, cs, hs, Text.isDigit_of_startsName hc⟩
  | digits cs =>
    obtain ⟨c, cs, rfl⟩ := List.exists_cons_of_ne_nil h.1.1
    exact ⟨c, cs, rfl, h.1.2 c (by simp)⟩

/-- What a path goes on with is the dot of a segment. -/
theorem eq_dot_of_dotted {segments : List Accessor} (h : segments.flatMap dotted = c :: rest) :
    c = '.' := by
  cases segments with
  | nil => cases h
  | cons a segments => exact (List.cons.inj h).1.symm

theorem endsName_dotted (segments : List Accessor) : Lexer.EndsName (segments.flatMap dotted) := by
  have hdot : Text.continuesName '.' = false := rfl
  intro c rest h
  rwa [eq_dot_of_dotted h]

theorem endsDigits_dotted (segments : List Accessor) :
    Lexer.EndsDigits (segments.flatMap dotted) := by
  intro c rest h
  rw [eq_dot_of_dotted h]
  rfl

/-- A segment is read on its own unless it is a number with another one after it. -/
theorem kinds_dotted {a : Accessor} {segments : List Accessor} (ha : a.Written)
    (hs : ∀ b ∈ segments, b.Written)
    (happ : ∀ b ∈ segments.head?, ¬(a.isNumber = true ∧ b.isNumber = true)) :
    Lexer.kinds? true (List.flatMap dotted (a :: segments)) =
      (Lexer.kinds? true (segments.flatMap dotted)).map (a.dottedTokens ++ ·) := by
  rw [List.flatMap_cons, dotted, List.cons_append, Lexer.kinds_dot]
  cases a with
  | name s =>
    have := Lexer.kinds_name ha (endsName_dotted segments) false
    rw [chars, this, Option.map_map]
    rfl
  | digits cs =>
    have hp (us : List Char) (h : segments.flatMap dotted = '.' :: us) : Lexer.EndsDigits us := by
      intro c rest hu
      cases segments with
      | nil => cases h
      | cons b segments =>
        obtain ⟨d, ds, hd, hn⟩ := exists_cons_of_written (hs b (by simp))
        rw [List.flatMap_cons, dotted, hd] at h
        cases hu.symm.trans (List.cons.inj h).2.symm
        have := happ b rfl
        simpa [hn, isNumber] using this
    have := Lexer.kinds_digits ha.1 (int64?_number ha.2) (endsDigits_dotted segments) hp false
    rw [chars, this, Option.map_map]
    rfl

/-- The tokens of a path in which numbers are apart. -/
theorem kinds_of_numbersApart {segments : List Accessor} (hs : ∀ a ∈ segments, a.Written)
    (h : NumbersApart segments) :
    Lexer.kinds? true (segments.flatMap dotted) = some (segments.flatMap dottedTokens) := by
  induction segments with
  | nil => exact Lexer.kinds_nil true
  | cons a segments ih =>
    rw [List.forall_mem_cons] at hs
    obtain ⟨happ, hrest⟩ := List.isChain_cons.mp h
    rw [kinds_dotted hs.1 hs.2 happ, ih hs.2 hrest]
    rfl

/-- Two numbers side by side leave a dot with a number with a fraction after it. -/
theorem exists_float_of_not_numbersApart {segments : List Accessor} (hs : ∀ a ∈ segments, a.Written)
    (h : ¬NumbersApart segments) (hk : Lexer.kinds? true (segments.flatMap dotted) = some ks) :
    ∃ front x back, ks = front ++ .symbol .dot :: .float x :: back := by
  induction segments generalizing ks with
  | nil => exact absurd .nil h
  | cons a segments ih =>
    rw [List.forall_mem_cons] at hs
    by_cases happ : ∀ b ∈ segments.head?, ¬(a.isNumber = true ∧ b.isNumber = true)
    · rw [kinds_dotted hs.1 hs.2 happ] at hk
      obtain ⟨ls, hl, rfl⟩ := Option.map_eq_some_iff.mp hk
      obtain ⟨front, x, back, rfl⟩ := ih hs.2 (fun hr => h (List.isChain_cons.mpr ⟨happ, hr⟩)) hl
      exact ⟨a.dottedTokens ++ front, x, back, by simp⟩
    · push Not at happ
      obtain ⟨b, hb, hna, hnb⟩ := happ
      obtain ⟨segments, rfl⟩ : ∃ rest, segments = b :: rest := List.head?_eq_some_iff.mp hb
      cases a with
      | name s => cases hna
      | digits whole =>
        cases b with
        | name s => cases hnb
        | digits fraction =>
          rw [List.flatMap_cons, dotted, List.cons_append, Lexer.kinds_dot] at hk
          obtain ⟨ls, hl, rfl⟩ := Option.map_eq_some_iff.mp hk
          have hf := (hs.2 (.digits fraction) (by simp)).1
          have hl : Lexer.kinds? false (whole ++ '.' :: fraction ++ segments.flatMap dotted) =
              some ls := by
            simpa [dotted, chars] using hl
          obtain ⟨x, back, rfl⟩ := Lexer.kinds_fraction hs.1.1 hf (endsDigits_dotted segments) hl
          exact ⟨[], x, back, rfl⟩

end Accessor

namespace Expr

/-- The chain of accesses that a path stands for. -/
def accessChain (root : String) (segments : List Accessor) : Expr :=
  segments.foldl Accessor.access (.var root)

/-- A path in which a dot is written before every segment. -/
def dottedPath (root : String) (segments : List Accessor) : String :=
  String.ofList (root.toList ++ segments.flatMap Accessor.dotted)

/-- A path in which numbers are written in brackets. -/
def bracketedPath (root : String) (segments : List Accessor) : String :=
  String.ofList (root.toList ++ segments.flatMap Accessor.bracketed)

theorem derives_accessChain {tokens : Accessor → List TokenKind} (hr : IsReference root)
    (h : ∀ a object ks, Derives .accessed ks object →
      Derives .accessed (ks ++ tokens a) (a.access object)) (segments : List Accessor) :
    Derives (.level .or) (.name root :: segments.flatMap tokens) (accessChain root segments) :=
  (Accessor.derives_foldl h segments (Derives.primary (.var hr.2))).loosest

theorem kinds_dottedPath (hr : IsReference root) (segments : List Accessor) :
    Lexer.kinds? false (root.toList ++ segments.flatMap Accessor.dotted) =
      (Lexer.kinds? true (segments.flatMap Accessor.dotted)).map (.name root :: ·) :=
  Lexer.kinds_name hr.1 (Accessor.endsName_dotted segments) false

theorem parse_dottedPath_of_numbersApart (hr : IsReference root)
    (hs : ∀ a ∈ segments, a.Written) (h : Accessor.NumbersApart segments) :
    parse (dottedPath root segments) = .ok (accessChain root segments) := by
  refine parse_eq_ok.mpr ⟨_, ?_, derives_accessChain hr (fun a _ _ => a.derives_dotted) segments⟩
  rw [kinds_dottedPath hr, Accessor.kinds_of_numbersApart hs h]
  rfl

theorem numbersApart_of_parse_dottedPath (hr : IsReference root)
    (hs : ∀ a ∈ segments, a.Written) (h : parse (dottedPath root segments) = .ok e) :
    Accessor.NumbersApart segments := by
  by_contra happ
  obtain ⟨ks, hk, hd⟩ := parse_eq_ok.mp h
  rw [kinds_dottedPath hr] at hk
  obtain ⟨ls, hl, rfl⟩ := Option.map_eq_some_iff.mp hk
  obtain ⟨front, x, back, rfl⟩ := Accessor.exists_float_of_not_numbersApart hs happ hl
  obtain ⟨us, ⟨name, hu⟩ | ⟨n, hu⟩⟩ := hd.dotsAccess (.name root :: front) (.float x :: back) rfl
  · cases hu
  · cases hu

theorem spells_bracketed (segments : List Accessor) (hs : ∀ a ∈ segments, a.Written) :
    Lexer.Spells (segments.flatMap Accessor.bracketed)
        (segments.flatMap Accessor.bracketedTokens) ∧
      Lexer.EndsName (segments.flatMap Accessor.bracketed) := by
  induction segments with
  | nil => exact ⟨.nil, by simp [Lexer.EndsName]⟩
  | cons a segments ih =>
    rw [List.forall_mem_cons] at hs
    obtain ⟨hspells, hends⟩ := ih hs.2
    rw [List.flatMap_cons, List.flatMap_cons]
    cases a with
    | name s =>
      have hdot : Text.continuesName '.' = false := rfl
      refine ⟨(hspells.name hs.1 hends).dot hs.1, ?_⟩
      rintro c rest ⟨⟩
      exact hdot
    | digits cs =>
      have hbracket : Text.continuesName '[' = false := rfl
      have hclose : Lexer.EndsNumber (']' :: segments.flatMap Accessor.bracketed) :=
        (Lexer.follows_closer (by simp) false _).endsNumber
      have hnumber := Accessor.int64?_number hs.1.2
      have := (hspells.closeBracket.digits hs.1.1 hnumber hclose).openBracket
      refine ⟨by simpa [Accessor.bracketed, Accessor.bracketedTokens] using this, ?_⟩
      rintro c rest ⟨⟩
      exact hbracket

theorem parse_bracketedPath (hr : IsReference root) (hs : ∀ a ∈ segments, a.Written) :
    parse (bracketedPath root segments) = .ok (accessChain root segments) := by
  obtain ⟨hspells, hends⟩ := spells_bracketed segments hs
  refine (hspells.name hr.1 hends).parse fun ts hts stop => ?_
  rw [Parser.whole_iff_derives, hts]
  exact derives_accessChain hr (fun a _ _ => a.derives_bracketed) segments

/-- A path is read as the chain of its accesses if its numbers stand in brackets. With a dot before
every segment it is read as the same chain if no two numbers stand side by side, and otherwise it is
not read at all. -/
theorem parse_dottedPath (hr : IsReference root) (hs : ∀ a ∈ segments, a.Written) :
    parse (bracketedPath root segments) = .ok (accessChain root segments) ∧
      ∀ e, parse (dottedPath root segments) = .ok e ↔
        e = accessChain root segments ∧ Accessor.NumbersApart segments := by
  refine ⟨parse_bracketedPath hr hs, fun e => ⟨fun h => ?_, ?_⟩⟩
  · have happ := numbersApart_of_parse_dottedPath hr hs h
    rw [parse_dottedPath_of_numbersApart hr hs happ] at h
    exact ⟨(Except.ok.inj h).symm, happ⟩
  · rintro ⟨rfl, happ⟩
    exact parse_dottedPath_of_numbersApart hr hs happ

/-- Numbers with a name between them. -/
theorem parse_dottedPath_of_name_between :
    parse "a.0.b.1" =
      .ok (.index (.field (.index (.var "a") (.literal (.int 0))) "b") (.literal (.int 1))) := by
  have ha : IsReference "a" := ⟨⟨'a', [], rfl, rfl, by simp⟩, rfl⟩
  have hb : IsName "b" := ⟨'b', [], rfl, rfl, by simp⟩
  have hzero : (Accessor.digits ['0']).Written := Accessor.written_of_all (by simp) rfl (by decide)
  have hone : (Accessor.digits ['1']).Written := Accessor.written_of_all (by simp) rfl (by decide)
  have hs : ∀ a ∈ [Accessor.digits ['0'], .name "b", .digits ['1']], a.Written := by
    intro a hm
    simp only [List.mem_cons, List.not_mem_nil, or_false] at hm
    rcases hm with rfl | rfl | rfl
    · exact hzero
    · exact hb
    · exact hone
  exact ((parse_dottedPath ha hs).2 _).mpr ⟨rfl, by simp [Accessor.NumbersApart, Accessor.isNumber]⟩

/-- Two numbers side by side: the dot between them is taken for a decimal point. -/
theorem not_parse_adjacent_numbers :
    ¬∀ root segments, IsReference root → segments ≠ [] → (∀ a ∈ segments, a.Written) →
      parse (dottedPath root segments) = .ok (accessChain root segments) := by
  intro h
  have ha : IsReference "a" := ⟨⟨'a', [], rfl, rfl, by simp⟩, rfl⟩
  have hzero : (Accessor.digits ['0']).Written := Accessor.written_of_all (by simp) rfl (by decide)
  have hone : (Accessor.digits ['1']).Written := Accessor.written_of_all (by simp) rfl (by decide)
  have hs : ∀ a ∈ [Accessor.digits ['0'], .digits ['1']], a.Written := by
    intro a hm
    simp only [List.mem_cons, List.not_mem_nil, or_false] at hm
    rcases hm with rfl | rfl
    · exact hzero
    · exact hone
  have happ := numbersApart_of_parse_dottedPath ha hs (h "a" _ ha (by simp) hs)
  simp [Accessor.NumbersApart, Accessor.isNumber] at happ

end Expr

end FormLetter
