import FormLetter.Proofs.Expr.Faults
import FormLetter.Proofs.Expr.RoundTrip
import FormLetter.Proofs.Markup.Places
import FormLetter.Proofs.Validation.Acceptance

namespace FormLetter

open Outcome

/-- A byte offset at which a text can be cut in two. -/
def Text.IsBoundary (cs : List Char) (n : Nat) : Prop :=
  ∃ before after, cs = before ++ after ∧ n = Text.size8 before

namespace Body

open LoopHeader (placedIn_of_parse)

theorem expression_eq_error {t : MarkupToken} (h : expression t = .error e) :
    ∃ e' : ParseError, e'.PlacedIn t.value.toList ∧ e = e'.shift t.offset := by
  obtain ⟨e', he, rfl⟩ := mapError_eq_error.mp h
  exact ⟨e', Expr.placedIn_of_parse he, rfl⟩

theorem loopHeader_eq_error {t : MarkupToken} (h : loopHeader t = .error e) :
    ∃ e' : ParseError, e'.PlacedIn t.value.toList ∧ e = e'.shift t.offset := by
  obtain ⟨e', he, rfl⟩ := mapError_eq_error.mp h
  exact ⟨e', placedIn_of_parse he, rfl⟩

/-- Some end tags after them make tokens a body. -/
def EndedBy (ts ends : List MarkupToken) : Prop :=
  (∀ t ∈ ends, t.kind = .endTag) ∧ ∀ stop, ∃ body, ofTokens stop (ts ++ ends) = .ok body

/-- Whatever comes after them, tokens do not make up a body. -/
def Hopeless (ts : List MarkupToken) : Prop :=
  ∀ rest stop body, ofTokens stop (ts ++ rest) ≠ .ok body

end Body

/-- The error of a source, given its tokens, that is as early as an error can be. -/
inductive ParseError.Earliest (s : String) (ts : List MarkupToken) (e : ParseError) : Prop where
  /-- The tokens up to one are beyond help while those before it only miss ends of blocks. The
  error is at a character of its value, or at the end of it. -/
  | token : ts = before ++ t :: after → Body.EndedBy before ends → Body.Hopeless (before ++ [t]) →
      t.StandsIn s.toList → Text.IsBoundary s.toList e.position → t.offset ≤ e.position →
      e.position ≤ t.offset + Text.size8 t.value.toList → Earliest s ts e
  /-- All the tokens only miss ends of blocks. The error is that the source ends. -/
  | ending : ends ≠ [] → Body.EndedBy ts ends → e.position = s.utf8ByteSize →
      e.fault = .unexpectedEnd expected → Earliest s ts e

namespace Builder

open Body (expression loopHeader unbalanced missingEnd)

variable {b b' : Builder}

/-- A step that fails does so for the place of its tag, or for what is written in it. -/
theorem step_eq_error (h : b.step t = .error e) :
    (∃ fault, e = unbalanced t fault) ∨
      ∃ e' : ParseError, e'.PlacedIn t.value.toList ∧ e = e'.shift t.offset := by
  obtain ⟨frames, body⟩ := b
  have hexpression {f : Expr → Builder}
      (h : (do return f (← expression t)) = (.error e : Except ParseError Builder)) :
      ∃ e' : ParseError, e'.PlacedIn t.value.toList ∧ e = e'.shift t.offset := by
    rcases bind_eq_error.mp h with he | ⟨_, _, h⟩
    · exact Body.expression_eq_error he
    · cases h
  cases hk : t.kind with
  | text | pageBreak =>
    simp only [step, hk] at h
    cases h
  | value | includeTag | ifTag | unlessTag =>
    simp only [step, hk] at h
    exact .inr (hexpression h)
  | forTag =>
    simp only [step, hk] at h
    rcases bind_eq_error.mp h with he | ⟨_, _, h⟩
    · exact .inr (Body.loopHeader_eq_error he)
    · cases h
  | elsifTag =>
    simp only [step, hk] at h
    cases frames with
    | nil => cases h; exact .inl ⟨_, rfl⟩
    | cons frame frames =>
      obtain ⟨opener, block, before⟩ := frame
      cases block with
      | ifBranch => exact .inr (hexpression h)
      | _ => cases h; exact .inl ⟨_, rfl⟩
  | elseTag =>
    simp only [step, hk] at h
    cases frames with
    | nil => cases h; exact .inl ⟨_, rfl⟩
    | cons frame frames =>
      obtain ⟨opener, block, before⟩ := frame
      cases block with
      | ifBranch | unlessBody => cases h
      | _ => cases h; exact .inl ⟨_, rfl⟩
  | endTag =>
    simp only [step, hk] at h
    cases frames with
    | nil => cases h; exact .inl ⟨_, rfl⟩
    | cons frame frames => cases h

theorem run_append (h : us.foldlM step b = .ok b') (stop : Nat) (vs : List MarkupToken) :
    b.run stop (us ++ vs) = b'.run stop vs := by
  induction us generalizing b with
  | nil =>
    cases h
    rfl
  | cons t us ih =>
    rw [List.foldlM_cons] at h
    obtain ⟨b₁, hstep, h⟩ := bind_eq_ok.mp h
    rw [List.cons_append, run_cons, hstep, ok_bind]
    exact ih h

/-- Tokens are refused at the first that cannot be read, or for a block that is open after all of
them. -/
theorem run_eq_error (h : b.run stop ts = .error e) :
    (∃ before t after b', ts = before ++ t :: after ∧ before.foldlM step b = .ok b' ∧
      b'.step t = .error e) ∨
    ∃ b' frame outer, ts.foldlM step b = .ok b' ∧ b'.frames = frame :: outer ∧
      e = missingEnd stop frame.opener := by
  induction ts generalizing b with
  | nil =>
    right
    unfold run finish at h
    split at h
    · cases h
    · rename_i frame outer hf
      cases h
      exact ⟨b, frame, outer, rfl, hf, rfl⟩
  | cons t ts ih =>
    rcases bind_eq_error.mp h with hstep | ⟨b₁, hstep, h⟩
    · exact .inl ⟨[], t, ts, b, rfl, rfl, hstep⟩
    · have hfold (us : List MarkupToken) : (t :: us).foldlM step b = us.foldlM step b₁ := by
        rw [List.foldlM_cons, hstep, ok_bind]
      rcases ih h with ⟨before, u, after, b', rfl, hbefore, hu⟩ | ⟨b', frame, outer, hts, hb', he⟩
      · exact .inl ⟨t :: before, u, after, b', rfl, (hfold before).trans hbefore, hu⟩
      · exact .inr ⟨b', frame, outer, (hfold ts).trans hts, hb', he⟩

/-- As many end tags as there are open blocks make a body of what has been read. -/
theorem run_ends (hk : ∀ t ∈ ends, t.kind = .endTag) (hn : ends.length = b.frames.length)
    (stop : Nat) : ∃ body, b.run stop ends = .ok body := by
  rw [run_isOk_iff]
  refine ⟨fun t ht => by simp [MarkupToken.Readable, hk t ht], ?_⟩
  have hkinds : ends.map (·.kind) = List.replicate b.nesting.length .endTag := by
    rw [nesting, List.length_map, ← hn]
    exact List.map_eq_replicate_iff.mpr hk
  rw [hkinds]
  generalize b.nesting = blocks
  induction blocks with
  | nil => rfl
  | cons block blocks ih => exact (Nesting.balanced_cons rfl).mpr ih

/-- What has been read can be completed by end tags, one for each open block. -/
theorem endedBy_replicate (h : ts.foldlM step start = .ok b) :
    Body.EndedBy ts (List.replicate b.frames.length ⟨.endTag, "", 0⟩) := by
  have hk (t : MarkupToken) (ht : t ∈ List.replicate b.frames.length ⟨.endTag, "", 0⟩) :
      t.kind = .endTag := by
    rw [List.eq_of_mem_replicate ht]
  refine ⟨hk, fun stop => ?_⟩
  rw [ofTokens_eq_run, run_append h]
  exact run_ends hk (by simp) stop

end Builder

/-- The error of a tag stands at a place of the value of the tag, which stands in the source. -/
theorem MarkupToken.StandsIn.isBoundary {t : MarkupToken} (h : t.StandsIn cs)
    (he : ParseError.PlacedIn e t.value.toList) :
    Text.IsBoundary cs (e.position + t.offset) ∧
      e.position ≤ Text.size8 t.value.toList := by
  obtain ⟨before, after, rfl, hoffset⟩ := h
  obtain ⟨front, back, hvalue, hposition, _⟩ := he
  refine ⟨⟨before ++ front, back ++ after, by simp [hvalue], ?_⟩, ?_⟩
  · rw [Text.size8_append, hposition, hoffset, Nat.add_comm]
  · rw [hvalue, Text.size8_append, hposition]
    exact Nat.le_add_right _ _

namespace Template

theorem parse_eq_error (hts : Markup.tokens s = .ok ts) (h : Template.parse s = .error e) :
    Body.ofTokens s.utf8ByteSize ts = .error e := by
  rw [Template.parse, hts, ok_bind] at h
  rcases bind_eq_error.mp h with h | ⟨_, _, h⟩
  · exact h
  · cases h

/-- A source that is cut into tokens but refused is refused as early as can be. -/
theorem parse_error_earliest (hts : Markup.tokens s = .ok ts) (h : Template.parse s = .error e) :
    e.Earliest s ts := by
  have hrun := parse_eq_error hts h
  rw [Builder.ofTokens_eq_run] at hrun
  rcases Builder.run_eq_error hrun with ⟨before, t, after, b, rfl, hbefore, hstep⟩ |
    ⟨b, frame, outer, hall, hframes, rfl⟩
  · have hends := Builder.endedBy_replicate hbefore
    have hhopeless : Body.Hopeless (before ++ [t]) := by
      intro rest stop body hbody
      rw [List.append_assoc, List.singleton_append, Builder.ofTokens_eq_run,
        Builder.run_append hbefore, Builder.run_cons, hstep] at hbody
      cases hbody
    have hstands := (Markup.standsIn_of_tokens hts (t := t) (by simp)).1
    rcases Builder.step_eq_error hstep with ⟨fault, rfl⟩ | ⟨e', he', rfl⟩
    · have hboundary : Text.IsBoundary s.toList t.offset := by
        obtain ⟨front, back, hs, hoffset⟩ := hstands
        exact ⟨front, _, by rw [hs, List.append_assoc], hoffset⟩
      exact .token rfl hends hhopeless hstands hboundary (Nat.le_refl _) (Nat.le_add_right _ _)
    · obtain ⟨hboundary, hle⟩ := hstands.isBoundary he'
      refine .token rfl hends hhopeless hstands hboundary (Nat.le_add_left _ _) ?_
      change e'.position + t.offset ≤ _
      omega
  · have hne : List.replicate b.frames.length (⟨.endTag, "", 0⟩ : MarkupToken) ≠ [] := by
      simp [hframes]
    exact .ending hne (Builder.endedBy_replicate hall) rfl rfl

/-- A tag with a character that belongs to no expression, in a block that is not ended. -/
theorem parse_stray_character :
    let s := "é\x7b\x7bif a\x7d\x7d\x7b\x7b a # \x7d\x7d"
    Markup.tokens s = .ok [⟨.text, "é", 0⟩, ⟨.ifTag, "a", 7⟩, ⟨.value, "a #", 13⟩] ∧
      Template.parse s = .error ⟨15, .lexical ⟨2, .unexpectedCharacter '#'⟩⟩ := by
  intro s
  have hts : Markup.tokens s = .ok [⟨.text, "é", 0⟩, ⟨.ifTag, "a", 7⟩, ⟨.value, "a #", 13⟩] := by
    decide +kernel
  have ha : Expr.parse "a" = .ok (.var "a") :=
    Expr.parse_of_isReference ⟨⟨'a', [], rfl, rfl, by simp⟩, rfl⟩
  have hname : Lexer.lexeme false 'a' [' ', '#'] = .ok ⟨.name "a", ['a'], [' ', '#']⟩ := by rfl
  have hhash : Lexer.lexeme false '#' [] = .error (.unexpectedCharacter '#') := by rfl
  have hlex : Lexer.lexFrom 0 false "a #".toList = .error ⟨2, .unexpectedCharacter '#'⟩ := by
    change Lexer.lexFrom 0 false ['a', ' ', '#'] = _
    rw [Lexer.lexFrom_lexeme (by decide) hname, Lexer.lexFrom_blank (by decide),
      Lexer.lexFrom_error (by decide) hhash]
    rfl
  have hparse : Expr.parse "a #" = .error ⟨2, .lexical ⟨2, .unexpectedCharacter '#'⟩⟩ := by
    simp only [Expr.parse, Tokens.parse, Tokens.ofChars?, hlex]
    rfl
  refine ⟨hts, ?_⟩
  simp only [Template.parse, hts, ok_bind, Builder.ofTokens_eq_run, Builder.run, Builder.step,
    Body.expression, ha, hparse, mapError_ok, mapError_error, pure_eq_ok, error_bind]
  rfl

theorem parse_error_earliest_of_stray :
    let s := "é\x7b\x7bif a\x7d\x7d\x7b\x7b a # \x7d\x7d"
    let ts : List MarkupToken := [⟨.text, "é", 0⟩, ⟨.ifTag, "a", 7⟩, ⟨.value, "a #", 13⟩]
    let e : ParseError := ⟨15, .lexical ⟨2, .unexpectedCharacter '#'⟩⟩
    Markup.tokens s = .ok ts ∧ Template.parse s = .error e ∧ e.Earliest s ts :=
  ⟨parse_stray_character.1, parse_stray_character.2,
    parse_error_earliest parse_stray_character.1 parse_stray_character.2⟩

/-- A source that cannot be cut into tokens has a tag that nothing closes. -/
theorem fault_of_tokensFrom (h : Markup.tokensFrom position cs = .error e) :
    e.fault = .unclosedTag := by
  fun_induction Markup.tokensFrom position cs with
  | case1 => cases h
  | case2 => cases h; rfl
  | case3 => rename_i he ih; cases h; exact ih he
  | case4 => cases h

/-- A source that is refused for a character, a quote or a number in one of its tags is refused at
the byte where that stands, whatever comes before the tag. The lexical error itself counts from the
value of the tag, so it never names that byte. -/
theorem lexical_error_places (h : Template.parse s = .error ⟨p, .lexical l⟩) :
    ∃ ts t before skipped inner after, Markup.tokens s = .ok ts ∧ t ∈ ts ∧
      s.toList = before ++ (skipped ++ inner) ++ after ∧ t.value.toList = skipped ++ inner ∧
      t.offset = Text.size8 before ∧ l.fault.At inner ∧ p = Text.size8 (before ++ skipped) ∧
      l.position = Text.size8 skipped ∧ l.position ≠ p := by
  cases hts : Markup.tokens s with
  | error e =>
    rw [Template.parse, hts, error_bind] at h
    cases h
    cases fault_of_tokensFrom hts
  | ok ts =>
    have hrun := parse_eq_error hts h
    rw [Builder.ofTokens_eq_run] at hrun
    rcases Builder.run_eq_error hrun with ⟨earlier, t, later, b, rfl, _, hstep⟩ |
      ⟨b, frame, outer, _, _, he⟩
    · obtain ⟨⟨before, after, hs, hoffset⟩, htag⟩ :=
        Markup.standsIn_of_tokens hts (t := t) (by simp)
      have hkind : t.isTag = true := by
        simp only [MarkupToken.isTag, bne_iff_ne]
        intro hk
        simp only [Builder.step, hk] at hstep
        cases hstep
      have htwo := htag hkind
      rcases Builder.step_eq_error hstep with ⟨fault, he⟩ | ⟨e', he', he⟩
      · cases he
      · obtain ⟨skipped, inner, hvalue, hposition, hlexical⟩ := he'
        obtain ⟨rfl, hfault⟩ := ParseError.mk.inj he
        obtain ⟨hl, hat⟩ := hlexical l hfault.symm
        refine ⟨_, t, before, skipped, inner, after, rfl, by simp, hvalue ▸ hs, hvalue, hoffset,
          hat, ?_, hl.trans hposition, ?_⟩
        · rw [hposition, hoffset, Text.size8_append, Nat.add_comm]
        · omega
    · cases he

theorem lexical_error_places_of_stray :
    let s := "é\x7b\x7bif a\x7d\x7d\x7b\x7b a # \x7d\x7d"
    let l : LexError := ⟨2, .unexpectedCharacter '#'⟩
    Template.parse s = .error ⟨15, .lexical l⟩ ∧
    ∃ ts t before skipped inner after, Markup.tokens s = .ok ts ∧ t ∈ ts ∧
      s.toList = before ++ (skipped ++ inner) ++ after ∧ t.value.toList = skipped ++ inner ∧
      t.offset = Text.size8 before ∧ l.fault.At inner ∧ 15 = Text.size8 (before ++ skipped) ∧
      l.position = Text.size8 skipped ∧ l.position ≠ 15 :=
  ⟨parse_stray_character.2, lexical_error_places parse_stray_character.2⟩

/-- The place that a lexical error names of itself is not that of the error it is part of. -/
theorem lexical_error_elsewhere :
    ¬∀ s p l, Template.parse s = .error ⟨p, .lexical l⟩ → l.position = p := by
  intro h
  cases h _ _ _ parse_stray_character.2

end Template

end FormLetter
