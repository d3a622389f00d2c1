import FormLetter.Proofs.Expr.Variables
import FormLetter.Proofs.Template.Written
import FormLetter.Render
import FormLetter.Template.References

namespace FormLetter

open Outcome

namespace Template

/-- Fields and indexes start with these characters, which no name has. -/
def isAccess (c : Char) : Bool :=
  c == '.' || c == '['

/-- The variable that a reference starts at. -/
def root (reference : String) : String :=
  String.ofList (reference.toList.takeWhile fun c => !isAccess c)

end Template

theorem IsName.not_isAccess (h : IsName s) (hc : c ∈ s.toList) : Template.isAccess c = false := by
  obtain ⟨d, ds, hs, hd, hds⟩ := h
  rw [hs] at hc
  by_contra hx
  simp only [Template.isAccess, Bool.not_eq_false, Bool.or_eq_true, beq_iff_eq] at hx
  rcases List.mem_cons.mp hc with rfl | hc
  · obtain rfl | rfl := hx <;> cases hd
  · have := hds c hc
    obtain rfl | rfl := hx <;> cases this

theorem ReferencePath.root_display {path : ReferencePath} (h : IsName path.root) :
    Template.root path.display = path.root := by
  have hroot : ∀ c ∈ path.root.toList, (!Template.isAccess c) = true := fun c hc => by
    rw [h.not_isAccess hc]
    rfl
  rw [Template.root, display, String.toList_ofList, List.takeWhile_append_of_pos hroot]
  cases path.segments with
  | nil => simp
  | cons segment segments =>
    cases segment <;> simp [PathSegment.chars, Template.isAccess]

/-- A path in source text starts at a name. -/
theorem Expr.Written.isName_root : (e : Expr) → e.Written → ∀ {path}, e.path? = some path →
    IsName path.root
  | .var name, hw, path, hp => by
    cases hp
    exact hw.1
  | .field object name, hw, path, hp => by
    obtain ⟨inner, hi, rfl⟩ := Option.map_eq_some_iff.mp hp
    have hroot := isName_root object hw.1 hi
    exact hroot
  | .index object key, hw, path, hp => by
    obtain ⟨inner, hi, rfl⟩ := Option.map_eq_some_iff.mp hp
    have hroot := isName_root object hw.1 hi
    exact hroot
  | .literal _, _, _, hp | .unary _ _, _, _, hp | .binary _ _ _, _, _, hp
  | .call _ _, _, _, hp => nomatch hp
termination_by structural e => e

namespace Template

theorem grows_addPath (locals : List String) (path : ReferencePath) (found : List String) :
    found <+: addPath locals path found := by
  unfold addPath
  split
  · exact List.prefix_refl found
  · exact List.prefix_append found _

mutual
theorem grows_addExpr (locals : List String) : (e : Expr) → (found : List String) →
    found <+: addExpr locals e found
  | .literal _, found => List.prefix_refl found
  | .var name, found => grows_addPath locals ⟨name, []⟩ found
  | .field object name, found => by
    unfold addExpr
    split
    · exact (grows_addPath locals _ found).trans (grows_addKeys locals object _)
    · exact grows_addExpr locals object found
  | .index object key, found => by
    unfold addExpr
    split
    · exact ((grows_addPath locals _ found).trans (grows_addKeys locals object _)).trans
        (grows_addExpr locals key _)
    · exact (grows_addExpr locals object found).trans (grows_addExpr locals key _)
  | .unary _ operand, found => grows_addExpr locals operand found
  | .binary _ left right, found =>
    (grows_addExpr locals left found).trans (grows_addExpr locals right _)
  | .call _ args, found => grows_addArgs locals args found
termination_by structural e => e

theorem grows_addKeys (locals : List String) : (e : Expr) → (found : List String) →
    found <+: addKeys locals e found
  | .field object _, found => grows_addKeys locals object found
  | .index object key, found =>
    (grows_addKeys locals object found).trans (grows_addExpr locals key _)
  | .literal _, found | .var _, found | .unary _ _, found | .binary _ _ _, found
  | .call _ _, found => List.prefix_refl found
termination_by structural e => e

theorem grows_addArgs (locals : List String) : (es : List Expr) → (found : List String) →
    found <+: addArgs locals es found
  | [], found => List.prefix_refl found
  | arg :: args, found => (grows_addExpr locals arg found).trans (grows_addArgs locals args _)
termination_by structural es => es
end

mutual
theorem grows_addNode (locals : List String) : (node : Node) → (found : List String) →
    found <+: addNode locals node found
  | .text _, found | .pageBreak, found => List.prefix_refl found
  | .value e, found | .includeTag e, found => grows_addExpr locals e found
  | .ifBlock branches otherwise, found =>
    (grows_addBranches locals branches found).trans (grows_addOtherwise locals otherwise _)
  | .unlessBlock condition body otherwise, found =>
    ((grows_addExpr locals condition found).trans (grows_addBody locals body _)).trans
      (grows_addOtherwise locals otherwise _)
  | .forBlock header body, found =>
    (grows_addExpr locals header.collection found).trans (grows_addBody _ body _)
termination_by structural node => node

theorem grows_addBody (locals : List String) : (body : List Node) → (found : List String) →
    found <+: addBody locals body found
  | [], found => List.prefix_refl found
  | node :: body, found => (grows_addNode locals node found).trans (grows_addBody locals body _)
termination_by structural body => body

theorem grows_addBranches (locals : List String) : (branches : List (Expr × List Node)) →
    (found : List String) → found <+: addBranches locals branches found
  | [], found => List.prefix_refl found
  | (condition, body) :: branches, found =>
    ((grows_addExpr locals condition found).trans (grows_addBody locals body _)).trans
      (grows_addBranches locals branches _)
termination_by structural branches => branches

theorem grows_addOtherwise (locals : List String) : (otherwise : Option (List Node)) →
    (found : List String) → found <+: addOtherwise locals otherwise found
  | none, found => List.prefix_refl found
  | some body, found => grows_addBody locals body found
termination_by structural otherwise => otherwise
end

/-- A variable is local or the start of a reference that was found. -/
def Covers (locals found : List String) (v : String) : Prop :=
  v ∈ locals ∨ v ∈ found.map root

theorem Covers.mono (h : Covers locals found v) (hf : found <+: later) : Covers locals later v :=
  h.imp_right fun hv => (hf.map root).subset hv

theorem covers_addPath (h : IsName path.root) (locals found : List String) :
    Covers locals (addPath locals path found) path.root := by
  unfold addPath
  split
  · rename_i hx
    simp only [Bool.or_eq_true, List.contains_iff_mem] at hx
    exact hx.imp_right fun hf => List.mem_map.mpr ⟨_, hf, ReferencePath.root_display h⟩
  · exact .inr (List.mem_map.mpr ⟨path.display, by simp, ReferencePath.root_display h⟩)

mutual
/-- Every variable of an expression is covered once its references are added. -/
theorem covers_addExpr (locals : List String) : (e : Expr) → e.Written →
    (found : List String) → v ∈ e.vars → Covers locals (addExpr locals e found) v
  | .literal _, _, _, hv => nomatch hv
  | .var name, hw, found, hv => by
    obtain rfl := List.mem_singleton.mp hv
    have hname : IsName (⟨v, []⟩ : ReferencePath).root := hw.1
    exact covers_addPath hname locals found
  | .field object name, hw, found, hv => by
    unfold addExpr
    split
    · rename_i path hp
      obtain ⟨inner, hi, rfl⟩ := Option.map_eq_some_iff.mp hp
      rcases covers_addKeys locals object hw.1 hi (addPath locals _ found) hv with rfl | hc
      · exact (covers_addPath (Expr.Written.isName_root _ hw hp) locals found).mono
          (grows_addKeys locals object _)
      · exact hc
    · exact covers_addExpr locals object hw.1 found hv
  | .index object key, hw, found, hv => by
    unfold addExpr
    split
    · rename_i path hp
      obtain ⟨inner, hi, rfl⟩ := Option.map_eq_some_iff.mp hp
      rcases List.mem_append.mp hv with hv | hv
      · rcases covers_addKeys locals object hw.1 hi (addPath locals _ found) hv with rfl | hc
        · exact (covers_addPath (Expr.Written.isName_root _ hw hp) locals found).mono
            ((grows_addKeys locals object _).trans (grows_addExpr locals key _))
        · exact hc.mono (grows_addExpr locals key _)
      · exact covers_addExpr locals key hw.2 _ hv
    · rcases List.mem_append.mp hv with hv | hv
      · exact (covers_addExpr locals object hw.1 found hv).mono (grows_addExpr locals key _)
      · exact covers_addExpr locals key hw.2 _ hv
  | .unary _ operand, hw, found, hv => covers_addExpr locals operand hw found hv
  | .binary _ left right, hw, found, hv => by
    rcases List.mem_append.mp hv with hv | hv
    · exact (covers_addExpr locals left hw.1 found hv).mono (grows_addExpr locals right _)
    · exact covers_addExpr locals right hw.2 _ hv
  | .call _ args, hw, found, hv => covers_addArgs locals args hw.2 found hv
termination_by structural e => e

/-- Along a path there is one more variable: the one that it starts at. -/
theorem covers_addKeys (locals : List String) : (e : Expr) → e.Written →
    ∀ {path}, e.path? = some path → (found : List String) → v ∈ e.vars →
    v = path.root ∨ Covers locals (addKeys locals e found) v
  | .var name, _, path, hp, _, hv => by
    cases hp
    exact .inl (List.mem_singleton.mp hv)
  | .field object name, hw, path, hp, found, hv => by
    obtain ⟨inner, hi, rfl⟩ := Option.map_eq_some_iff.mp hp
    exact covers_addKeys locals object hw.1 hi found hv
  | .index object key, hw, path, hp, found, hv => by
    obtain ⟨inner, hi, rfl⟩ := Option.map_eq_some_iff.mp hp
    rcases List.mem_append.mp hv with hv | hv
    · exact (covers_addKeys locals object hw.1 hi found hv).imp_right fun hc =>
        hc.mono (grows_addExpr locals key _)
    · exact .inr (covers_addExpr locals key hw.2 _ hv)
  | .literal _, _, _, hp, _, _ | .unary _ _, _, _, hp, _, _ | .binary _ _ _, _, _, hp, _, _
  | .call _ _, _, _, hp, _, _ => nomatch hp
termination_by structural e => e

theorem covers_addArgs (locals : List String) : (es : List Expr) → Expr.AllWritten es →
    (found : List String) → v ∈ Expr.argVars es → Covers locals (addArgs locals es found) v
  | [], _, _, hv => nomatch hv
  | arg :: args, hw, found, hv => by
    rcases List.mem_append.mp hv with hv | hv
    · exact (covers_addExpr locals arg hw.1 found hv).mono (grows_addArgs locals args _)
    · exact covers_addArgs locals args hw.2 _ hv
termination_by structural es => es
end

/-- Two contexts hold the same for every variable that is covered. -/
def Agree (locals found : List String) (c c' : Context) : Prop :=
  ∀ v, Covers locals found v → c.get? v = c'.get? v

theorem Agree.before (h : Agree locals later c c') (hf : found <+: later) :
    Agree locals found c c' :=
  fun v hv => h v (hv.mono hf)

/-- In a round of a loop its variables are local. -/
theorem Agree.bind (h : Agree locals found c c') (header : LoopHeader) (n : Nat) (item : Value) :
    Agree (header.item :: header.index.toList ++ locals) found
      (Engine.bind c header n item) (Engine.bind c' header n item) := by
  intro v hv
  have hother (hi : v ≠ header.item) (hx : v ∉ header.index.toList) : c.get? v = c'.get? v :=
    h v (hv.imp_left fun hl => by simpa [hi, hx] using hl)
  unfold Engine.bind
  cases hx : header.index with
  | none =>
    rw [hx] at hother
    by_cases hi : v = header.item
    · simp [Dict.get?_insert, hi]
    · simpa [Dict.get?_insert, hi] using hother hi
  | some index =>
    rw [hx] at hother
    by_cases hn : v = index
    · simp [Dict.get?_insert, hn]
    · by_cases hi : v = header.item
      · simp [Dict.get?_insert, hi]
      · simpa [Dict.get?_insert, hn, hi] using hother hi

theorem Agree.value (h : Agree locals found c c') (hg : addExpr locals e start <+: found)
    (hw : e.Written) (engine : Engine) : engine.value c e = engine.value c' e := by
  have he : e.eval engine.functions c = e.eval engine.functions c' :=
    e.eval_congr engine.functions fun v hv => h v ((covers_addExpr locals e hw start hv).mono hg)
  rw [Engine.value, Engine.value, he]

/-- The pieces of a source that includes nothing. -/
def SelfContained (ps : List Piece) : Prop :=
  ∀ p ∈ ps, p.Written ∧ p.kind ≠ .includeTag

variable (engine : Engine) (includes : Context → Expr → Render Output)

mutual
theorem node_congr : (node : Node) → SelfContained node.pieces →
    ∀ {locals found c c'}, Agree locals (addNode locals node found) c c' →
    engine.node includes c node = engine.node includes c' node
  | .text _, _, _, _, _, _, _ | .pageBreak, _, _, _, _, _, _ => rfl
  | .includeTag name, hp, _, _, _, _, _ =>
    absurd rfl (hp ⟨.includeTag, .expression name⟩ (by simp [Node.pieces])).2
  | .value e, hp, locals, found, c, c', h => by
    have hw := (hp ⟨.value, .expression e⟩ (by simp [Node.pieces])).1
    have hv := h.value (List.prefix_refl _) hw engine
    rw [Engine.node, Engine.node, hv]
  | .ifBlock branches otherwise, hp, locals, found, c, c', h => by
    have ho := otherwise_congr otherwise (fun p hm => hp p (by simp [Node.pieces, hm])) h
    have hb := branches_congr (engine.otherwise includes c' otherwise) branches .ifTag
      (fun p hm => hp p (by simp [Node.pieces, hm]))
      (h.before (grows_addOtherwise locals otherwise _))
    rw [Engine.node, Engine.node, ho, hb]
  | .unlessBlock condition body otherwise, hp, locals, found, c, c', h => by
    have hw := (hp ⟨.unlessTag, .expression condition⟩ (by simp [Node.pieces])).1
    have hv := h.value ((grows_addBody locals body _).trans (grows_addOtherwise locals otherwise _))
      hw engine
    have hb := body_congr body (fun p hm => hp p (by simp [Node.pieces, hm]))
      (h.before (grows_addOtherwise locals otherwise _))
    have ho := otherwise_congr otherwise (fun p hm => hp p (by simp [Node.pieces, hm])) h
    rw [Engine.node, Engine.node, hv, hb, ho]
  | .forBlock header body, hp, locals, found, c, c', h => by
    have hw := (hp ⟨.forTag, .header header⟩ (by simp [Node.pieces])).1
    have hv := h.value (grows_addBody _ body _) hw engine
    have hb (n : Nat) (item : Value) :
        engine.body includes (Engine.bind c header n item) body =
          engine.body includes (Engine.bind c' header n item) body :=
      body_congr body (fun p hm => hp p (by simp [Node.pieces, hm])) (h.bind header n item)
    simp only [Engine.node, hv, hb]
termination_by structural node => node

theorem body_congr : (body : List Node) → SelfContained (bodyPieces body) →
    ∀ {locals found c c'}, Agree locals (addBody locals body found) c c' →
    engine.body includes c body = engine.body includes c' body
  | [], _, _, _, _, _, _ => rfl
  | node :: body, hp, locals, found, c, c', h => by
    have hn := node_congr node (fun p hm => hp p (by simp [bodyPieces, hm]))
      (h.before (grows_addBody locals body _))
    have hb := body_congr body (fun p hm => hp p (by simp [bodyPieces, hm])) h
    rw [Engine.body, Engine.body, hn, hb]
termination_by structural body => body

theorem branches_congr (last : Render Output) : (branches : List (Expr × List Node)) →
    (kind : MarkupKind) → SelfContained (branchPieces kind branches) →
    ∀ {locals found c c'}, Agree locals (addBranches locals branches found) c c' →
    engine.branches includes c last branches = engine.branches includes c' last branches
  | [], _, _, _, _, _, _, _ => rfl
  | (condition, body) :: branches, kind, hp, locals, found, c, c', h => by
    have hw := (hp ⟨kind, .expression condition⟩ (by simp [branchPieces])).1
    have hv := h.value ((grows_addBody locals body _).trans (grows_addBranches locals branches _))
      hw engine
    have hb := body_congr body (fun p hm => hp p (by simp [branchPieces, hm]))
      (h.before (grows_addBranches locals branches _))
    have hr := branches_congr last branches .elsifTag
      (fun p hm => hp p (by simp [branchPieces, hm])) h
    rw [Engine.branches, Engine.branches, hv, hb, hr]
termination_by structural branches => branches

theorem otherwise_congr : (otherwise : Option (List Node)) →
    SelfContained (otherwisePieces otherwise) →
    ∀ {locals found c c'}, Agree locals (addOtherwise locals otherwise found) c c' →
    engine.otherwise includes c otherwise = engine.otherwise includes c' otherwise
  | none, _, _, _, _, _, _ => rfl
  | some body, hp, locals, found, c, c', h => by
    have hb := body_congr body (fun p hm => hp p (by simp [otherwisePieces, hm])) h
    rw [Engine.otherwise, Engine.otherwise, hb]
termination_by structural otherwise => otherwise
end

theorem selfContained_of_parse {source : String} (hp : Template.parse source = .ok t)
    (hts : Markup.tokens source = .ok ts) (hi : ∀ token ∈ ts, token.kind ≠ .includeTag) :
    SelfContained (bodyPieces t.body) := by
  intro p hm
  obtain ⟨hw, token, ht, hk⟩ := exists_token_of_piece hp hts hm
  exact ⟨hw, hk ▸ hi token ht⟩

/-- A template without include tags gives the same output or the same error, with the same markers,
for two contexts that hold the same for every variable that one of its references starts at. -/
theorem renderIn_eq_of_references (engine : Engine) (s : RenderState) {source : String}
    (hp : Template.parse source = .ok t) (hts : Markup.tokens source = .ok ts)
    (hi : ∀ token ∈ ts, token.kind ≠ .includeTag) (data data' : Context)
    (h : ∀ reference ∈ t.references, data.get? (root reference) = data'.get? (root reference)) :
    engine.renderIn s data t = engine.renderIn s data' t := by
  have hagree : Agree [] (addBody [] t.body []) data data' := by
    intro v hv
    obtain hl | hf := hv
    · cases hl
    · obtain ⟨reference, hr, rfl⟩ := List.mem_map.mp hf
      exact h reference hr
  have hbody (includes : Context → Expr → Render Output) :
      engine.body includes data t.body = engine.body includes data' t.body :=
    body_congr engine includes t.body (selfContained_of_parse hp hts hi) hagree
  simp only [Engine.renderIn, Engine.renderBody, hbody]

/-- The variable of a loop hides one that the data holds. -/
theorem renderIn_eq_of_references_loop :
    let source := "\x7b\x7bfor x in xs\x7d\x7d\x7b\x7bx\x7d\x7d\x7b\x7bend\x7d\x7d"
    let t : Template := ⟨source, [.forBlock ⟨none, "x", .var "xs"⟩ [.value (.var "x")]]⟩
    Template.parse source = .ok t ∧ t.references = ["xs"] ∧
      Engine.plain.renderIn .fresh [("x", .int 1), ("xs", .array [.null])] t =
        Engine.plain.renderIn .fresh [("x", .int 2), ("xs", .array [.null])] t := by
  intro source t
  have hx : Expr.IsReference "x" :=
    ⟨isName_of_all (show "x".toList = ['x'] from rfl) rfl rfl, rfl⟩
  have hxs : Expr.IsReference "xs" :=
    ⟨isName_of_all (show "xs".toList = ['x', 's'] from rfl) rfl rfl, rfl⟩
  have hdisplay : LoopHeader.display ⟨none, "x", .var "xs"⟩ = "x in xs" := by decide +kernel
  have hfree : Parser.isReserved "x" = false := by decide
  have hheader : LoopHeader.parse "x in xs" = .ok ⟨none, "x", .var "xs"⟩ := by
    rw [← hdisplay]
    exact LoopHeader.parse_display_of_written ⟨by simpa [LoopHeader.variableTokens] using hx.1,
      by simpa [LoopHeader.AreVariables, LoopHeader.variableTokens] using hfree, hxs⟩
  have hts : Markup.tokens source =
      .ok [⟨.forTag, "x in xs", 6⟩, ⟨.value, "x", 17⟩, ⟨.endTag, "", 25⟩] := by decide +kernel
  have hp : Template.parse source = .ok t := by
    refine parse_eq_ok.mpr ⟨rfl, _, hts, ?_⟩
    simp only [Builder.ofTokens_eq_run, Builder.run, Builder.step, Body.loopHeader,
      Body.expression, hheader, Expr.parse_of_isReference hx, mapError_ok, ok_bind]
    rfl
  have hr : t.references = ["xs"] := by decide +kernel
  refine ⟨hp, hr, renderIn_eq_of_references Engine.plain .fresh hp hts (by decide) _ _ ?_⟩
  have hroot : root "xs" = "xs" := by decide +kernel
  simp [hr, hroot, Dict.get?]

end Template

end FormLetter
