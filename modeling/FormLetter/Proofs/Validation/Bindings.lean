import FormLetter.Proofs.Render.Rounds

namespace FormLetter

open Phrase (Yields)

/-- How a loop uses the name of a variable. -/
inductive Role where
  | item
  | index
  deriving DecidableEq

namespace Role

def name? (header : LoopHeader) : Role → Option String
  | item => some header.item
  | index => header.index

def value (round : Round) : Role → Value
  | item => round.item
  | index => .int (Int64.ofNat round.number)

end Role

namespace Validation

/-- What is known of a variable, given what is known around its loop. -/
def roleBinding (around : Env) (header : LoopHeader) (name : String) : Role → Binding
  | .item => itemBinding around header
  | .index => indexBinding name

theorem binding?_of_nearest (schema : Schema.Index) {rounds far : List (Option Round)}
    {round : Round} (h : IsNearest rounds name round far) :
    (envIn schema (rounds.map (Option.map Round.header))).binding? name =
      (envIn schema (some round.header :: far.map (Option.map Round.header))).binding? name := by
  obtain ⟨-, near, rfl, hnear⟩ := h
  induction near with
  | nil => rfl
  | cons first near ih =>
    have hrest := ih fun r hr => hnear r (List.mem_cons_of_mem first hr)
    cases first with
    | none => exact hrest
    | some r =>
      exact (binding?_loop_of_not_binds (hnear r List.mem_cons_self) schema _).trans hrest

/-- Both take a name for the same variable of a loop. -/
structure Agrees (env around : Env) (data : Context) (name : String) (round : Round)
    (role : Role) : Prop where
  named : role.name? round.header = some name
  found : env.binding? name = some (roleBinding around round.header name role)
  held : data.get? name = some (role.value round)
  /-- Only an index is a number by itself. An item is one if the items of the collection are. -/
  number : (env.infer (.var name)).1.kind = .number →
    role = .index ∨ (around.infer round.header.collection).1.element = some .number
  /-- Only an item is looked up below a path of its collection. -/
  path : ∀ b base, env.binding? name = some b → b.path = some base →
    role = .item ∧ round.header.collection.path?.bind around.schemaPath? = some base

theorem infer_var_of_binding? {env : Env} (h : env.binding? name = some b) :
    env.infer (.var name) = (b.type, []) := by
  unfold Env.infer Env.reference
  simp only [h]
  rfl

theorem kind_itemBinding {around : Env} {header : LoopHeader}
    (h : (itemBinding around header).type.kind = .number) :
    (around.infer header.collection).1.element = some .number := by
  unfold itemBinding at h
  cases he : (around.infer header.collection).1.element with
  | none =>
    rw [he] at h
    cases h
  | some kind =>
    rw [he] at h
    exact congrArg some h

namespace Agrees

variable {env around : Env} {data : Context} {round : Round}

theorem of_roles (role : Role) (hname : role.name? round.header = some name)
    (hfound : env.binding? name = some (roleBinding around round.header name role))
    (hheld : data.get? name = some (role.value round)) :
    Agrees env around data name round role := by
  refine ⟨hname, hfound, hheld, ?_, ?_⟩
  · rw [infer_var_of_binding? hfound]
    intro hk
    cases role with
    | item => exact .inr (kind_itemBinding hk)
    | index => exact .inl rfl
  · intro b base hb hbase
    rw [hfound] at hb
    cases hb
    cases role with
    | item => exact ⟨rfl, hbase⟩
    | index => cases hbase

end Agrees

/-- What the validation finds for a name, and what the rendering holds under it, in a round of the
nearest loop with a variable of that name. -/
structure SameLoop (env around : Env) (data : Context) (name : String) (round : Round) : Prop where
  agrees : ¬(round.header.item = name ∧ round.header.index = some name) →
    ∃ role, Agrees env around data name round role
  /-- The validation takes the item, and the rendering the index. -/
  differs : round.header.item = name ∧ round.header.index = some name →
    env.binding? name = some (roleBinding around round.header name .item) ∧
      data.get? name = some (Role.index.value round)

theorem sameLoop_of_nearest (schema : Schema.Index) {inner : Body} {far : List (Option Round)}
    {round : Round}
    (h : Descends functions data body rounds within inner) (hn : IsNearest rounds name round far) :
    ∃ around, ComesTo functions data body far round around ∧
      SameLoop (envIn schema (rounds.map (Option.map Round.header)))
        (envIn schema (far.map (Option.map Round.header))) within name round := by
  obtain ⟨around, hcomes, hget⟩ := h.get?_of_nearest hn
  have hfound := binding?_of_nearest schema hn
  rw [get?_bind] at hget
  rw [binding?_loop] at hfound
  refine ⟨around, hcomes, ?_, ?_⟩
  · intro hone
    by_cases hitem : round.header.item = name
    · have hindex : ¬round.header.index = some name := fun hindex => hone ⟨hitem, hindex⟩
      rw [if_pos hitem] at hfound
      rw [if_neg hindex, if_pos hitem] at hget
      exact ⟨.item, .of_roles .item (congrArg some hitem) hfound hget⟩
    · have hindex : round.header.index = some name := hn.1.resolve_left hitem
      rw [if_neg hitem, if_pos hindex] at hfound
      rw [if_pos hindex] at hget
      exact ⟨.index, .of_roles .index hindex hfound hget⟩
  · rintro ⟨hitem, hindex⟩
    rw [if_pos hitem] at hfound
    rw [if_pos hindex] at hget
    exact ⟨hfound, hget⟩

/-- Wherever a rendering comes to, its body stands in the source among tags after which the
validation finds for the name of a variable the nearest loop with a variable of that name, and that
loop also gives the name its value. -/
theorem exists_sameLoop (schema : Schema.Index) {inner : Body} (hy : Yields (.body body) ts)
    (h : Descends functions data body rounds within inner) :
    ∃ front us back, ts = front ++ us ++ back ∧ Yields (.body inner) us ∧
      bodySteps functions within inner <:+: bodySteps functions data body ∧
      ∀ name, (∃ round, some round ∈ rounds ∧ round.header.Binds name) →
        ∃ round far around, IsNearest rounds name round far ∧
          ComesTo functions data body far round around ∧
          SameLoop ⟨schema, (visitTokens schema [] front).2⟩
            (envIn schema (far.map (Option.map Round.header))) within name round := by
  obtain ⟨front, us, back, rfl, hinner, hblocks⟩ := h.standsIn hy
  refine ⟨front, us, back, rfl, hinner, h.steps_infix, ?_⟩
  intro name hbinds
  obtain ⟨round, far, hnearest⟩ := exists_nearest hbinds
  obtain ⟨around, hcomes, hsame⟩ := sameLoop_of_nearest schema h hnearest
  refine ⟨round, far, around, hnearest, hcomes, ?_⟩
  rw [visitTokens_scopes, hblocks]
  exact hsame

/-- An inner loop has its item called as the item of the outer one, which it goes through. -/
theorem exists_sameLoop_of_shadowing :
    let data : Context := [("xs", .array [.array [.string "a"]])]
    let outer : LoopHeader := ⟨none, "x", .var "xs"⟩
    let header : LoopHeader := ⟨some "i", "x", .var "x"⟩
    let value : Body := [.value (.var "x")]
    let body : Body := [.forBlock outer [.forBlock header value]]
    let ts : List MarkupToken := [⟨.forTag, "x in xs", 6⟩, ⟨.forTag, "i, x in x", 21⟩,
      ⟨.value, "x", 34⟩, ⟨.endTag, "", 42⟩, ⟨.endTag, "", 49⟩]
    let rounds : List (Option Round) :=
      [some ⟨header, 0, .string "a"⟩, some ⟨outer, 0, .array [.string "a"]⟩]
    let within :=
      Engine.bind (Engine.bind data outer 0 (.array [.string "a"])) header 0 (.string "a")
    Yields (.body body) ts ∧ Descends Functions.none data body rounds within value ∧
      ∃ front us back, ts = front ++ us ++ back ∧ Yields (.body value) us ∧
        ∃ round far around, IsNearest rounds "x" round far ∧
          ComesTo Functions.none data body far round around ∧
          SameLoop ⟨.empty, (visitTokens .empty [] front).2⟩
            (envIn .empty (far.map (Option.map Round.header))) within "x" round := by
  intro data outer header value body ts rounds within
  have hx : Expr.IsReference "x" :=
    ⟨isName_of_all (show "x".toList = ['x'] from rfl) rfl rfl, rfl⟩
  have hxs : Expr.IsReference "xs" :=
    ⟨isName_of_all (show "xs".toList = ['x', 's'] from rfl) rfl rfl, rfl⟩
  have hi : IsName "i" := isName_of_all (show "i".toList = ['i'] from rfl) rfl rfl
  have hfree : Parser.isReserved "x" = false ∧ Parser.isReserved "i" = false := ⟨rfl, rfl⟩
  have houter : LoopHeader.parse "x in xs" = .ok outer := by
    have hdisplay : outer.display = "x in xs" := by decide +kernel
    rw [← hdisplay]
    exact LoopHeader.parse_display_of_written
      ⟨by simpa [LoopHeader.variableTokens, outer] using hx.1,
        by simpa [LoopHeader.AreVariables, LoopHeader.variableTokens, outer] using hfree.1, hxs⟩
  have hheader : LoopHeader.parse "i, x in x" = .ok header := by
    have hdisplay : header.display = "i, x in x" := by decide +kernel
    rw [← hdisplay]
    exact LoopHeader.parse_display_of_written
      ⟨by simpa [LoopHeader.variableTokens, header] using ⟨hi, hx.1⟩,
        by simpa [LoopHeader.AreVariables, LoopHeader.variableTokens, header] using hfree.symm, hx⟩
  have hy : Yields (.body body) ts := by
    have ht : MarkupToken.Holds ⟨.value, "x", 34⟩ .value (.var "x") :=
      ⟨rfl, Expr.parse_of_isReference hx⟩
    have hloops : MarkupToken.Loops ⟨.forTag, "i, x in x", 21⟩ header := ⟨rfl, hheader⟩
    have hinner : Yields (.node (.forBlock header value))
        [⟨.forTag, "i, x in x", 21⟩, ⟨.value, "x", 34⟩, ⟨.endTag, "", 42⟩] :=
      .forBlock hloops (Phrase.Yields.value ht).single rfl
    have hloopsOuter : MarkupToken.Loops ⟨.forTag, "x in xs", 6⟩ outer := ⟨rfl, houter⟩
    have hloop : Yields (.node (.forBlock outer [.forBlock header value])) ts :=
      .forBlock hloopsOuter hinner.single rfl
    exact hloop.single
  have hd : Descends Functions.none data body rounds within value := by
    have hfirst : Node.Enters Functions.none data (.forBlock outer [.forBlock header value])
        (some ⟨outer, 0, .array [.string "a"]⟩) [.forBlock header value] :=
      .loop (v := .array [.array [.string "a"]]) rfl rfl rfl
    have hitem : (Expr.var "x").eval Functions.none
        (Engine.bind data outer 0 (.array [.string "a"])) = .ok (.array [.string "a"]) := by
      rw [Expr.eval, get?_bind]
      rfl
    have hsecond : Node.Enters Functions.none (Engine.bind data outer 0 (.array [.string "a"]))
        (.forBlock header value) (some ⟨header, 0, .string "a"⟩) value :=
      .loop (v := .array [.string "a"]) hitem rfl rfl
    exact .enter (.enter .here (List.mem_singleton_self _) hfirst)
      (List.mem_singleton_self _) hsecond
  refine ⟨hy, hd, ?_⟩
  obtain ⟨front, us, back, hts, hus, -, hsame⟩ := exists_sameLoop .empty hy hd
  exact ⟨front, us, back, hts, hus, hsame "x" ⟨_, List.mem_cons_self, .inl rfl⟩⟩

/-- A loop whose item and index have one name: the validation takes it for the item, a string here,
and the rendering puts the number of the round in its place. -/
theorem item_and_index_of_one_name :
    let data : Context := [("xs", .array [.string "a"])]
    let schema := Schema.index ⟨[⟨"xs", .array, false, some .string⟩], []⟩
    let header : LoopHeader := ⟨some "x", "x", .var "xs"⟩
    let value : Body := [.value (.var "x")]
    let t : MarkupToken := ⟨.forTag, "x, x in xs", 6⟩
    let ts : List MarkupToken := [t, ⟨.value, "x", 20⟩, ⟨.endTag, "", 28⟩]
    let within := Engine.bind data header 0 (.string "a")
    Yields (.body [.forBlock header value]) ts ∧
      Descends Functions.none data [.forBlock header value] [some ⟨header, 0, .string "a"⟩] within
        value ∧
      (Env.infer ⟨schema, (visitTokens schema [] [t]).2⟩ (.var "x")).1 = .ofKind .string ∧
      within.get? "x" = some (.int 0) := by
  intro data schema header value t ts within
  have hx : Expr.IsReference "x" :=
    ⟨isName_of_all (show "x".toList = ['x'] from rfl) rfl rfl, rfl⟩
  have hxs : Expr.IsReference "xs" :=
    ⟨isName_of_all (show "xs".toList = ['x', 's'] from rfl) rfl rfl, rfl⟩
  have hfree : Parser.isReserved "x" = false := rfl
  have hheader : LoopHeader.parse "x, x in xs" = .ok header := by
    have hdisplay : header.display = "x, x in xs" := by decide +kernel
    rw [← hdisplay]
    exact LoopHeader.parse_display_of_written
      ⟨by simpa [LoopHeader.variableTokens, header] using hx.1,
        by simpa [LoopHeader.AreVariables, LoopHeader.variableTokens, header] using hfree, hxs⟩
  have ht : t.Loops header := ⟨rfl, hheader⟩
  have hvalue : MarkupToken.Holds ⟨.value, "x", 20⟩ .value (.var "x") :=
    ⟨rfl, Expr.parse_of_isReference hx⟩
  have hloop : Yields (.node (.forBlock header value)) ts :=
    .forBlock ht (Phrase.Yields.value hvalue).single rfl
  have henter : Node.Enters Functions.none data (.forBlock header value)
      (some ⟨header, 0, .string "a"⟩) value :=
    .loop (v := .array [.string "a"]) rfl rfl rfl
  refine ⟨hloop.single, .enter .here (List.mem_singleton_self _) henter, ?_, ?_⟩
  · have hblocks : Blocks.after [] [t] = [some header] := Blocks.visit_loop ht []
    have hfound := binding?_loop schema header [] "x"
    rw [if_pos rfl] at hfound
    rw [visitTokens_scopes, hblocks]
    exact congrArg Prod.fst (infer_var_of_binding? hfound)
  · rw [get?_bind]
    rfl

end Validation

end FormLetter
