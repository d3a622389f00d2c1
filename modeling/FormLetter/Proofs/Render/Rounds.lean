import FormLetter.Proofs.Render.Steps
import FormLetter.Proofs.Validation.Enclosing

namespace FormLetter

open Phrase (Yields)

/-- A round of a loop. -/
structure Round where
  header : LoopHeader
  number : Nat
  item : Value

/-- The data in scope in a body, given the data around the block that it belongs to. -/
def roundData (data : Context) : Option Round → Context
  | none => data
  | some round => Engine.bind data round.header round.number round.item

variable (functions : Functions)

def Decides (data : Context) (condition : Expr) (b : Bool) : Prop :=
  ∃ v, condition.eval functions data = .ok v ∧ v.truthy = b

/-- The bodies that the rendering of a node goes through, each with the round if the node is a
loop. -/
inductive Node.Enters (data : Context) : Node → Option Round → Body → Prop where
  | branch {earlier later : List (Expr × Body)} :
      (∀ b ∈ earlier, Decides functions data b.1 false) → Decides functions data condition true →
      Enters data (.ifBlock (earlier ++ (condition, body) :: later) otherwise) none body
  | ifElse {branches : List (Expr × Body)} : (∀ b ∈ branches, Decides functions data b.1 false) →
      Enters data (.ifBlock branches (some body)) none body
  | unlessBody : Decides functions data condition false →
      Enters data (.unlessBlock condition body otherwise) none body
  | unlessElse : Decides functions data condition true →
      Enters data (.unlessBlock condition first (some body)) none body
  | loop : header.collection.eval functions data = .ok v → v.items? = some items →
      items[n]? = some item → Enters data (.forBlock header body) (some ⟨header, n, item⟩) body

/-- The bodies that the rendering of a body comes to, with the rounds that it is in, the innermost
first, and the data in scope. -/
inductive Descends (data : Context) (body : Body) :
    List (Option Round) → Context → Body → Prop where
  | here : Descends data body [] data body
  | enter {round : Option Round} {inner : Body} : Descends data body rounds within outer →
      node ∈ outer → node.Enters functions within round inner →
      Descends data body (round :: rounds) (roundData within round) inner

variable {functions} {data within : Context} {body inner : Body} {node : Node}
  {round : Option Round}

theorem bodySteps_append (data : Context) (nodes rest : List Node) :
    bodySteps functions data (nodes ++ rest) =
      bodySteps functions data nodes ++ bodySteps functions data rest := by
  induction nodes with
  | nil => rfl
  | cons node nodes ih => simp [bodySteps, ih]

theorem steps_infix_of_mem (h : node ∈ body) :
    node.steps functions data <:+: bodySteps functions data body := by
  obtain ⟨before, later, rfl⟩ := List.append_of_mem h
  rw [bodySteps_append, bodySteps]
  exact ⟨_, _, List.append_assoc ..⟩

theorem valueSteps_of_eval (h : e.eval functions data = .ok v) (steps : Value → List Step) :
    valueSteps functions data e steps = steps v := by
  simp [valueSteps, h]

theorem branchSteps_of_decided {branches rest : List (Expr × Body)}
    (h : ∀ b ∈ branches, Decides functions data b.1 false) (otherwise : List Step) :
    branchSteps functions data otherwise (branches ++ rest) =
      branchSteps functions data otherwise rest := by
  induction branches with
  | nil => rfl
  | cons branch branches ih =>
    obtain ⟨⟨v, hv, hf⟩, hrest⟩ := List.forall_mem_cons.mp h
    rw [List.cons_append, branchSteps, valueSteps_of_eval hv, hf]
    exact ih hrest

theorem round_infix (round : Nat → Value → List Step) {items : List Value}
    (h : items[n]? = some item) (first : Nat) :
    round (first + n) item <:+: roundSteps round first items := by
  induction items generalizing n first with
  | nil => cases h
  | cons head items ih =>
    rw [roundSteps]
    cases n with
    | zero =>
      cases h
      exact (List.prefix_append _ _).isInfix
    | succ n =>
      have hrest := ih (by simpa using h) (first + 1)
      rw [Nat.add_right_comm] at hrest
      exact hrest.trans (List.suffix_append _ _).isInfix

theorem Node.Enters.steps_infix (h : node.Enters functions data round inner) :
    bodySteps functions (roundData data round) inner <:+: node.steps functions data := by
  cases h with
  | branch hf ht =>
    obtain ⟨v, hv, ht⟩ := ht
    rw [Node.steps, branchSteps_of_decided hf, branchSteps, valueSteps_of_eval hv, ht]
    exact List.infix_rfl
  | @ifElse body branches hf =>
    rw [Node.steps, ← List.append_nil branches, branchSteps_of_decided hf]
    exact List.infix_rfl
  | unlessBody h =>
    obtain ⟨v, hv, hf⟩ := h
    rw [Node.steps, valueSteps_of_eval hv, hf]
    exact List.infix_rfl
  | unlessElse h =>
    obtain ⟨v, hv, ht⟩ := h
    rw [Node.steps, valueSteps_of_eval hv, ht]
    exact List.infix_rfl
  | @loop _ _ _ header _ _ hv hitems hn =>
    rw [Node.steps, valueSteps_of_eval hv, hitems]
    have := round_infix (fun n item => bodySteps functions (Engine.bind data header n item) inner)
      hn 0
    rwa [Nat.zero_add] at this

/-- What is rendered in the innermost body is part of what is rendered. -/
theorem Descends.steps_infix (h : Descends functions data body rounds within inner) :
    bodySteps functions within inner <:+: bodySteps functions data body := by
  induction h with
  | here => exact List.infix_rfl
  | enter _ hnode henter ih => exact henter.steps_infix.trans ((steps_infix_of_mem hnode).trans ih)

/-- A body stands in a phrase, with blocks open around it. -/
def StandsIn (blocks outer : Blocks) (inner : Body) (ts : List MarkupToken) : Prop :=
  ∃ front us back, ts = front ++ us ++ back ∧ Yields (.body inner) us ∧
    outer.after front = blocks

namespace StandsIn

variable {blocks between outer : Blocks}

theorem append_right (h : StandsIn blocks outer inner ts) (us : List MarkupToken) :
    StandsIn blocks outer inner (ts ++ us) := by
  obtain ⟨front, vs, back, rfl, hy, hb⟩ := h
  exact ⟨front, vs, back ++ us, by simp, hy, hb⟩

theorem append_left (h : StandsIn blocks (outer.after ts) inner us) :
    StandsIn blocks outer inner (ts ++ us) := by
  obtain ⟨front, vs, back, rfl, hy, hb⟩ := h
  exact ⟨ts ++ front, vs, back, by simp, hy, by rw [Blocks.after_append, hb]⟩

theorem cons (h : StandsIn blocks (outer.visit t) inner us) :
    StandsIn blocks outer inner (t :: us) :=
  have hfront : StandsIn blocks (outer.after [t]) inner us := h
  append_left hfront

theorem of_yields (h : Yields (.body inner) ts) : StandsIn blocks blocks inner ts :=
  ⟨[], ts, [], by simp, h, rfl⟩

theorem trans (h : StandsIn between outer body ts)
    (h' : ∀ us, Yields (.body body) us → StandsIn blocks between inner us) :
    StandsIn blocks outer inner ts := by
  obtain ⟨front, us, back, rfl, hy, rfl⟩ := h
  exact (append_left (h' us hy)).append_right back

/-- What stands in one node of a body stands in the body. -/
theorem of_mem (h : Yields (.body body) ts) (hm : node ∈ body)
    (h' : ∀ us, Yields (.node node) us → StandsIn blocks outer inner us) :
    StandsIn blocks outer inner ts := by
  induction body generalizing ts with
  | nil => cases hm
  | cons first body ih =>
    cases h with
    | cons hfirst hbody =>
      rcases List.mem_cons.mp hm with rfl | hm
      · exact (h' _ hfirst).append_right _
      · apply append_left
        rw [hfirst.blocks_after]
        exact ih hbody hm

theorem of_branch {branches : List (Expr × Body)} (h : Yields (.branches branches) ts)
    (hm : (condition, inner) ∈ branches) : StandsIn (none :: outer) outer inner ts := by
  generalize hp : Phrase.branches branches = phrase at h
  induction h generalizing branches with
  | @ifTag nodes ts e t ht hbody =>
    cases hp
    obtain ⟨rfl, rfl⟩ : condition = e ∧ inner = nodes := by simpa using hm
    apply cons
    rw [Blocks.visit, ht.1]
    exact of_yields hbody
  | @elsifTag bs ts nodes us e t hbranches ht hbody ih =>
    cases hp
    rcases List.mem_append.mp hm with hm | hm
    · exact (ih hm rfl).append_right _
    · obtain ⟨rfl, rfl⟩ : condition = e ∧ inner = nodes := by simpa using hm
      apply append_left
      rw [hbranches.blocks_after]
      apply cons
      rw [Blocks.visit, ht.1]
      exact of_yields hbody
  | _ => cases hp

theorem of_else (h : Yields (.orElse (some inner)) ts) : StandsIn outer outer inner ts := by
  cases h with
  | elseTag ht hbody =>
    apply cons
    rw [Blocks.visit, ht]
    exact of_yields hbody

end StandsIn

/-- A body that is rendered stands in the tags of its node, with its block open. -/
theorem Node.Enters.standsIn (h : node.Enters functions data round inner)
    (hy : Yields (.node node) ts) (outer : Blocks) :
    StandsIn (round.map Round.header :: outer) outer inner ts := by
  cases h with
  | @branch condition _ _ earlier later =>
    cases hy with
    | ifBlock hbranches =>
      have hm : (condition, inner) ∈ earlier ++ (condition, inner) :: later := by simp
      exact ((StandsIn.of_branch hbranches hm).append_right _).append_right _
  | ifElse =>
    cases hy with
    | ifBlock hbranches helse =>
      apply StandsIn.append_right
      apply StandsIn.append_left
      rw [hbranches.blocks_after]
      exact .of_else helse
  | unlessBody =>
    cases hy with
    | unlessBlock ht hbody =>
      apply StandsIn.append_right
      apply StandsIn.append_right
      apply StandsIn.cons
      rw [Blocks.visit, ht.1]
      exact .of_yields hbody
  | unlessElse =>
    cases hy with
    | unlessBlock ht hbody helse =>
      apply StandsIn.append_right
      apply StandsIn.append_left
      rw [Blocks.after_cons, hbody.blocks_after, Blocks.visit, ht.1]
      exact .of_else helse
  | loop =>
    cases hy with
    | forBlock ht hbody =>
      apply StandsIn.append_right
      apply StandsIn.cons
      rw [Blocks.visit_loop ht]
      exact .of_yields hbody

/-- The innermost body stands in the source, with the tags of the rounds open around it. -/
theorem Descends.standsIn (h : Descends functions data body rounds within inner)
    (hy : Yields (.body body) ts) :
    StandsIn (rounds.map (Option.map Round.header)) [] inner ts := by
  induction h with
  | here => exact .of_yields hy
  | enter _ hnode henter ih =>
    exact ih.trans fun us hbody => .of_mem hbody hnode fun vs hvs => henter.standsIn hvs _

/-- The index of a loop hides an item of the same name. -/
theorem get?_bind (data : Context) (header : LoopHeader) (n : Nat) (item : Value) (name : String) :
    (Engine.bind data header n item).get? name =
      if header.index = some name then some (.int (Int64.ofNat n))
      else if header.item = name then some item
      else data.get? name := by
  unfold Engine.bind
  cases header.index with
  | none => simp [Dict.get?_insert, eq_comm]
  | some index => simp [Dict.get?_insert, eq_comm]

theorem get?_bind_of_not_binds {header : LoopHeader} (h : ¬header.Binds name) (data : Context)
    (n : Nat) (item : Value) : (Engine.bind data header n item).get? name = data.get? name := by
  unfold LoopHeader.Binds at h
  rw [get?_bind]
  simp only [not_or] at h
  simp [h.1, h.2]

/-- The first of some rounds whose loop has a variable of a name, with the rounds around it. -/
def IsNearest (rounds : List (Option Round)) (name : String) (round : Round)
    (far : List (Option Round)) : Prop :=
  round.header.Binds name ∧
    ∃ near, rounds = near ++ some round :: far ∧ ∀ r, some r ∈ near → ¬r.header.Binds name

theorem exists_nearest {rounds : List (Option Round)}
    (h : ∃ round, some round ∈ rounds ∧ round.header.Binds name) :
    ∃ round far, IsNearest rounds name round far := by
  induction rounds with
  | nil =>
    obtain ⟨round, hm, -⟩ := h
    cases hm
  | cons first rounds ih =>
    by_cases hfirst : ∃ r, first = some r ∧ r.header.Binds name
    · obtain ⟨r, rfl, hr⟩ := hfirst
      exact ⟨r, rounds, hr, [], rfl, by simp⟩
    · obtain ⟨round, hm, hb⟩ := h
      have hrest : some round ∈ rounds := by
        rcases List.mem_cons.mp hm with heq | hm
        · exact absurd ⟨round, heq.symm, hb⟩ hfirst
        · exact hm
      obtain ⟨nearest, far, hnearest, near, rfl, hnear⟩ := ih ⟨round, hrest, hb⟩
      refine ⟨nearest, far, hnearest, first :: near, rfl, ?_⟩
      intro r hr hbinds
      rcases List.mem_cons.mp hr with heq | hr
      · exact hfirst ⟨r, heq.symm, hbinds⟩
      · exact hnear r hr hbinds

/-- A rendering comes to a round of a loop, within other rounds. -/
def ComesTo (functions : Functions) (data : Context) (body : Body) (far : List (Option Round))
    (round : Round) (around : Context) : Prop :=
  ∃ outer node inner, Descends functions data body far around outer ∧ node ∈ outer ∧
    node.Enters functions around (some round) inner

/-- A name has the value that the nearest loop with a variable of that name gives it. -/
theorem Descends.get?_of_nearest {far : List (Option Round)} {round : Round}
    (h : Descends functions data body rounds within inner) (hn : IsNearest rounds name round far) :
    ∃ around, ComesTo functions data body far round around ∧
      within.get? name = (Engine.bind around round.header round.number round.item).get? name := by
  obtain ⟨-, near, rfl, hnear⟩ := hn
  induction near generalizing within inner with
  | nil =>
    cases h with
    | enter hd hm he => exact ⟨_, ⟨_, _, _, hd, hm, he⟩, rfl⟩
  | cons first near ih =>
    cases h with
    | enter hd hm he =>
      obtain ⟨around, hcomes, hget⟩ := ih (fun r hr => hnear r (List.mem_cons_of_mem first hr)) hd
      refine ⟨around, hcomes, ?_⟩
      cases first with
      | none => exact hget
      | some r => rw [roundData, get?_bind_of_not_binds (hnear r List.mem_cons_self), hget]

end FormLetter
