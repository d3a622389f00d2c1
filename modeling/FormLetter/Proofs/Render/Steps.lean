import FormLetter.Render

namespace FormLetter

/-- What a rendering does next. Which steps there are follows from the template and the data alone,
whatever has been rendered before. -/
inductive Step where
  | text (s : String)
  | pageBreak
  /-- Includes the fragment of a name, where some data is in scope. -/
  | fragment (name : String) (data : Context)
  | fail (error : EvalError)

variable (functions : Functions)

/-- The steps that come from the value of an expression. -/
def valueSteps (data : Context) (e : Expr) (steps : Value → List Step) : List Step :=
  match e.eval functions data with
  | .ok v => steps v
  | .error error => [.fail error]

def fragmentSteps (data : Context) : Value → List Step
  | .string name => [.fragment name data]
  | v => [.fail (.includeNameNotString v.typeName)]

def roundSteps (round : Nat → Value → List Step) (n : Nat) : List Value → List Step
  | [] => []
  | item :: items => round n item ++ roundSteps round (n + 1) items

mutual
def Node.steps (data : Context) : Node → List Step
  | .text content => [.text content]
  | .value e => valueSteps functions data e fun v => [.text v.text]
  | .ifBlock branches otherwise =>
    branchSteps data (otherwiseSteps data otherwise) branches
  | .unlessBlock condition body otherwise =>
    valueSteps functions data condition fun v =>
      if v.truthy then otherwiseSteps data otherwise else bodySteps data body
  | .forBlock header body =>
    valueSteps functions data header.collection fun collection =>
      match collection.items? with
      | some items =>
        roundSteps (fun n item => bodySteps (Engine.bind data header n item) body) 0 items
      | none => [.fail (.notIterable collection.typeName)]
  | .includeTag name => valueSteps functions data name (fragmentSteps data)
  | .pageBreak => [.pageBreak]
termination_by structural node => node

def bodySteps (data : Context) : List Node → List Step
  | [] => []
  | node :: nodes => node.steps data ++ bodySteps data nodes
termination_by structural nodes => nodes

def branchSteps (data : Context) (otherwise : List Step) : List (Expr × List Node) → List Step
  | [] => otherwise
  | (condition, body) :: branches =>
    valueSteps functions data condition fun v =>
      if v.truthy then bodySteps data body else branchSteps data otherwise branches
termination_by structural branches => branches

def otherwiseSteps (data : Context) : Option (List Node) → List Step
  | none => []
  | some body => bodySteps data body
termination_by structural otherwise => otherwise
end

namespace Engine

/-- The output of a step. How a fragment is included is a parameter. -/
def perform (includes : String → Context → Render Output) : Step → Render Output
  | .text s => return [.text s]
  | .pageBreak => pageBreak
  | .fragment name data => includes name data
  | .fail error => fail error

/-- The output of steps, up to one that fails. -/
def performAll (includes : String → Context → Render Output) : List Step → Render Output
  | [] => return []
  | step :: steps => do
    let output ← perform includes step
    return output ++ (← performAll includes steps)

variable (includes : String → Context → Render Output)

theorem performAll_singleton (step : Step) :
    performAll includes [step] = perform includes step := by
  simp [performAll]

theorem performAll_append (first rest : List Step) :
    performAll includes (first ++ rest) = do
      let output ← performAll includes first
      return output ++ (← performAll includes rest) := by
  induction first with
  | nil => simp [performAll]
  | cons step first ih =>
    simp only [List.cons_append, performAll, ih, bind_assoc, pure_bind, List.append_assoc]

theorem performAll_valueSteps (engine : Engine) (data : Context) (e : Expr)
    (steps : Value → List Step) :
    performAll includes (valueSteps engine.functions data e steps) =
      engine.value data e >>= fun v => performAll includes (steps v) := by
  unfold valueSteps value
  cases e.eval engine.functions data with
  | ok v => simp
  | error error => exact performAll_singleton includes (.fail error)

theorem performAll_roundSteps (round : Nat → Value → List Step) (n : Nat) (items : List Value) :
    performAll includes (roundSteps round n items) =
      rounds (fun n item => performAll includes (round n item)) n items := by
  induction items generalizing n with
  | nil => rfl
  | cons item items ih => rw [roundSteps, rounds, performAll_append, ih]

variable (engine : Engine)

/-- Includes the fragment of a name, where so many more may be open. -/
def enter (left : Nat) (name : String) (data : Context) : Render Output :=
  ExceptT.mk fun s =>
    if s.stack.contains name then (.error (.circular name s.stack), s)
    else
      match left with
      | 0 => (.error (.tooDeep s.depth engine.maxDepth), s)
      | left + 1 =>
        (inFragment name do
          let template ← engine.template name
          engine.body (engine.included left) data template.body).run s

theorem fragmentName_bind (data : Context) (e : Expr) (render : String → Render Output) :
    (engine.fragmentName data e >>= render) = engine.value data e >>= fun
      | .string name => ExceptT.mk fun s =>
        if s.stack.contains name then (.error (.circular name s.stack), s) else (render name).run s
      | v => fail (.includeNameNotString v.typeName) := by
  rw [fragmentName, bind_assoc]
  congr 1
  funext v
  cases v with
  | string name =>
    refine (funext fun s => ?_ : (_ : RenderState → _) = _)
    change ((if s.stack.contains name then throw (.circular name s.stack) else pure name) >>=
      render : Render Output) s = if s.stack.contains name then _ else _
    cases s.stack.contains name <;> rfl
  | _ => rfl

theorem included_eq_performAll (left : Nat) (data : Context) (e : Expr) :
    engine.included left data e =
      performAll (engine.enter left) (valueSteps engine.functions data e (fragmentSteps data)) := by
  rw [performAll_valueSteps]
  cases left with
  | zero =>
    rw [included, fragmentName_bind]
    congr 1
    funext v
    cases v with
    | string name =>
      rw [fragmentSteps, performAll_singleton]
      rfl
    | _ => exact (performAll_singleton _ (.fail _)).symm
  | succ left =>
    rw [included, fragmentName_bind]
    congr 1
    funext v
    cases v with
    | string name =>
      rw [fragmentSteps, performAll_singleton]
      rfl
    | _ => exact (performAll_singleton _ (.fail _)).symm

variable (left : Nat)

mutual
theorem node_eq_performAll (data : Context) : (node : Node) →
    engine.node (engine.included left) data node =
      performAll (engine.enter left) (node.steps engine.functions data)
  | .text _ | .pageBreak => by rw [node, Node.steps, performAll_singleton, perform]
  | .value e => by
    rw [node, Node.steps, performAll_valueSteps]
    simp only [performAll_singleton]
    rfl
  | .ifBlock branches otherwise => by
    rw [node, Node.steps, otherwise_eq_performAll data otherwise,
      branches_eq_performAll data _ branches]
  | .unlessBlock condition body otherwise => by
    rw [node, Node.steps, performAll_valueSteps]
    congr 1
    funext v
    split
    · exact otherwise_eq_performAll data otherwise
    · exact body_eq_performAll data body
  | .forBlock header body => by
    rw [node, Node.steps, performAll_valueSteps]
    congr 1
    funext collection
    cases collection.items? with
    | none => exact (performAll_singleton _ (.fail _)).symm
    | some items => simp only [performAll_roundSteps, body_eq_performAll _ body]
  | .includeTag name => by rw [node, Node.steps, included_eq_performAll]
termination_by structural node => node

theorem body_eq_performAll (data : Context) : (body : List Node) →
    engine.body (engine.included left) data body =
      performAll (engine.enter left) (bodySteps engine.functions data body)
  | [] => rfl
  | node :: nodes => by
    rw [body, bodySteps, performAll_append, node_eq_performAll data node,
      body_eq_performAll data nodes]
termination_by structural body => body

theorem branches_eq_performAll (data : Context) (otherwise : List Step) :
    (branches : List (Expr × List Node)) →
    engine.branches (engine.included left) data
      (performAll (engine.enter left) otherwise) branches =
      performAll (engine.enter left) (branchSteps engine.functions data otherwise branches)
  | [] => rfl
  | (condition, body) :: branches => by
    rw [Engine.branches, branchSteps, performAll_valueSteps]
    congr 1
    funext v
    split
    · exact body_eq_performAll data body
    · exact branches_eq_performAll data otherwise branches
termination_by structural branches => branches

theorem otherwise_eq_performAll (data : Context) : (otherwise : Option (List Node)) →
    engine.otherwise (engine.included left) data otherwise =
      performAll (engine.enter left) (otherwiseSteps engine.functions data otherwise)
  | none => rfl
  | some body => body_eq_performAll data body
termination_by structural otherwise => otherwise
end

end Engine

end FormLetter
