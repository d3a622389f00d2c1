import FormLetter.Expr.Eval
import FormLetter.Render.Error
import FormLetter.Render.State
import FormLetter.Template.Builder

namespace FormLetter

/-- Rendering changes the state also where it fails. -/
abbrev Render := ExceptT RenderError (StateM RenderState)

/-- The source of a fragment: a text, or a document whose text it is. -/
inductive Fragment where
  | text (source : String)
  | document (archive : List UInt8)

def Fragment.template : Fragment → Except RenderError Template
  | text source => (Template.parse source).mapError .parse
  | document archive => do
    let body ← (Document.bodyText archive).mapError .document
    (Template.parse (String.ofList body)).mapError .parse

/-- The fragments that templates can include, by name. -/
abbrev Fragments := String → Option Fragment

namespace Fragments

def none : Fragments := fun _ => Option.none

def ofDict (entries : Dict Fragment) : Fragments := fun name => entries.get? name

instance : Coe (Dict Fragment) Fragments := ⟨ofDict⟩

end Fragments

def defaultMaxDepth : Nat := 10

structure Engine where
  fragments : Fragments
  functions : Functions
  /-- How many fragments may be open at a time. -/
  maxDepth : Nat

namespace Engine

/-- Has no fragments and no functions. -/
def plain : Engine := ⟨Fragments.none, Functions.none, defaultMaxDepth⟩

def value (engine : Engine) (data : Context) (e : Expr) : Render Value :=
  match e.eval engine.functions data with
  | .ok v => pure v
  | .error error => throw (.evaluation error)

def fail (error : EvalError) : Render α :=
  throw (.evaluation error)

def pageBreak : Render Output := do
  let s ← get
  set (s.setMarker .pageBreak)
  return [.pageBreak s.next]

/-- The context of a round of a loop. An index hides an item of the same name. -/
def bind (data : Context) (header : LoopHeader) (n : Nat) (item : Value) : Context :=
  let data := data.insert header.item item
  match header.index with
  | none => data
  | some name => data.insert name (.int (Int64.ofNat n))

/-- The output of each item with its number, in order. -/
def rounds (round : Nat → Value → Render Output) (n : Nat) : List Value → Render Output
  | [] => return []
  | item :: items => do
    let output ← round n item
    return output ++ (← rounds round (n + 1) items)

mutual
/-- The output of a node. How a fragment is included is a parameter. -/
def node (engine : Engine) (includes : Context → Expr → Render Output) (data : Context) :
    Node → Render Output
  | .text content => return [.text content]
  | .value e => do return [.text (← engine.value data e).text]
  | .ifBlock branches otherwise =>
    engine.branches includes data (engine.otherwise includes data otherwise) branches
  | .unlessBlock condition body otherwise => do
    if (← engine.value data condition).truthy then engine.otherwise includes data otherwise
    else engine.body includes data body
  | .forBlock header body => do
    let collection ← engine.value data header.collection
    match collection.items? with
    | some items =>
      rounds (fun n item => engine.body includes (bind data header n item) body) 0 items
    | none => fail (.notIterable collection.typeName)
  | .includeTag name => includes data name
  | .pageBreak => pageBreak
termination_by structural node => node

def body (engine : Engine) (includes : Context → Expr → Render Output) (data : Context) :
    List Node → Render Output
  | [] => return []
  | node :: nodes => do
    let output ← engine.node includes data node
    return output ++ (← engine.body includes data nodes)
termination_by structural nodes => nodes

/-- The output of the first branch whose condition holds, or else another one. -/
def branches (engine : Engine) (includes : Context → Expr → Render Output) (data : Context)
    (otherwise : Render Output) : List (Expr × List Node) → Render Output
  | [] => otherwise
  | (condition, body) :: branches => do
    if (← engine.value data condition).truthy then engine.body includes data body
    else engine.branches includes data otherwise branches
termination_by structural branches => branches

def otherwise (engine : Engine) (includes : Context → Expr → Render Output) (data : Context) :
    Option (List Node) → Render Output
  | none => return []
  | some body => engine.body includes data body
termination_by structural otherwise => otherwise
end

/-- The name of the fragment that is to be included. It must not be open. -/
def fragmentName (engine : Engine) (data : Context) (e : Expr) : Render String := do
  match ← engine.value data e with
  | .string name =>
    let s ← get
    if s.stack.contains name then throw (.circular name s.stack)
    return name
  | other => fail (.includeNameNotString other.typeName)

/-- Opens a fragment, renders, and closes the fragment in any case. -/
def inFragment (name : String) (render : Render α) : Render α :=
  ExceptT.mk fun s =>
    let (result, after) := render.run { s with stack := s.stack ++ [name] }
    (result, { after with stack := after.stack.dropLast })

def template (engine : Engine) (name : String) : Render Template :=
  match engine.fragments name with
  | none => throw (.missingFragment name)
  | some fragment => liftExcept fragment.template
where
  liftExcept : Except RenderError Template → Render Template
    | .ok template => pure template
    | .error error => throw error

/-- Includes a fragment where so many more may be open. -/
def included (engine : Engine) : Nat → Context → Expr → Render Output
  | 0, data, e => do
    let _ ← engine.fragmentName data e
    throw (.tooDeep (← get).depth engine.maxDepth)
  | left + 1, data, e => do
    let name ← engine.fragmentName data e
    inFragment name do
      let template ← engine.template name
      engine.body (engine.included left) data template.body

/-- The output of a body, with what it does to the state. -/
def renderBody (engine : Engine) (data : Context) (body : Body) : Render Output := do
  engine.body (engine.included (engine.maxDepth - (← get).depth)) data body

/-- The output of a template, with what it does to the state. -/
def renderIn (engine : Engine) (state : RenderState) (data : Context) (template : Template) :
    Except RenderError String × RenderState :=
  let (result, after) := (engine.renderBody data template.body).run state
  (result.map Output.toString, after)

def render (engine : Engine) (data : Context) (template : Template) :
    Except RenderError String :=
  (engine.renderIn .fresh data template).1

def renderSource (engine : Engine) (data : Context) (source : String) :
    Except RenderError String := do
  engine.render data (← (Template.parse source).mapError .parse)

end Engine

/-- The output of a template without fragments and functions. -/
def Template.render (template : Template) (data : Context) : Except RenderError String :=
  Engine.plain.render data template

end FormLetter
