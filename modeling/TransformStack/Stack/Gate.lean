import TransformStack.Stack.View

/-!
# Who edits the transform of an entity

A chain of handlers is asked in turn who takes an entity. The handler of transform stacks takes an
entity whose ops stand in canonical order with every pivot cancelled, and leaves all others to the
handlers after it. For an edit, the chain first refuses entities that cannot be edited at all.
-/

namespace TransformStack

/-- What takes an entity. -/
inductive Handle where
  | stack (view : StackView)
  | other (handler : String) (entity : EntityId)
  deriving DecidableEq

/-- Why an entity is not to be edited. -/
inductive Rejection where
  /-- It stands for a part of a shared instance. -/
  | proxy (path : String)
  | barred (bar : EditBar)
  | byHandler
  deriving DecidableEq

/-- The answer to who takes an entity. -/
inductive Resolution where
  | found (handle : Handle)
  /-- It is left to the next handler. -/
  | delegate
  | rejected (why : Rejection)
  deriving DecidableEq

/-- What the user is told of a rejection. -/
def Rejection.log : Rejection → List LogEntry
  | proxy path => [.proxy path]
  | barred bar => [.barred bar]
  | byHandler => []

/-- What the user is told along with an answer. -/
def Resolution.log : Resolution → List LogEntry
  | rejected why => why.log
  | found _ | delegate => []

/-- Which part of the transform an edit is about to touch. -/
inductive EditHint where
  | default
  | rotatePivot
  | scalePivot
  deriving DecidableEq

/-! ## The gate of transform stacks -/

namespace Gate

/-- Whether positions rise strictly, and each pivot stands together with its inverse. -/
def isCanonical (positions : List Position) : Bool :=
  decide (positions.Pairwise (·.rank < ·.rank)) &&
    positions.all fun position => position.companion.all (· ∈ positions)

/-- The positions of the ops of an entity in order, or nothing if one of them is foreign. -/
def positions? (s : Store) (id : EntityId) : Except EditError (Option (List Position)) :=
  match s.order id with
  | .ok order => .ok (order.ops.mapM Position.ofOp?)
  | .error (.data (.unknownOp _)) => .ok none
  | .error e => .error (.store e)

/-- Take an entity whose stack is canonical, and leave any other to what comes next. -/
def resolve (s : Store) (id : EntityId) (time : TimeCode)
    (next : Unit → Except EditError Resolution) : Except EditError Resolution := do
  match ← positions? s id with
  | some positions =>
    if isCanonical positions then return .found (.stack ⟨id, time⟩) else next ()
  | none => next ()

end Gate

/-! ## Handlers -/

/-- A handler, with its answers for reading and for editing. -/
structure Handler where
  name : String
  resolve : Store → EntityId → Except EditError Resolution
  resolveEdit : EditHint → Store → EntityId → Except EditError Resolution := fun _ => resolve

namespace Handler

/-- The handler of transform stacks at a time. -/
def stack (time : TimeCode) : Handler where
  name := "xformStack"
  resolve s id := Gate.resolve s id time fun _ => .ok .delegate

/-- The handler that takes any entity, except for edits of pivots, which it cannot express. -/
def catchAll : Handler where
  name := "catchAll"
  resolve _ id := .ok (.found (.other "catchAll" id))
  resolveEdit
    | .default, _, id => .ok (.found (.other "catchAll" id))
    | .rotatePivot, _, _ | .scalePivot, _, _ => .ok .delegate

/-- A handler that gives one answer for all entities. -/
def fixed (name : String) (answer : EntityId → Except EditError Resolution) : Handler where
  name
  resolve _ id := answer id

end Handler

/-! ## Chains -/

/-- Handlers in the order in which they are asked. -/
abbrev HandlerChain := List Handler

namespace HandlerChain

/-- The first answer that does not leave the entity to the next handler. -/
def ask (question : Handler → Except EditError Resolution) :
    HandlerChain → Except EditError Resolution
  | [] => .ok .delegate
  | handler :: others => do
    match ← question handler with
    | .delegate => ask question others
    | answer => return answer

/-- Who takes an entity. -/
def resolve (chain : HandlerChain) (s : Store) (id : EntityId) : Except EditError Resolution :=
  chain.ask fun handler => handler.resolve s id

/-- Who takes an entity for an edit. -/
def resolveForEdit (chain : HandlerChain) (s : Store) (id : EntityId) (hint : EditHint) :
    Except EditError Resolution := do
  let e ← EditError.ofStore (s.entity id)
  if e.isProxy then return .rejected (.proxy e.path)
  match s.targetBar? with
  | some bar => return .rejected (.barred bar)
  | none => chain.ask fun handler => handler.resolveEdit hint s id

end HandlerChain

end TransformStack
