import GraphQL.Execution.Completion

/-!
# Executing operations

An executor serves one request. The root fields of a query run side by side, those of a mutation one
after another. Root fields that a stop or the end of the time keeps from finishing are reported: all
of them at once, with no data, or each at its place, if partial results are wanted.
-/

namespace GraphQL

variable {σ : Type}

/-- The result of an execution. -/
structure ExecutionResult where
  data : Response
  errors : List FieldError

/-- What became of a root field. -/
inductive RootOutcome where
  | finished (position : Position)
  | unfinished
  /-- It would wait forever. -/
  | waiting
  | escaped (origin : FaultOrigin) (fault : Fault)
  | tooDeep

/-- How many more objects may be nested than selections are, where fragments lead back into
themselves. -/
def extraDepth : Nat := 10000

/-- How deeply objects are nested in a response at most. -/
def Request.depthBound (request : Request) : Nat :=
  Selection.depths request.operation.selections +
    request.fragments.foldl (fun total entry => total + Selection.depths entry.2.selections)
      extraDepth

/-- The request for an operation, whose variables have the given values and their defaults. -/
def Request.ofOperation (operation : Operation) (given : Entries Value)
    (fragments : Entries Fragment) (root context : Value) (settings : Settings) : Request where
  operation := operation
  fragments := fragments
  variableValues := operation.variableValues given
  root := root
  context := context
  settings := settings

namespace Executor

/-- Why root fields were not finished. -/
def interruption (settings : Settings) (executor : Executor σ) : FailureCause :=
  match executor.reason with
  | some "timeout" => .timedOut settings.timeout
  | some "" | none => .stopped "stopped"
  | some reason => .stopped reason

/-- Begins an execution. -/
def begin (executor : Executor σ) : Executor σ :=
  note .began
    { executor with
      started := 0
      phase := if executor.isStopping then executor.phase else .running }

/-- Settles the phase at the end of an execution. -/
def finish (executor : Executor σ) : Executor σ :=
  note .ended
    { executor with phase := if executor.isStopping then .stopped else .completed }

/-- Notes that root fields have begun. -/
def start (count : Nat) (executor : Executor σ) : Executor σ :=
  { executor with started := executor.started + count }

/-- Stops an executor whose time is over while root fields are still running. -/
def timeOut (running : Nat) (executor : Executor σ) : Executor σ :=
  (executor.reportText .debug
    ("STOP_TRACE: Timed out with " ++ toString running ++
      " root fields still running")).forceStop "timeout"

end Executor

namespace Environment

variable (env : Environment σ) (root : ObjectType)

/-- The path of a root field. -/
def rootPath (group : FieldGroup) : Path :=
  [.key group.key]

/-- Whether the type of a root field excludes null; that of an unknown field does not. -/
def rootRequired (group : FieldGroup) : Bool :=
  match env.registry.field? (.object root) group.first.name with
  | some field => field.type.isNonNull
  | none => false

/-- What became of a root field that ran. One that stopped the execution itself counts only if it
fails in a way that leaves no data. -/
def rootOutcome (stopping : Bool) : Except Halt Position → RootOutcome
  | .ok position =>
    if stopping && position.response?.isSome then .unfinished else .finished position
  | .error .cancelled => .unfinished
  | .error .hung => .waiting
  | .error (.escaped origin fault) => .escaped origin fault
  | .error .tooDeep => .tooDeep

/-- Runs a root field, unless a stop keeps it from beginning. -/
def runRootField (group : FieldGroup) : StateM (Executor σ) RootOutcome := do
  if (← get).isStopping then pure .unfinished
  else
    let outcome ← (env.executeGroup (env.executeObject env.request.depthBound) root
      env.request.root (rootPath group) group).run
    pure (rootOutcome (← get).isStopping outcome)

/-- Runs root fields of which none waits for another. -/
def runTogether : List FieldGroup → StateM (Executor σ) (List RootOutcome)
  | [] => pure []
  | group :: rest => do
    let outcome ← env.runRootField root group
    let outcomes ← runTogether rest
    pure (outcome :: outcomes)

/-- Whether a root field would wait forever. -/
def isWaiting : RootOutcome → Bool
  | .waiting => true
  | _ => false

/-- A root field that would wait forever is abandoned at the end of the time, if there is one. -/
def expire (outcome : RootOutcome) : RootOutcome :=
  if isWaiting outcome && env.request.settings.timeout.isSome then .unfinished else outcome

/-- Runs the root fields of a query. -/
def runQuery (groups : List FieldGroup) : StateM (Executor σ) (List RootOutcome) := do
  if (← get).isStopping then pure (groups.map fun _ => .unfinished)
  else
    modify (Executor.start groups.length)
    let outcomes ← env.runTogether root groups
    let waiting := outcomes.countP isWaiting
    if waiting == 0 then pure outcomes
    else if (← get).isStopping then
      pure (outcomes.map fun outcome => if isWaiting outcome then .unfinished else outcome)
    else
      if env.request.settings.timeout.isSome then modify (Executor.timeOut waiting)
      pure (outcomes.map env.expire)

/-- Runs the root fields of a mutation, one after another. -/
def runMutation : List FieldGroup → StateM (Executor σ) (List RootOutcome)
  | [] => pure []
  | group :: rest => do
    if (← get).isStopping then pure ((group :: rest).map fun _ => .unfinished)
    else
      modify (Executor.start 1)
      let outcome ← env.runRootField root group
      if isWaiting outcome then
        if env.request.settings.timeout.isSome then modify (Executor.timeOut 1)
        pure (env.expire outcome :: rest.map fun _ => .unfinished)
      else
        let outcomes ← runMutation rest
        pure (outcome :: outcomes)

/-- Runs the root fields of the operation. -/
def runRootFields (groups : List FieldGroup) : StateM (Executor σ) (List RootOutcome) :=
  match env.request.operation.kind with
  | .mutation => env.runMutation root groups
  | .query | .subscription => env.runQuery root groups

/-- Whether a root field was not finished. -/
def isUnfinished : RootOutcome → Bool
  | .unfinished => true
  | _ => false

/-- The position of a root field from what became of it. -/
def rootPosition (group : FieldGroup) (outcome : RootOutcome) :
    Exec σ (String × Position) :=
  match outcome with
  | .finished position => pure (group.key, position)
  | .unfinished => do
    let error : FieldError :=
      { cause := (← get).interruption env.request.settings
        path := some (rootPath group)
        locations := group.locations }
    modify (Executor.recordError error)
    pure (group.key, .failed (env.rootRequired root group) error)
  | .waiting => Exec.halt .hung
  | .escaped origin fault => Exec.halt (.escaped origin fault)
  | .tooDeep => Exec.halt .tooDeep

/-- The data of a response from what became of its root fields. -/
def assemble (groups : List FieldGroup) (outcomes : List RootOutcome) : Exec σ Response := do
  if outcomes.any isWaiting then Exec.halt .hung
  else if outcomes.any isUnfinished && !env.request.settings.partialResults then
    let cause := (← get).interruption env.request.settings
    modify (Executor.recordError { cause })
    pure .null
  else
    let positions ← (groups.zip outcomes).mapM fun (group, outcome) =>
      env.rootPosition root group outcome
    pure (Position.rootResponse positions)

/-- Executes the operation on its root type. -/
def executeRoot : Exec σ Response := do
  match ← (env.collectGroups root [env.request.operation.selections]).run with
  | .error cause =>
    modify (Executor.recordError { cause })
    pure .null
  | .ok groups =>
    if groups.isEmpty then pure (.object [])
    else
      let outcomes ← env.runRootFields root groups
      env.assemble root groups outcomes

/-- The name of an operation, as a report shows it. -/
def operationName : Option String → String
  | none | some "" => "<anonymous>"
  | some name => name

/-- An executor as it begins to execute the operation on its root type. -/
def begun (executor : Executor σ) : Executor σ :=
  (executor.reportText .debug
    ("Executing " ++ env.request.operation.kind.keyword ++ " " ++
      operationName env.request.operation.name ++ " on " ++ root.name)).begin

/-- The root type of the operation. -/
def rootType? : Option ObjectType :=
  (env.registry.root? env.request.operation.kind).bind env.registry.objectType?

/-- Executes the operation. Only an execution on a root type changes the state of the executor. -/
def execute : Exec σ ExecutionResult := do
  match env.rootType? with
  | none =>
    pure { data := .null, errors := [{ cause := .noRoot env.request.operation.kind }] }
  | some root =>
    modify (env.begun root)
    let outcome ← (env.executeRoot root).outcome
    modify Executor.finish
    let data ← ExceptT.mk (pure outcome)
    let executor ← get
    pure { data, errors := executor.errors.map executor.world.settle }

end Environment

end GraphQL
