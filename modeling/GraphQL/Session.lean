import GraphQL.Definition.Inquiry
import GraphQL.Execution
import GraphQL.Script

/-!
# Sessions

A session asks one registry, whose user code are scripts, one thing after another. What the scripts
keep and what the engine reports lasts from one step to the next.
-/

namespace GraphQL

/-- A registry in use. -/
structure Session where
  registry : Registry
  scripts : Scripts
  world : World ScriptState

/-- The result of an execution with what its scripts logged. -/
structure LoggedResult where
  result : ExecutionResult
  log : List String

/-- What is done with an executor. -/
inductive ExecutorAction where
  | execute
  | look
  | stop (reason : String)

/-- The state of an executor after an action, with the result if the action was to execute, or with
the error that ended it. -/
structure ActionReport where
  outcome : Except ErrorReport (Option LoggedResult)
  phase : Phase
  reason : Option String

/-- A step of a session. Its reports stay, also if it ends with an error. -/
abbrev SessionStep := ExceptT ErrorReport (StateM Session)

namespace Session

/-- Adds reports. -/
def report (records : List LogRecord) : SessionStep Unit :=
  modify fun session => { session with world := session.world.report records }

/-- The answer of a coercion. -/
def answerCoercion {α : Type} (coercion : Coercion α) : SessionStep α := do
  report (coercion.ignored.map IgnoredKey.record)
  match coercion.outcome with
  | .ok value => pure value
  | .error stop => throw stop.report

/-- How a session coerces input. -/
def coercion (session : Session) (given : Entries Value) (policy : UnknownFieldPolicy) :
    CoercionContext where
  registry := session.registry
  convert := session.scripts.behaviour.convert
  variableValues := given
  policy := policy
  settle := session.world.settleValue

/-- Coerces a value. -/
def coerce (given : Entries Value) (policy : UnknownFieldPolicy) (ref : TypeRef)
    (raw : Value) (path : Path) : SessionStep Value := do
  let context := (← get).coercion given policy
  answerCoercion (context.coerce defaultCoercionDepth ref raw path)

/-- Coerces literals to the arguments that are declared. -/
def coerceArguments (given : Entries Value) (policy : UnknownFieldPolicy)
    (args : List Argument) (literals : Entries Value) : SessionStep (Entries Value) := do
  let context := (← get).coercion given policy
  answerCoercion (context.coerceArguments defaultCoercionDepth args literals)

/-- What is asked of the registry about a name that a type must have. -/
def require {α : Type} (ask : Registry → String → Option α) (name : String) : SessionStep α := do
  match ask (← get).registry name with
  | some answer => pure answer
  | none => throw (.unknownType name)

/-- The definition of a name. -/
def lookup (name : String) : SessionStep TypeDefinition :=
  require Registry.type? name

/-- The walk over the registry from some roots, all of which must lead somewhere. -/
def walkFrom (roots : List String) : SessionStep (List WalkEvent) := do
  let events := walk (← get).registry.types roots
  match firstMissing? events with
  | some name => throw (.unknownType name)
  | none => pure events

/-- The arguments of a field. -/
def fieldArguments (type field : String) : SessionStep (List Argument) := do
  let type ← lookup type
  match (← get).registry.field? type field with
  | some found => pure found.args
  | none =>
    let className := if (Registry.inputField? type field).isSome then "InputField"
      else Value.null.typeName
    throw (.noAttribute className "args")

/-- The arguments of a directive. -/
def directiveArguments (directive : String) : SessionStep (List Argument) := do
  match (← get).registry.directive? directive with
  | some found => pure found.args
  | none => throw (.noAttribute Value.null.typeName "args")

/-- The object type of a value of an abstract type. -/
def concreteType (type : TypeDefinition) (value : Value) : SessionStep ObjectType := do
  let session ← get
  if type.isAbstract then
    match AbstractType.resolve session.registry session.scripts.behaviour.answer type value with
    | .ok object => pure object
    | .error failure => do
      report failure.records
      throw failure.report
  else throw (type.lacking "resolve_type")

/-- What the scripts logged, and the world in which they log anew. -/
def takeLog (world : World ScriptState) : List String × World ScriptState :=
  (world.user.log, { world with user := { world.user with log := [] } })

/-- Executes with an executor. An execution without a result leaves the log to the next one. -/
def runExecutor (env : Environment ScriptState) (executor : Executor ScriptState) :
    Except Halt LoggedResult × Executor ScriptState :=
  match Id.run ((env.execute.run).run executor) with
  | (.error halt, executor) => (.error halt, executor)
  | (.ok result, executor) =>
    let (log, world) := takeLog executor.world
    (.ok { result, log }, { executor with world })

/-- Does one thing with an executor. -/
def act (env : Environment ScriptState) (executor : Executor ScriptState) :
    ExecutorAction → Except Halt (Option LoggedResult) × Executor ScriptState
  | .execute =>
    let (outcome, executor) := runExecutor env executor
    (outcome.map some, executor)
  | .look => (.ok none, executor)
  | .stop reason => (.ok none, executor.forceStop reason)

/-- Does things with an executor one after another. -/
def actAll (env : Environment ScriptState) (executor : Executor ScriptState) :
    List ExecutorAction → List ActionReport × Executor ScriptState
  | [] => ([], executor)
  | action :: rest =>
    let (outcome, executor) := act env executor action
    let report : ActionReport :=
      { outcome := outcome.mapError Halt.report
        phase := executor.phase
        reason := executor.reason }
    let (reports, last) := actAll env executor rest
    (report :: reports, last)

/-- What a request is executed in. -/
def environment (session : Session) (request : Request) : Environment ScriptState where
  registry := session.registry
  behaviour := session.scripts.behaviour
  request := request

/-- Serves a request with an executor of its own, with which things are done one after another. -/
def serve (request : Request) (actions : List ExecutorAction) :
    SessionStep (List ActionReport) := do
  let session ← get
  let (reports, executor) :=
    actAll (session.environment request) { world := session.world } actions
  set { session with world := executor.world }
  pure reports

/-- Serves a request with an executor of its own, once. -/
def execute (request : Request) : SessionStep (Option LoggedResult) := do
  let reports ← serve request [.execute]
  match reports.head?.map ActionReport.outcome with
  | some (.ok result) => pure result
  | some (.error report) => throw report
  | none => pure none

end Session

end GraphQL
