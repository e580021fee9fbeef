import GraphQL.Execution.Collection
import GraphQL.Execution.Executor
import GraphQL.Introspection.Resolve
import GraphQL.Value.Attribute

/-!
# Resolving fields

The value of a field before completion. A field without a resolver reads the value from its parent:
under its source, otherwise under its public name. A fault of user code becomes the failure of the
position, unless it abandons the root field.
-/

namespace GraphQL

variable {σ : Type}

/-- What stays the same during an execution. -/
structure Environment (σ : Type) where
  registry : Registry
  behaviour : Behaviour σ
  request : Request

/-- Takes the elements of a value, if it has any. A stream may fail after them. -/
def World.takeElements (world : World σ) (value : Value) :
    Except Fault (Option (List Value)) × World σ :=
  match value.bare with
  | .stream identity items failure =>
    let (remaining, world) := world.takeItems identity items
    match failure with
    | some fault => (.error fault, world)
    | none => (.ok (some remaining), world)
  | other => (.ok other.elements?, world)

namespace UserCode

/-- Raises a fault out of user code. -/
def raise (fault : Fault) : Exec σ (Except Fault Value) :=
  if fault.kind.isCancellation then Exec.halt .cancelled else pure (.error fault)

/-- Runs user code. Where it lets others run, a stop abandons it. -/
def run : UserCode σ → Exec σ (Except Fault Value)
  | finish value => pure (.ok value)
  | fail fault => raise fault
  | hang => do
    Exec.checkpoint
    Exec.halt .hung
  | pause next => do
    Exec.checkpoint
    next.run
  | stop reason next => do
    modify (Executor.forceStop reason)
    next.run
  | access change next => do
    let before := (← get).world.user
    modify fun executor =>
      { executor with world := { executor.world with user := change before } }
    (next before).run
  | renew value next => do
    let value ← Exec.withWorld (World.renew · value)
    (next value).run
  | takeElements value next => do
    match ← Exec.withWorld (World.takeElements · value) with
    | .ok elements => (next elements).run
    | .error fault => raise fault
  | promise body next => do
    let value ← Exec.withWorld (World.promise · body)
    (next value).run

end UserCode

namespace Exec

/-- The fault of awaiting what was awaited already. -/
def alreadyAwaited : Fault where
  kind := .runtime
  message := "cannot reuse already awaited coroutine"

/-- What awaiting a value gives; a value that is no promise is its own. What a promise gives is not
awaited again. -/
def await (value : Value) : Exec σ (Except Fault Value) :=
  match value.bare with
  | .pending inner => Except.ok <$> withWorld (World.renew · inner)
  | .failing cause => pure (.error cause)
  | .promise identity => do
    match ← withWorld (World.takePromise · identity) with
    | some body => body.run
    | none => pure (.error alreadyAwaited)
  | _ => pure (.ok value)

/-- A look at a parent, which may read streams. -/
def inspect (inspection : Introspector.Inspection Value) : Exec σ (Except Fault Value) :=
  withWorld fun world =>
    let (outcome, streams) := Id.run (inspection.run world.streams)
    (outcome, { world with streams })

/-- Calls a method of the engine. -/
def callMethod (method : EngineMethod) (args : Entries Value) : Exec σ (Except Fault Value) :=
  withWorld fun world =>
    match method.call args with
    | (outcome, some changed) =>
      (outcome, world.keepPlace changed changed.path changed.locations)
    | (outcome, none) => (outcome, world)

end Exec

/-- A field of an object with the selections that ask for it. -/
structure Target where
  parent : String
  field : Field
  group : FieldGroup

namespace Target

/-- The name of a field together with its type. -/
def label (target : Target) : String :=
  target.parent ++ "." ++ target.field.name

end Target

namespace Environment

variable (env : Environment σ)

/-- How the arguments of fields are coerced in a world. -/
def coercion (world : World σ) : CoercionContext where
  registry := env.registry
  convert := env.behaviour.convert
  variableValues := env.request.variableValues
  policy := env.request.settings.unknownFields
  settle := world.settleValue

/-- How the fields of an object type are collected in a world. -/
def collection (world : World σ) (object : ObjectType) : CollectionContext where
  registry := env.registry
  convert := env.behaviour.convert
  variableValues := env.request.variableValues
  fragments := env.request.fragments
  object := object
  settle := world.settleValue

/-- Runs the resolver of user code. One that runs beside the engine lets others run meanwhile. -/
def runResolver (handle : Handle) (parent : Value) (args : Entries Value) :
    Exec σ (Except Fault Value) := do
  let outcome ← (env.behaviour.resolve handle parent args (some env.request)).run
  if env.request.settings.threads then Exec.checkpoint
  pure outcome

/-- Calls a method of user code, which knows of no request. -/
def callMethod (handle : Handle) (owner : Value) (args : Entries Value) :
    Exec σ (Except Fault Value) :=
  (env.behaviour.resolve handle owner args none).run

/-- What the resolver of a field gives, which may be a promise. -/
def callResolver (target : Target) (parent : Value) (args : Entries Value) :
    Exec σ (Except Fault Value) :=
  match target.field.resolver with
  | .given handle => env.runResolver handle parent args
  | .introspect what =>
    match what.method? parent with
    | none => Exec.inspect (what.resolve env.registry parent args)
    | some (owner, handle) => do
      match ← env.callMethod handle owner [] with
      | .ok listed => Exec.inspect (Introspector.eachElement listed .ok)
      | .error fault => pure (.error fault)
  | .default =>
    match parent.read target.field.key target.field.name with
    | .value value => pure (.ok value)
    | .method handle => env.callMethod handle parent args
    | .engine method => Exec.callMethod method args

/-- Calls the resolver of a field and awaits what it gives. -/
def call (target : Target) (parent : Value) (args : Entries Value) :
    Exec σ (Except Fault Value) := do
  let parent := (← get).world.settleValue parent
  match ← env.callResolver target parent args with
  | .ok value => Exec.await value
  | .error fault => pure (.error fault)

/-- The failure of a position by a fault that was raised there. -/
def failureOf (fault : Fault) : FailureCause :=
  if fault.kind.isFieldError then .given fault else .resolver fault

/-- What a resolver gave, once it is there: a fault that it returned fails like one that it raised,
but only the latter is reported. -/
def accept (target : Target) (outcome : Except Fault Value) : Attempt σ Value :=
  match outcome with
  | .error fault =>
    if fault.kind.isCancellation then Attempt.halt .cancelled
    else if fault.kind.isFieldError then Attempt.refuse (.given fault)
    else do
      Attempt.report [⟨.error, .executor,
        "Resolver for " ++ target.label ++ " failed: " ++ fault.classified⟩]
      Attempt.refuse (.resolver fault)
  | .ok (.fault fault) =>
    if fault.kind.isCancellation then pure (.fault fault)
    else Attempt.refuse (failureOf fault)
  | .ok value => pure value

/-- The value of a field before completion. -/
def resolve (target : Target) (path : Path) (parent : Value) (args : Entries Value) :
    Attempt σ Value := do
  liftM (Exec.checkpoint : Exec σ Unit)
  modify (Executor.noteCall { label := target.label, path, arguments := args })
  let outcome ← liftM (env.call target parent args)
  accept target outcome

end Environment

end GraphQL
