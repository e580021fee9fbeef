import GraphQL.Behaviour
import GraphQL.Execution.Position
import GraphQL.Value.Stream

/-!
# Executors

The state of an executor and the steps that change it. Parts of an execution run one after another:
each of them either gives a result or halts, and what it did to the state stays. After a stop no
part begins that has not begun, and whoever waits for parts halts.
-/

namespace GraphQL

/-- The phases of an executor. -/
inductive Phase where
  | idle
  | running
  | stopping
  | stopped
  | completed
  deriving DecidableEq

namespace Phase

/-- The keyword of a phase. -/
def keyword : Phase → String
  | idle => "idle"
  | running => "running"
  | stopping => "stopping"
  | stopped => "stopped"
  | completed => "completed"

/-- Whether a stop was asked for. -/
def isStop : Phase → Bool
  | stopping | stopped => true
  | _ => false

end Phase

/-- Where an error object that is stored was recorded first. -/
structure LocatedFault where
  identity : Nat
  path : Option Path
  locations : List Location

/-- What outlives an execution: the state of user code, the reports, how far streams have been read,
the places of stored error objects, the promises of user code that have not been awaited, and the
next identity for a value that is made anew. -/
structure World (σ : Type) where
  user : σ
  records : List LogRecord := []
  streams : StreamUse := {}
  located : List LocatedFault := []
  promises : List (Nat × UserCode σ) := []
  nextIdentity : Nat := 0

/-- One call of a resolver. -/
structure ResolverCall where
  label : String
  path : Path
  arguments : Entries Value

/-- What happens to an executor. -/
inductive Occurrence where
  /-- An execution begins. -/
  | began
  /-- A resolver is called. -/
  | called (call : ResolverCall)
  /-- A stop is asked for. -/
  | stopRequested (reason : String)
  /-- An execution ends. -/
  | ended

/-- An occurrence with the phase and the reason that an executor has right after it. -/
structure Moment where
  occurrence : Occurrence
  phase : Phase
  reason : Option String

/-- The state of an executor. It keeps its errors from one execution to the next. -/
structure Executor (σ : Type) where
  world : World σ
  phase : Phase := .idle
  /-- The reason of the first stop. -/
  reason : Option String := none
  errors : List FieldError := []
  /-- How many root fields the last execution has begun. -/
  started : Nat := 0
  calls : List ResolverCall := []
  /-- What happened to the executor, in this order. -/
  history : List Moment := []

/-- Where a fault comes from that no position takes. -/
inductive FaultOrigin where
  /-- An iterable raised it while its items were taken. -/
  | iteration
  /-- It is itself the completed value of an item or of a field. -/
  | completion
  /-- The registry lacks a type. -/
  | registry
  deriving DecidableEq

/-- Why a part of an execution gives no result. -/
inductive Halt where
  /-- The root field is abandoned. -/
  | cancelled
  /-- The part waits forever. -/
  | hung
  /-- A fault that no position takes. -/
  | escaped (origin : FaultOrigin) (fault : Fault)
  /-- The part is nested too deeply. -/
  | tooDeep

/-- A part of an execution. -/
abbrev Exec (σ : Type) := ExceptT Halt (StateM (Executor σ))

/-- A part of an execution that may fail at the position it belongs to. -/
abbrev Attempt (σ : Type) := ExceptT FailureCause (Exec σ)

namespace World

variable {σ : Type}

/-- Adds reports. -/
def report (world : World σ) (records : List LogRecord) : World σ :=
  { world with records := world.records ++ records }

/-- Where a stored error object was recorded first. -/
def located? (world : World σ) (fault : Fault) : Option LocatedFault :=
  fault.identity.bind fun identity => world.located.find? (·.identity == identity)

/-- An error object with the path and the locations that it has got so far. -/
def settleFault (world : World σ) (fault : Fault) : Fault :=
  match world.located? fault with
  | none => fault
  | some mark =>
    { fault with
      path := fault.path <|> mark.path
      locations := if fault.locations.isEmpty then mark.locations else fault.locations }

/-- A value in which the error objects have what they have got so far. -/
def settleValue (world : World σ) (value : Value) : Value :=
  if world.located.isEmpty then value else value.mapFaults world.settleFault

/-- Keeps the place of an error object, if it is stored. -/
def keepPlace (world : World σ) (fault : Fault) (path : Option Path)
    (locations : List Location) : World σ :=
  match fault.identity with
  | none => world
  | some identity =>
    { world with
      located := ⟨identity, path, locations⟩ ::
        world.located.filter (·.identity != identity) }

/-- Keeps the place of the error object behind a recorded error. -/
def keepError (world : World σ) (error : FieldError) : World σ :=
  match error.cause.given? with
  | none => world
  | some fault => world.keepPlace fault error.path error.locations

/-- A value made anew. -/
def renew (world : World σ) (value : Value) : Value × World σ :=
  let (renewed, nextIdentity) := value.renew world.nextIdentity
  (renewed, { world with nextIdentity })

/-- Takes the items that a stream still has. -/
def takeItems (world : World σ) (identity : Nat) (items : List Value) : List Value × World σ :=
  let remaining := world.streams.remaining identity items
  (remaining, { world with streams := world.streams.advance identity remaining.length })

/-- The promise of what code gives. -/
def promise (world : World σ) (body : UserCode σ) : Value × World σ :=
  (.promise world.nextIdentity,
    { world with
      promises := (world.nextIdentity, body) :: world.promises
      nextIdentity := world.nextIdentity + 1 })

/-- The code of a promise that has not been awaited; after that it counts as awaited. -/
def takePromise (world : World σ) (identity : Nat) : Option (UserCode σ) × World σ :=
  ((world.promises.find? (·.1 == identity)).map (·.2),
    { world with promises := world.promises.filter (·.1 != identity) })

/-- The error of a cause at a position, where a stored error object keeps the place it got
first. -/
def locate (world : World σ) (cause : FailureCause) (path : Path) (locations : List Location) :
    FieldError :=
  match cause with
  | .given fault => .locate (.given (world.settleFault fault)) path locations
  | _ => .locate cause path locations

/-- A recorded error as it shows at the end: an error object that was recorded more than once shows
everywhere what it got. -/
def settle (world : World σ) (error : FieldError) : FieldError :=
  match error.cause with
  | .given fault =>
    let settled := world.settleFault fault
    { error with
      path := settled.path <|> error.path
      locations := if settled.locations.isEmpty then error.locations else settled.locations }
  | _ => error

end World

namespace Executor

variable {σ : Type}

/-- Whether a stop was asked for. -/
def isStopping (executor : Executor σ) : Bool :=
  executor.phase.isStop

/-- Adds reports. -/
def report (records : List LogRecord) (executor : Executor σ) : Executor σ :=
  { executor with world := executor.world.report records }

/-- A report of the executor itself. -/
def reportText (level : LogLevel) (message : String) : Executor σ → Executor σ :=
  report [⟨level, .executor, message⟩]

/-- Records an error. -/
def recordError (error : FieldError) (executor : Executor σ) : Executor σ :=
  let world := (executor.world.report [error.record]).keepError error
  { executor with world, errors := executor.errors ++ [error] }

/-- Notes an occurrence. -/
def note (occurrence : Occurrence) (executor : Executor σ) : Executor σ :=
  { executor with
    history := executor.history ++ [⟨occurrence, executor.phase, executor.reason⟩] }

/-- Stops an executor; only the first stop counts. -/
def forceStop (reason : String) (executor : Executor σ) : Executor σ :=
  note (.stopRequested reason) <|
    if executor.isStopping then executor
    else
      ({ executor with phase := .stopping, reason := some reason }).reportText .debug
        ("STOP_TRACE: Cancelling " ++ toString executor.started ++ " active tasks (" ++ reason ++
          ")")

/-- Notes a call of a resolver. -/
def noteCall (call : ResolverCall) (executor : Executor σ) : Executor σ :=
  note (.called call) { executor with calls := executor.calls ++ [call] }

end Executor

namespace Exec

variable {σ α : Type}

/-- Ends a part without a result. -/
def halt (why : Halt) : Exec σ α :=
  throw why

/-- A part that cannot halt: what became of another part. -/
def outcome (part : Exec σ α) : Exec σ (Except Halt α) :=
  ExceptT.mk (do
    let result ← part.run
    pure (.ok result))

/-- What a change of the world gives. -/
def withWorld (change : World σ → α × World σ) : Exec σ α :=
  modifyGet fun executor =>
    let (result, world) := change executor.world
    (result, { executor with world })

/-- Ends a part if a stop was asked for. -/
def checkpoint : Exec σ Unit := do
  if (← get).isStopping then halt .cancelled else pure ()

/-- The outcomes of parts that run one after another, unless a stop keeps them from beginning. -/
def attemptEach : List (Exec σ α) → StateM (Executor σ) (List (Except Halt α))
  | [] => pure []
  | part :: rest => do
    let outcome ← (checkpoint >>= fun () => part).run
    let outcomes ← attemptEach rest
    pure (outcome :: outcomes)

/-- Whether an outcome is that the part waits forever. -/
def isHung : Except Halt α → Bool
  | .error .hung => true
  | _ => false

/-- Whether an outcome is that the part is nested too deeply. -/
def isTooDeep : Except Halt α → Bool
  | .error .tooDeep => true
  | _ => false

/-- The results of parts: if all have one, they count; a part that waits forever keeps everybody
waiting; otherwise the first part that halted counts. -/
def join (outcomes : List (Except Halt α)) : Except Halt (List α) :=
  if outcomes.any isHung then .error .hung
  else if outcomes.any isTooDeep then .error .tooDeep
  else outcomes.mapM id

/-- The results of parts that belong together. -/
def siblings (parts : List (Exec σ α)) : Exec σ (List α) := do
  let outcomes ← attemptEach parts
  if parts.isEmpty then pure ()
  else checkpoint
  ExceptT.mk (pure (join outcomes))

end Exec

namespace Attempt

variable {σ α : Type}

/-- Fails at the position. -/
def refuse (cause : FailureCause) : Attempt σ α :=
  throw cause

/-- Ends a part without a result. -/
def halt (why : Halt) : Attempt σ α :=
  liftM (Exec.halt why : Exec σ α)

/-- Raises a fault: the position takes it if it is made for fields. -/
def raise (origin : FaultOrigin) (fault : Fault) : Attempt σ α :=
  if fault.kind.isCancellation then halt .cancelled
  else if fault.kind.isFieldError then refuse (.given fault)
  else halt (.escaped origin fault)

/-- Adds reports. -/
def report (records : List LogRecord) : Attempt σ Unit :=
  modify (Executor.report records)

/-- The value of a coercion, with reports of what it passed over. -/
def ofCoercion (coercion : Coercion α) : Attempt σ α := do
  report (coercion.ignored.map IgnoredKey.record)
  match coercion.outcome with
  | .ok value => pure value
  | .error (.failed failure) => refuse (.coercion failure)
  | .error (.unknownType name) =>
    halt (.escaped .registry { kind := .typeNotFound, message := name })
  | .error (.interrupted _) => halt .cancelled
  | .error .tooDeep => halt .tooDeep

/-- The position of a type, of a path and of places in the source text, from what is attempted
there: a failure is recorded, and is all that becomes of the position. -/
def position (ref : TypeRef) (path : Path) (locations : List Location)
    (attempt : Attempt σ Position) : Exec σ Position := do
  match ← attempt.run with
  | .ok position => pure position
  | .error cause =>
    let error := (← get).world.locate cause path locations
    modify (Executor.recordError error)
    pure (.failed ref.isNonNull error)

end Attempt

end GraphQL
