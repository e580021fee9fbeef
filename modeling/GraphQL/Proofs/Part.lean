import GraphQL.Proofs.Layout
import GraphQL.Proofs.Run

/-!
# What parts of an execution do

A part of an execution that belongs to a path may add errors below that path, and may put promises
of user code aside; where it halts, there is a reason for that. Parts are joined by rules, so that
what a whole execution does follows from what its smallest parts do.
-/

namespace GraphQL

variable {σ α β : Type}

/-- User code that may come to wait forever. -/
inductive UserCode.Waits : UserCode σ → Prop where
  | hang : Waits .hang
  | pause {next : UserCode σ} : Waits next → Waits (.pause next)
  | stop {reason : String} {next : UserCode σ} : Waits next → Waits (.stop reason next)
  | access {change : σ → σ} {next : σ → UserCode σ} (state : σ) :
      Waits (next state) → Waits (.access change next)
  | renew {value : Value} {next : Value → UserCode σ} (renewed : Value) :
      Waits (next renewed) → Waits (.renew value next)
  | takeElements {value : Value} {next : Option (List Value) → UserCode σ}
      (elements : Option (List Value)) :
      Waits (next elements) → Waits (.takeElements value next)
  | promised {body : UserCode σ} {next : Value → UserCode σ} :
      Waits body → Waits (.promise body next)
  | promise {body : UserCode σ} {next : Value → UserCode σ} (promise : Value) :
      Waits (next promise) → Waits (.promise body next)

/-- Some promise that has not been awaited may come to wait forever. -/
def World.Waits (world : World σ) : Prop :=
  ∃ entry ∈ world.promises, entry.2.Waits

/-- The failure of a coercion that ends more than the position it belongs to. -/
def CoercionStop.halt? : CoercionStop → Option Halt
  | failed _ => none
  | unknownType name => some (.escaped .registry { kind := .typeNotFound, message := name })
  | interrupted _ => some .cancelled
  | tooDeep => some .tooDeep

/-- No coercion waits forever. -/
theorem CoercionStop.halt?_ne_hung (stop : CoercionStop) : stop.halt? ≠ some .hung := by
  cases stop <;> simp [halt?]

/-- Whether a position fails because its object type lacks the field. -/
def FailureCause.isUnknownField : FailureCause → Bool
  | unknownField .. => true
  | _ => false

/-- Whether a position fails for what a value is, for what user code does or because of a stop, and
not for what the registry and the selections are. -/
def FailureCause.isOrdinary : FailureCause → Bool
  | unknownField .. | coercion _ | notALeaf _ | notCompletable _ => false
  | _ => true

/-- Keeping the place of an error object leaves the promises of user code alone. -/
theorem World.promises_keepPlace (world : World σ) (fault : Fault) (path : Option Path)
    (locations : List Location) :
    (world.keepPlace fault path locations).promises = world.promises := by
  unfold World.keepPlace
  split
  · rfl
  · rfl

/-- Recording an error leaves the promises of user code alone. -/
theorem Executor.promises_recordError (error : FieldError) (executor : Executor σ) :
    (executor.recordError error).world.promises = executor.world.promises := by
  show ((executor.world.report [error.record]).keepError error).promises = _
  unfold World.keepError
  split
  · rfl
  · exact World.promises_keepPlace ..

theorem Executor.errors_forceStop (reason : String) (executor : Executor σ) :
    (executor.forceStop reason).errors = executor.errors := by
  unfold Executor.forceStop
  split <;> rfl

theorem Executor.promises_forceStop (reason : String) (executor : Executor σ) :
    (executor.forceStop reason).world.promises = executor.world.promises := by
  unfold Executor.forceStop
  split <;> rfl

/-- The error of a cause at a path belongs there. -/
theorem World.isAt_locate (world : World σ) (cause : FailureCause) (path : Path)
    (locations : List Location) : (world.locate cause path locations).IsAt path := by
  cases cause with
  | given fault => exact Or.inr ⟨_, rfl⟩
  | _ => exact Or.inl rfl

namespace Environment

variable (env : Environment σ)

/-- Some resolver may come to wait forever. -/
def Waits : Prop :=
  ∃ handle parent args request, (env.behaviour.resolve handle parent args request).Waits

variable (root : ObjectType) (waits : Prop)

/-- Why a position may fail: for an ordinary cause, or for a reason that lies in the registry, the
arguments and the fragments. -/
inductive Warrants : FailureCause → Prop where
  | ordinary {cause : FailureCause} : cause.isOrdinary = true → Warrants cause
  | missing {field type : String} : env.Misses root → Warrants (.unknownField field type)
  | arguments {level : Nat} {object : ObjectType} {group : FieldGroup} {field : Field}
      {world : World σ} {failure : CoercionFailure} :
      env.Visits root level object group field →
      ((env.coercion world).coerceArguments defaultCoercionDepth field.args
        group.first.arguments).outcome = .error (.failed failure) →
      Warrants (.coercion failure)
  | collection {level : Nat} {object : ObjectType} {selections : List (List Selection)}
      {world : World σ} {failure : CoercionFailure} :
      env.Encounters root level object selections →
      ((env.collection world object).collectAll selections).1 = .error (.failed failure) →
      Warrants (.coercion failure)
  | unexpected {level : Nat} {object : ObjectType} {group : FieldGroup} {field : Field}
      {type : TypeDefinition} :
      env.Visits root level object group field →
      env.registry.type? field.type.name = some type → type.isAbstract = false →
      (∀ scalar, type ≠ .scalar scalar) → (∀ enum, type ≠ .enum enum) →
      (∀ inner, type ≠ .object inner) → Warrants (.unexpectedType type)

/-- What a part at a path that notes some errors does to an executor, where `waits` says whether
anything may wait forever. -/
structure Keeps (path : Path) (before : Executor σ) (noted : List FieldError)
    (after : Executor σ) : Prop where
  errors : after.errors = before.errors ++ noted
  under : ∀ error ∈ noted, error.IsUnder path
  warranted : ∀ error ∈ noted, env.Warrants root error.cause
  waiting : after.world.Waits → waits

/-- Why a part may halt. It hangs only if something waits forever, and what escapes from it is not
made for fields; the other reasons lie in the registry, the arguments and the fragments. -/
inductive MayHalt : Halt → Prop where
  | cancelled : MayHalt .cancelled
  | hung : waits → MayHalt .hung
  | escaped {origin : FaultOrigin} {fault : Fault} :
      origin ≠ .registry → fault.kind.isCancellation = false →
      fault.kind.isFieldError = false → MayHalt (.escaped origin fault)
  | unregistered {level : Nat} {object : ObjectType} {group : FieldGroup} {field : Field} :
      env.Visits root level object group field →
      env.registry.type? field.type.name = none →
      MayHalt
        (.escaped .registry { kind := .typeNotFound, message := field.type.name })
  | arguments {level : Nat} {object : ObjectType} {group : FieldGroup} {field : Field}
      {world : World σ} {stop : CoercionStop} {why : Halt} :
      env.Visits root level object group field →
      ((env.coercion world).coerceArguments defaultCoercionDepth field.args
        group.first.arguments).outcome = .error stop →
      stop.halt? = some why → MayHalt why
  | collection {level : Nat} {object : ObjectType} {selections : List (List Selection)}
      {world : World σ} {stop : CoercionStop} {why : Halt} :
      env.Encounters root level object selections →
      ((env.collection world object).collectAll selections).1 = .error stop →
      stop.halt? = some why → MayHalt why
  | nesting {level : Nat} {object : ObjectType} {selections : List (List Selection)} :
      env.Encounters root level object selections → env.request.depthBound < level →
      MayHalt .tooDeep

variable {env root waits} {path : Path} {before middle after : Executor σ}
  {first second noted : List FieldError}

/-- A position fails for an unknown field only where an execution may miss a field. -/
theorem Warrants.misses {cause : FailureCause} (warranted : env.Warrants root cause)
    (unknown : cause.isUnknownField = true) : env.Misses root := by
  cases warranted with
  | ordinary ordinary =>
    cases cause with
    | unknownField _ _ => cases ordinary
    | _ => cases unknown
  | missing misses => exact misses
  | arguments _ _ => cases unknown
  | collection _ _ => cases unknown
  | @unexpected _ _ _ _ type =>
    unfold FailureCause.unexpectedType at unknown
    split at unknown <;> cases unknown

/-- An error object stays ordinary where it gets its place. -/
theorem Warrants.locate {cause : FailureCause} (warranted : env.Warrants root cause)
    (world : World σ) (path : Path) (locations : List Location) :
    env.Warrants root (world.locate cause path locations).cause := by
  cases cause with
  | given fault => exact .ordinary rfl
  | _ => exact warranted

namespace Keeps

theorem refl (path : Path) {executor : Executor σ} (waiting : executor.world.Waits → waits) :
    env.Keeps root waits path executor [] executor where
  errors := (List.append_nil _).symm
  under := fun _ member => absurd member List.not_mem_nil
  warranted := fun _ member => absurd member List.not_mem_nil
  waiting := waiting

theorem trans (left : env.Keeps root waits path before first middle)
    (right : env.Keeps root waits path middle second after) :
    env.Keeps root waits path before (first ++ second) after where
  errors := by rw [right.errors, left.errors, List.append_assoc]
  under := by
    intro error member
    rcases List.mem_append.mp member with earlier | later
    · exact left.under error earlier
    · exact right.under error later
  warranted := by
    intro error member
    rcases List.mem_append.mp member with earlier | later
    · exact left.warranted error earlier
    · exact right.warranted error later
  waiting := right.waiting

/-- What belongs below a longer path belongs below a shorter one. -/
theorem of_append {more : Path} (kept : env.Keeps root waits (path ++ more) before noted after) :
    env.Keeps root waits path before noted after where
  errors := kept.errors
  under := fun error member => (kept.under error member).of_append
  warranted := kept.warranted
  waiting := kept.waiting

/-- Only where an execution may miss a field is an error of that kind noted. -/
theorem misses (kept : env.Keeps root waits path before noted after) :
    ∀ error ∈ noted, error.cause.isUnknownField = true → env.Misses root :=
  fun error member => (kept.warranted error member).misses

/-- What belongs below a path belongs below the root. -/
theorem below_root (kept : env.Keeps root waits path before noted after) :
    env.Keeps root waits [] before noted after :=
  of_append kept

end Keeps

variable (env root waits) in
/-- The outcome of a part that noted some errors: a result that goes with them, or a reason to
halt. -/
def Delivers (yields : List FieldError → α → Prop) (noted : List FieldError) :
    Except Halt α → Prop
  | .ok result => yields noted result
  | .error why => env.MayHalt root waits why

variable (env root waits) in
/-- What a part at a path does, whatever executor it begins with. -/
def Meets (path : Path) (part : Exec σ α) (yields : List FieldError → α → Prop) : Prop :=
  ∀ before, (before.world.Waits → waits) →
    ∃ noted, env.Keeps root waits path before noted (part.runFrom before).2 ∧
      env.Delivers root waits yields noted (part.runFrom before).1

namespace Meets

variable {part : Exec σ α} {next : α → Exec σ β} {yields more : List FieldError → α → Prop}
  {later : List FieldError → β → Prop}

theorem mono (met : env.Meets root waits path part yields)
    (weaker : ∀ noted result, yields noted result → more noted result) :
    env.Meets root waits path part more := by
  intro before waiting
  obtain ⟨noted, kept, outcome⟩ := met before waiting
  refine ⟨noted, kept, ?_⟩
  cases ran : (part.runFrom before).1 with
  | ok result =>
    rw [ran] at outcome
    exact weaker noted result outcome
  | error why =>
    rw [ran] at outcome
    exact outcome

protected theorem pure {result : α} (held : yields [] result) :
    env.Meets root waits path (pure result) yields :=
  fun _ waiting => ⟨[], .refl path waiting, held⟩

protected theorem bind (met : env.Meets root waits path part yields)
    (goesOn : ∀ noted result, yields noted result →
      env.Meets root waits path (next result) fun others => later (noted ++ others)) :
    env.Meets root waits path (part >>= next) later := by
  intro before waiting
  obtain ⟨noted, kept, outcome⟩ := met before waiting
  rcases ran : part.runFrom before with ⟨why | result, middle⟩
  · rw [ran] at kept outcome
    rw [Exec.runFrom_bind_error ran]
    exact ⟨noted, kept, outcome⟩
  · rw [ran] at kept outcome
    rw [Exec.runFrom_bind_ok ran]
    obtain ⟨others, keptOn, outcomeOn⟩ := goesOn noted result outcome middle kept.waiting
    exact ⟨noted ++ others, kept.trans keptOn, outcomeOn⟩

/-- A part that notes no error before another one goes on. -/
theorem bind_quiet {gives : α → Prop}
    (met : env.Meets root waits path part fun noted result => noted = [] ∧ gives result)
    (goesOn : ∀ result, gives result → env.Meets root waits path (next result) later) :
    env.Meets root waits path (part >>= next) later := by
  refine met.bind ?_
  rintro noted result ⟨rfl, given⟩
  exact goesOn result given

theorem map {change : α → β}
    (met : env.Meets root waits path part fun noted result => later noted (change result)) :
    env.Meets root waits path (change <$> part) later := by
  rw [map_eq_pure_bind]
  refine met.bind fun noted result held => .pure ?_
  rwa [List.append_nil]

protected theorem halt {why : Halt} (reason : env.MayHalt root waits why) :
    env.Meets root waits path (Exec.halt why) yields :=
  fun _ waiting => ⟨[], .refl path waiting, reason⟩

/-- A change of an executor that touches neither errors nor promises. -/
protected theorem modify {change : Executor σ → Executor σ}
    (errors : ∀ executor, (change executor).errors = executor.errors)
    (promises : ∀ executor, (change executor).world.promises = executor.world.promises) :
    env.Meets root waits path (modify change : Exec σ PUnit) fun noted _ => noted = [] ∧ True := by
  intro before waiting
  refine ⟨[], ⟨?_, by simp, by simp, ?_⟩, rfl, trivial⟩
  · rw [Exec.runFrom_modify, errors, List.append_nil]
  · rw [Exec.runFrom_modify]
    unfold World.Waits
    rwa [promises]

/-- A change of the world after which nothing waits unless something may. -/
theorem withWorld {change : World σ → α × World σ} {gives : α → Prop}
    (keeps : ∀ world, (world.Waits → waits) → (change world).2.Waits → waits)
    (given : ∀ world, (world.Waits → waits) → gives (change world).1) :
    env.Meets root waits path (Exec.withWorld change) fun noted result =>
      noted = [] ∧ gives result := by
  intro before waiting
  refine ⟨[], ⟨?_, by simp, by simp, keeps _ waiting⟩, rfl, given _ waiting⟩
  rw [Exec.runFrom_withWorld, List.append_nil]

/-- A change of the world that does not touch promises. -/
theorem withWorld_of_promises {change : World σ → α × World σ}
    (promises : ∀ world, (change world).2.promises = world.promises) :
    env.Meets root waits path (Exec.withWorld change) fun noted _ => noted = [] ∧ True := by
  refine withWorld (fun world keeps => ?_) fun _ _ => trivial
  unfold World.Waits
  rwa [promises]

/-- A look at the executor. -/
protected theorem get :
    env.Meets root waits path (get : Exec σ (Executor σ)) fun noted _ => noted = [] ∧ True :=
  fun _ waiting => ⟨[], .refl path waiting, rfl, trivial⟩

theorem checkpoint :
    env.Meets root waits path (Exec.checkpoint : Exec σ Unit) fun noted _ => noted = [] ∧ True := by
  intro before waiting
  rw [Exec.runFrom_checkpoint]
  refine ⟨[], .refl path waiting, ?_⟩
  cases stopping : before.isStopping with
  | true => exact .cancelled
  | false => exact ⟨rfl, trivial⟩

/-- The errors that go with a result belong below the path. -/
theorem under (met : env.Meets root waits path part yields) :
    env.Meets root waits path part fun noted result =>
      yields noted result ∧ ∀ error ∈ noted, error.IsUnder path := by
  intro before waiting
  obtain ⟨noted, kept, outcome⟩ := met before waiting
  refine ⟨noted, kept, ?_⟩
  cases ran : (part.runFrom before).1 with
  | ok result =>
    rw [ran] at outcome
    exact ⟨outcome, kept.under⟩
  | error why =>
    rw [ran] at outcome
    exact outcome

/-- A part that leaves the errors as they are notes none. -/
theorem silent (met : env.Meets root waits path part yields)
    (same : ∀ before, (part.runFrom before).2.errors = before.errors) :
    env.Meets root waits path part fun noted result => noted = [] ∧ yields noted result := by
  intro before waiting
  obtain ⟨noted, kept, outcome⟩ := met before waiting
  have nothing : noted = [] := by
    have appended := kept.errors
    rwa [same, List.self_eq_append_right] at appended
  refine ⟨noted, kept, ?_⟩
  cases ran : (part.runFrom before).1 with
  | ok result =>
    rw [ran] at outcome
    exact ⟨nothing, outcome⟩
  | error why =>
    rw [ran] at outcome
    exact outcome

/-- Recording an error notes it. -/
theorem record {error : FieldError} (placed : error.IsUnder path)
    (warranted : env.Warrants root error.cause) :
    env.Meets root waits path (modify (Executor.recordError error) : Exec σ PUnit)
      fun noted _ => noted = [error] := by
  intro before waiting
  refine ⟨[error], ⟨rfl, ?_, ?_, ?_⟩, rfl⟩
  · intro other member
    rwa [List.mem_singleton.mp member]
  · intro other member
    rwa [List.mem_singleton.mp member]
  · rw [Exec.runFrom_modify]
    unfold World.Waits
    rwa [Executor.promises_recordError]

/-- What a part does below a longer path, it does below a shorter one. -/
theorem of_append {below : Path} (met : env.Meets root waits (path ++ below) part yields) :
    env.Meets root waits path part yields := by
  intro before waiting
  obtain ⟨noted, kept, outcome⟩ := met before waiting
  exact ⟨noted, kept.of_append, outcome⟩

end Meets

end Environment

end GraphQL
