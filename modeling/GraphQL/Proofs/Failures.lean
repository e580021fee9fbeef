import GraphQL.Proofs.Parsing
import GraphQL.Proofs.Runtime

/-!
# Faults become failures of positions

Whatever user code raises while a field or an item is completed becomes the failure of that
position, with the error at its path: the code of a resolver, a promise, a parse or a serialize
function and the hooks of types. An iterable is different: a fault of it that is not made for fields
escapes from the position.
-/

namespace GraphQL

variable {σ α β : Type}

/-- A cause of failure shows a fault of user code. A fault made for fields may have got a place. -/
def FailureCause.Shows (fault : Fault) : FailureCause → Prop
  | given raised => raised.kind = fault.kind ∧ raised.message = fault.message
  | resolver raised | serialization raised | checkFailed _ raised => raised = fault
  | coercion failure => failure.Shows fault
  | abstractType failure => ∃ hook, failure.cause = .hookRaised hook fault
  | _ => False

/-- An error shows what its cause shows, wherever it belongs. -/
theorem World.shows_locate {fault : Fault} {cause : FailureCause} (shows : cause.Shows fault)
    (world : World σ) (path : Path) (locations : List Location) :
    (world.locate cause path locations).cause.Shows fault := by
  cases cause with
  | given raised =>
    have settled : (world.settleFault raised).kind = raised.kind ∧
        (world.settleFault raised).message = raised.message := by
      unfold World.settleFault
      split
      · exact ⟨rfl, rfl⟩
      · exact ⟨rfl, rfl⟩
    exact ⟨settled.1.trans shows.1, settled.2.trans shows.2⟩
  | _ => exact shows

namespace Attempt

/-- Begun with an executor, an attempt fails for a cause that shows a fault. -/
def FailsBy (attempt : Attempt σ α) (before : Executor σ) (fault : Fault) : Prop :=
  ∃ cause after, Exec.runFrom attempt.run before = (.ok (.error cause), after) ∧
    cause.Shows fault

namespace FailsBy

variable {attempt : Attempt σ α} {next : α → Attempt σ β} {before middle after : Executor σ}
  {fault : Fault}

theorem refuse {cause : FailureCause} (shows : cause.Shows fault) :
    FailsBy (Attempt.refuse cause : Attempt σ α) before fault :=
  ⟨cause, before, rfl, shows⟩

/-- An attempt that fails ends what comes after it. -/
protected theorem bind (failed : attempt.FailsBy before fault) :
    (attempt >>= next).FailsBy before fault := by
  obtain ⟨cause, after, ran, shows⟩ := failed
  refine ⟨cause, after, ?_, shows⟩
  rw [ExceptT.run_bind, Exec.runFrom_bind_ok ran]
  rfl

/-- An attempt may fail after another one gave a value. -/
theorem following {value : α} (ran : Exec.runFrom attempt.run before = (.ok (.ok value), middle))
    (failed : (next value).FailsBy middle fault) : (attempt >>= next).FailsBy before fault := by
  obtain ⟨cause, after, ranOn, shows⟩ := failed
  exact ⟨cause, after, (runFrom_bind_ok ran).trans ranOn, shows⟩

/-- An attempt may fail after a part gave a value. -/
theorem lift {part : Exec σ α} {value : α} (ran : part.runFrom before = (.ok value, middle))
    (failed : (next value).FailsBy middle fault) : (liftM part >>= next).FailsBy before fault :=
  following (runFrom_liftM_ok ran) failed

theorem report {records : List LogRecord} {rest : Attempt σ β}
    (failed : rest.FailsBy (before.report records) fault) :
    (Attempt.report records >>= fun _ => rest).FailsBy before fault :=
  .following rfl failed

/-- A coercion that gives a value reports what it passed over. -/
theorem coerced {coercion : Coercion α} {value : α} (outcome : coercion.outcome = .ok value)
    (failed : (next value).FailsBy (before.report (coercion.ignored.map IgnoredKey.record)) fault) :
    (Attempt.ofCoercion coercion >>= next).FailsBy before fault :=
  following (runFrom_ofCoercion outcome before) failed

/-- A coercion that fails by a fault fails the attempt. -/
theorem ofCoercion {coercion : Coercion α} {failure : CoercionFailure}
    (outcome : coercion.outcome = .error (.failed failure)) (shows : failure.Shows fault) :
    (Attempt.ofCoercion coercion : Attempt σ α).FailsBy before fault := by
  rcases coercion with ⟨result, ignored⟩
  cases outcome
  exact ⟨.coercion failure, _, rfl, shows⟩

end FailsBy

end Attempt

/-- Begun with an executor, the position at a path fails with an error there that shows a fault, and
the error is recorded. -/
def Exec.FailsAt (part : Exec σ Position) (before : Executor σ) (path : Path) (fault : Fault) :
    Prop :=
  ∃ (required : Bool) (error : FieldError) (middle : Executor σ),
    part.runFrom before = (.ok (.failed required error), middle.recordError error) ∧
      error.IsAt path ∧ error.cause.Shows fault

/-- A position fails where the attempt at it does. -/
theorem Attempt.FailsBy.position {ref : TypeRef} {path : Path} {locations : List Location}
    {attempt : Attempt σ Position} {before : Executor σ} {fault : Fault}
    (failed : attempt.FailsBy before fault) :
    (Attempt.position ref path locations attempt).FailsAt before path fault := by
  obtain ⟨cause, after, ran, shows⟩ := failed
  refine ⟨ref.isNonNull, after.world.locate cause path locations, after, ?_, ?_, ?_⟩
  · unfold Attempt.position
    rw [Exec.runFrom_bind_ok ran]
    rfl
  · exact after.world.isAt_locate cause path locations
  · exact after.world.shows_locate shows path locations

namespace AbstractType

variable {registry : Registry} {answer : Handle → Value → Except Fault Value}
  {type : TypeDefinition} {value : Value} {fault : Fault}

variable (registry answer type value fault) in
/-- A hook that is asked for the object type of a value of an abstract type raises a fault. -/
inductive Raises : Prop where
  /-- The hook of the abstract type does. -/
  | own {hook : Handle} :
      hook? type = some hook → answer hook value = .error fault → Raises
  /-- The hook of the object type that the abstract type names does. -/
  | named {hook check : Handle} {result : Value} {object : ObjectType} :
      hook? type = some hook → answer hook value = .ok result →
      AbstractType.named registry type.name result = .ok object →
      object.isTypeOf = some check → answer check value = .error fault → Raises
  /-- The hook of a possible type does, after those before it have rejected the value. -/
  | candidate {earlier later : List ObjectType} {object : ObjectType} {check : Handle} :
      hook? type = none → registry.possibleTypes type.name = earlier ++ object :: later →
      (∀ other ∈ earlier, ∀ hook, other.isTypeOf = some hook →
        ∃ result, answer hook value = .ok result ∧ result.truthy = false) →
      object.isTypeOf = some check → answer check value = .error fault → Raises

/-- The failure of an abstract type by a fault of a hook. -/
def Blames (fault : Fault) (cause : AbstractCause) : Prop :=
  cause = .passedOn fault ∨ ∃ hook, cause = .hookRaised hook fault

/-- Possible types whose hooks reject a value are passed over. -/
theorem firstAccepting?_append {earlier later : List ObjectType}
    (rejected : ∀ other ∈ earlier, ∀ hook, other.isTypeOf = some hook →
      ∃ result, answer hook value = .ok result ∧ result.truthy = false) :
    firstAccepting? answer value (earlier ++ later) = firstAccepting? answer value later := by
  induction earlier with
  | nil => rfl
  | cons object rest ih =>
    have others := ih fun other member => rejected other (List.mem_cons_of_mem _ member)
    rw [List.cons_append, firstAccepting?]
    cases checked : object.isTypeOf with
    | none => exact others
    | some hook =>
      obtain ⟨result, answered, falsy⟩ := rejected object List.mem_cons_self hook checked
      have refused : accepts answer object value = .ok false := by
        unfold accepts ask
        rw [checked]
        dsimp only
        rw [answered, ← falsy]
        rfl
      dsimp only
      rw [refused]
      exact others

end AbstractType

namespace Environment

variable {env : Environment σ} {execute : ObjectExecution σ} {target : Target} {object : ObjectType}
  {parent value : Value} {path : Path} {before after : Executor σ} {fault : Fault}

variable (env object target parent path before) in
/-- The arguments of a field. -/
def argumentsOf : Coercion (Entries Value) :=
  (env.coercion before.world).coerceArguments defaultCoercionDepth target.field.args
    target.group.first.arguments

variable (env object target parent path) in
/-- The value of a field before completion. -/
def fetch : Attempt σ Value := do
  if target.field.name = Introspection.typenameField.name then pure (.str object.name)
  else
    let args ← Attempt.ofCoercion (env.argumentsOf target (← get))
    env.resolve target path parent args

/-- A field is fetched, and then its value is completed. -/
theorem executeTarget_eq : env.executeTarget execute object target parent path =
    Attempt.position target.field.type path target.group.locations
      (env.fetch target object parent path >>=
        env.complete execute target target.field.type path) := by
  unfold executeTarget fetch argumentsOf
  congr 1
  split
  · rw [pure_bind]
  · simp only [bind_assoc]

variable (target path) in
/-- An executor as it calls the resolver of a field with the arguments that were coerced. -/
def calling (args : Coercion (Entries Value)) (given : Entries Value) (before : Executor σ) :
    Executor σ :=
  (before.report (args.ignored.map IgnoredKey.record)).noteCall
    { label := target.label, path, arguments := given }

variable (env target parent path before fault) in
/-- User code raises a fault while the value of a field is fetched. -/
inductive FetchRaises : Prop where
  /-- A parse function does. -/
  | parsing {failure : CoercionFailure} :
      (env.argumentsOf target before).outcome = .error (.failed failure) →
      failure.Shows fault → FetchRaises
  /-- The code of the resolver or of a promise that it gave does. -/
  | resolving {args : Entries Value} {after : Executor σ} :
      (env.argumentsOf target before).outcome = .ok args → before.isStopping = false →
      (env.call target parent args).runFrom
          (calling target path (env.argumentsOf target before) args before) =
        (.ok (.error fault), after) → FetchRaises
  /-- It gives the fault as its value. -/
  | giving {args : Entries Value} {after : Executor σ} :
      (env.argumentsOf target before).outcome = .ok args → before.isStopping = false →
      (env.call target parent args).runFrom
          (calling target path (env.argumentsOf target before) args before) =
        (.ok (.ok (.fault fault)), after) → FetchRaises

/-- A resolver is called, and what it gave is accepted, unless a stop was asked for. -/
theorem runFrom_resolve (running : before.isStopping = false) (args : Entries Value) :
    Exec.runFrom (env.resolve target path parent args).run before =
      Exec.runFrom ((liftM (env.call target parent args) : Attempt σ _) >>= accept target).run
        (before.noteCall { label := target.label, path, arguments := args }) := by
  have goesOn := Attempt.runFrom_liftM_ok (Exec.runFrom_checkpoint_of_running running)
  unfold resolve
  rw [Attempt.runFrom_bind_ok goesOn]
  rfl

variable (env before fault) in
/-- User code raises a fault while a value is completed by its type. An iterable counts only if the
fault is made for fields. -/
inductive CompletionRaises : TypeRef → Value → Prop where
  /-- A serialize function does. -/
  | serializing {name : String} {required : Bool} {type : ScalarType} {value : Value} :
      value.isNull = false → env.registry.type? name = some (.scalar type) →
      type.serialize.apply env.behaviour.convert (before.world.settleValue value) =
        .error fault → CompletionRaises (.named name required) value
  /-- The hook of an object type does. -/
  | checking {name : String} {required : Bool} {type : ObjectType} {hook : Handle}
      {value : Value} :
      value.isNull = false → env.registry.type? name = some (.object type) →
      type.isTypeOf = some hook →
      env.behaviour.answer hook (before.world.settleValue value) = .error fault →
      CompletionRaises (.named name required) value
  /-- A hook that is asked for the object type of a value of an abstract type does. -/
  | choosing {name : String} {required : Bool} {type : TypeDefinition} {value : Value} :
      value.isNull = false → env.registry.type? name = some type → type.isAbstract = true →
      AbstractType.Raises env.registry env.behaviour.answer type
        (before.world.settleValue value) fault → CompletionRaises (.named name required) value
  /-- An iterable does. -/
  | iterating {item : TypeRef} {required : Bool} {identity : Nat} {items : List Value}
      {value : Value} :
      value.bare = .stream identity items (some fault) → fault.kind.isFieldError = true →
      CompletionRaises (.list item required) value

variable (env execute target) in
/-- The position of an item of a list. -/
def completeItem (item : TypeRef) (path : Path) (raw : Value) : Exec σ Position :=
  Attempt.position item path target.group.locations
    (awaitItem raw >>= env.complete execute target item path)

/-- The items of a list are completed each at its index. -/
theorem complete_list {item : TypeRef} {required : Bool} (present : value.isNull = false) :
    env.complete execute target (.list item required) path value =
      itemsOf target value >>= fun items =>
        Position.list required <$> together id (items.mapIdx fun index raw =>
          env.completeItem execute target item (path ++ [.index index]) raw) := by
  unfold complete
  rw [present, if_neg Bool.false_ne_true]
  rfl

variable (env execute fault) in
/-- User code raises a fault while the position of a field or of an item is completed. -/
inductive Raises : Exec σ Position → Executor σ → Path → Prop where
  | fetching {target : Target} {object : ObjectType} {parent : Value} {path : Path}
      {before : Executor σ} :
      target.field.name ≠ Introspection.typenameField.name →
      env.FetchRaises target parent path before fault →
      Raises (env.executeTarget execute object target parent path) before path
  | completing {target : Target} {object : ObjectType} {parent value : Value} {path : Path}
      {before middle : Executor σ} :
      Exec.runFrom (env.fetch target object parent path).run before =
        (.ok (.ok value), middle) →
      env.CompletionRaises middle fault target.field.type value →
      Raises (env.executeTarget execute object target parent path) before path
  | awaiting {target : Target} {item : TypeRef} {raw : Value} {path : Path}
      {before after : Executor σ} :
      (Exec.await raw).runFrom before = (.ok (.error fault), after) →
      Raises (env.completeItem execute target item path raw) before path
  | completingItem {target : Target} {item : TypeRef} {raw value : Value} {path : Path}
      {before middle : Executor σ} :
      Exec.runFrom (awaitItem raw : Attempt σ Value).run before = (.ok (.ok value), middle) →
      env.CompletionRaises middle fault item value →
      Raises (env.completeItem execute target item path raw) before path

end Environment

end GraphQL
