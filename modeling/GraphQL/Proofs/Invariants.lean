import GraphQL.Proofs.Execution
import GraphQL.Proofs.Quiet

/-!
# What every execution preserves

All that an execution does to an executor is made of a few changes: it changes the world, records
errors, notes how many root fields begin, calls resolvers, stops, begins and ends. No resolver is
called while a stop is asked for. What these changes preserve is preserved by whole executions,
whether they give a result or halt.
-/

namespace GraphQL

variable {σ α β : Type}

namespace Executor

/-- What all changes preserve that an execution makes of an executor. -/
structure Stable (holds : Executor σ → Prop) : Prop where
  world : ∀ {executor} (world : World σ), holds executor → holds { executor with world }
  recordError : ∀ {executor} (error : FieldError), holds executor →
    holds (executor.recordError error)
  start : ∀ {executor} (count : Nat), holds executor → holds (executor.start count)
  noteCall : ∀ {executor} (call : ResolverCall), executor.isStopping = false →
    holds executor → holds (executor.noteCall call)
  forceStop : ∀ {executor} (reason : String), holds executor → holds (executor.forceStop reason)
  begin : ∀ {executor}, holds executor → holds executor.begin
  finish : ∀ {executor}, holds executor → holds executor.finish

variable {holds : Executor σ → Prop} {executor : Executor σ}

theorem Stable.report (stable : Stable holds) (records : List LogRecord)
    (held : holds executor) : holds (executor.report records) :=
  stable.world _ held

theorem Stable.timeOut (stable : Stable holds) (running : Nat) (held : holds executor) :
    holds (executor.timeOut running) :=
  stable.forceStop _ (stable.report _ held)

end Executor

namespace Exec

/-- A part that preserves what holds of an executor, whatever becomes of it. -/
def Preserves (holds : Executor σ → Prop) (part : Exec σ α) : Prop :=
  ∀ before, holds before → holds (part.runFrom before).2

namespace Preserves

variable {holds : Executor σ → Prop} {part : Exec σ α} {next : α → Exec σ β}

protected theorem pure (result : α) : Preserves holds (pure result : Exec σ α) :=
  fun _ held => held

protected theorem halt (why : Halt) : Preserves holds (Exec.halt why : Exec σ α) :=
  fun _ held => held

protected theorem get : Preserves holds (get : Exec σ (Executor σ)) :=
  fun _ held => held

protected theorem modify {change : Executor σ → Executor σ}
    (keeps : ∀ {executor}, holds executor → holds (change executor)) :
    Preserves holds (modify change : Exec σ PUnit) :=
  fun _ held => keeps held

protected theorem withWorld (stable : Executor.Stable holds) (change : World σ → α × World σ) :
    Preserves holds (withWorld change) :=
  fun _ held => stable.world _ held

protected theorem bind (first : Preserves holds part)
    (goesOn : ∀ result, Preserves holds (next result)) : Preserves holds (part >>= next) := by
  intro before held
  have kept := first before held
  rcases ran : part.runFrom before with ⟨why | result, after⟩
  · rw [ran] at kept
    rw [runFrom_bind_error ran]
    exact kept
  · rw [ran] at kept
    rw [runFrom_bind_ok ran]
    exact goesOn result after kept

theorem map {change : α → β} (kept : Preserves holds part) : Preserves holds (change <$> part) := by
  intro before held
  rw [runFrom_map]
  exact kept before held

/-- What comes after a checkpoint begins only where no stop is asked for. -/
theorem checkpoint_bind {next : Unit → Exec σ β}
    (goesOn : ∀ before, before.isStopping = false → holds before →
      holds ((next ()).runFrom before).2) : Preserves holds (Exec.checkpoint >>= next) := by
  intro before held
  rw [runFrom_bind, runFrom_checkpoint]
  cases stopping : before.isStopping with
  | true => exact held
  | false => exact goesOn before stopping held

theorem checkpoint : Preserves holds (Exec.checkpoint : Exec σ Unit) := by
  intro before held
  rw [runFrom_checkpoint]
  exact held

theorem lift_bind {part : StateM (Executor σ) α} {next : α → StateM (Executor σ) β}
    (first : Preserves holds (liftM part : Exec σ α))
    (goesOn : ∀ result, Preserves holds (liftM (next result) : Exec σ β)) :
    Preserves holds (liftM (part >>= next) : Exec σ β) := by
  have same :
      (liftM (part >>= next) : Exec σ β) = liftM part >>= fun result => liftM (next result) := rfl
  rw [same]
  exact first.bind goesOn

theorem outcome (kept : Preserves holds part) : Preserves holds part.outcome := by
  intro before held
  rw [runFrom_outcome]
  exact kept before held

theorem attemptEach {parts : List (Exec σ α)} (kept : ∀ part ∈ parts, Preserves holds part) :
    Preserves holds (liftM (Exec.attemptEach parts) : Exec σ (List (Except Halt α))) := by
  induction parts with
  | nil => exact .pure _
  | cons part rest ih =>
    rw [List.forall_mem_cons] at kept
    intro before held
    rw [runFrom_lift, run_attemptEach_cons]
    have first := checkpoint.bind (fun _ => kept.1) before held
    exact ih kept.2 _ first

theorem siblings {parts : List (Exec σ α)} (kept : ∀ part ∈ parts, Preserves holds part) :
    Preserves holds (Exec.siblings parts) := by
  intro before held
  rw [runFrom_siblings]
  exact attemptEach kept before held

protected theorem mapM {items : List α} {part : α → Exec σ β}
    (kept : ∀ item, Preserves holds (part item)) : Preserves holds (items.mapM part) := by
  induction items with
  | nil => exact .pure _
  | cons item rest ih =>
    rw [List.mapM_cons]
    exact (kept item).bind fun _ => ih.bind fun _ => .pure _

end Preserves

end Exec

/-- An attempt that preserves what holds of an executor, also where it fails. -/
abbrev Attempt.Preserves (holds : Executor σ → Prop) (attempt : Attempt σ α) : Prop :=
  Exec.Preserves holds attempt.run

namespace Attempt.Preserves

variable {holds : Executor σ → Prop} {attempt : Attempt σ α} {next : α → Attempt σ β}

protected theorem pure (result : α) : Attempt.Preserves holds (pure result : Attempt σ α) :=
  Exec.Preserves.pure _

theorem refuse (cause : FailureCause) :
    Attempt.Preserves holds (Attempt.refuse cause : Attempt σ α) :=
  Exec.Preserves.pure _

protected theorem bind (first : Attempt.Preserves holds attempt)
    (goesOn : ∀ result, Attempt.Preserves holds (next result)) :
    Attempt.Preserves holds (attempt >>= next) := by
  unfold Attempt.Preserves
  rw [ExceptT.run_bind]
  refine Exec.Preserves.bind first fun outcome => ?_
  cases outcome with
  | ok result => exact goesOn result
  | error cause => exact .pure _

theorem map {change : α → β} (kept : Attempt.Preserves holds attempt) :
    Attempt.Preserves holds (change <$> attempt) := by
  unfold Attempt.Preserves
  rw [ExceptT.run_map]
  exact Exec.Preserves.map kept

theorem lift {part : Exec σ α} (kept : part.Preserves holds) :
    Attempt.Preserves holds (liftM part : Attempt σ α) := by
  unfold Attempt.Preserves
  rw [Exec.run_liftM]
  exact kept.map

protected theorem halt (why : Halt) :
    Attempt.Preserves holds (Attempt.halt why : Attempt σ α) :=
  lift (.halt why)

protected theorem get : Attempt.Preserves holds (get : Attempt σ (Executor σ)) :=
  lift .get

theorem report (stable : Executor.Stable holds) (records : List LogRecord) :
    Attempt.Preserves holds (Attempt.report records : Attempt σ Unit) :=
  lift (.modify (stable.report records))

theorem raise (origin : FaultOrigin) (fault : Fault) :
    Attempt.Preserves holds (Attempt.raise origin fault : Attempt σ α) := by
  unfold Attempt.raise
  split
  · exact .halt _
  · split
    · exact refuse _
    · exact .halt _

theorem ofCoercion (stable : Executor.Stable holds) (coercion : Coercion α) :
    Attempt.Preserves holds (Attempt.ofCoercion coercion : Attempt σ α) := by
  unfold Attempt.ofCoercion
  refine Attempt.Preserves.bind (report stable _) fun _ => ?_
  split
  · exact .pure _
  · exact refuse _
  · exact .halt _
  · exact .halt _
  · exact .halt _

/-- What comes after a checkpoint begins only where no stop is asked for. -/
theorem checkpoint_bind {next : Unit → Attempt σ α}
    (goesOn : ∀ before, before.isStopping = false → holds before →
      holds (Exec.runFrom (next ()).run before).2) :
    Attempt.Preserves holds (liftM (Exec.checkpoint : Exec σ Unit) >>= next) := by
  unfold Attempt.Preserves
  rw [Attempt.run_liftM_bind]
  exact Exec.Preserves.checkpoint_bind goesOn

end Attempt.Preserves

/-- A position preserves what its attempt does and what holds after an error is recorded. -/
theorem Exec.Preserves.position {holds : Executor σ → Prop} (stable : Executor.Stable holds)
    {attempt : Attempt σ Position} (kept : Attempt.Preserves holds attempt) (ref : TypeRef)
    (path : Path) (locations : List Location) :
    Exec.Preserves holds (Attempt.position ref path locations attempt) := by
  unfold Attempt.position
  refine Exec.Preserves.bind kept fun outcome => ?_
  cases outcome with
  | ok position => exact .pure _
  | error cause =>
    refine Exec.Preserves.get.bind fun executor => ?_
    exact Exec.Preserves.bind (.modify (stable.recordError _)) fun _ => .pure _

namespace Environment

open Exec (Preserves)

variable (env : Environment σ) {holds : Executor σ → Prop}

section Resolution

theorem raise_preserves (fault : Fault) : Preserves holds (UserCode.raise fault : Exec σ _) := by
  unfold UserCode.raise
  split
  · exact .halt _
  · exact .pure _

/-- User code changes the world, and it may stop the execution. -/
theorem run_preserves (stable : Executor.Stable holds) (code : UserCode σ) :
    Preserves holds code.run := by
  induction code with
  | finish value => exact .pure _
  | fail fault => exact raise_preserves fault
  | hang => exact Preserves.checkpoint.bind fun _ => .halt _
  | pause next ih => exact Preserves.checkpoint.bind fun _ => ih
  | stop reason next ih =>
    exact Preserves.bind (.modify (stable.forceStop reason)) fun _ => ih
  | access change next ih =>
    exact Preserves.get.bind fun before =>
      Preserves.bind (.modify fun held => stable.world _ held) fun _ => ih _
  | renew value next ih => exact Preserves.bind (.withWorld stable _) fun renewed => ih renewed
  | takeElements value next ih =>
    rw [UserCode.run]
    refine Preserves.bind (.withWorld stable _) fun outcome => ?_
    cases outcome with
    | ok elements => exact ih elements
    | error fault => exact raise_preserves fault
  | promise body next _ ih =>
    exact Preserves.bind (.withWorld stable _) fun promise => ih promise

theorem await_preserves (stable : Executor.Stable holds) (value : Value) :
    Preserves holds (Exec.await value : Exec σ _) := by
  unfold Exec.await
  split
  · exact Preserves.map (.withWorld stable _)
  · exact .pure _
  · refine Preserves.bind (.withWorld stable _) fun code => ?_
    cases code with
    | some body => exact run_preserves stable body
    | none => exact .pure _
  · exact .pure _

theorem callResolver_preserves (stable : Executor.Stable holds) (target : Target) (parent : Value)
    (args : Entries Value) : Preserves holds (env.callResolver target parent args) := by
  unfold callResolver
  split
  · refine Preserves.bind (run_preserves stable _) fun outcome => ?_
    split
    · exact Preserves.checkpoint.bind fun _ => .pure _
    · exact .pure _
  · split
    · exact .withWorld stable _
    · refine Preserves.bind (run_preserves stable _) fun outcome => ?_
      cases outcome with
      | ok listed => exact .withWorld stable _
      | error fault => exact .pure _
  · split
    · exact .pure _
    · exact run_preserves stable _
    · exact .withWorld stable _

theorem call_preserves (stable : Executor.Stable holds) (target : Target) (parent : Value)
    (args : Entries Value) : Preserves holds (env.call target parent args) := by
  unfold call
  refine Preserves.get.bind fun executor => ?_
  refine (env.callResolver_preserves stable _ _ _).bind fun outcome => ?_
  cases outcome with
  | ok value => exact await_preserves stable value
  | error fault => exact .pure _

theorem accept_preserves (stable : Executor.Stable holds) (target : Target)
    (outcome : Except Fault Value) :
    Attempt.Preserves holds (accept target outcome : Attempt σ Value) := by
  unfold accept
  split
  · split
    · exact .halt _
    · split
      · exact .refuse _
      · exact Attempt.Preserves.bind (.report stable _) fun _ => .refuse _
  · split
    · exact .pure _
    · exact .refuse _
  · exact .pure _

/-- A resolver is called only where no stop is asked for. -/
theorem resolve_preserves (stable : Executor.Stable holds) (target : Target) (path : Path)
    (parent : Value) (args : Entries Value) :
    Attempt.Preserves holds (env.resolve target path parent args) := by
  have called : Attempt.Preserves holds (do
      let outcome ← liftM (env.call target parent args)
      accept target outcome : Attempt σ Value) :=
    Attempt.Preserves.bind (.lift (env.call_preserves stable target parent args))
      (accept_preserves stable target)
  unfold resolve
  refine Attempt.Preserves.checkpoint_bind fun before running held => ?_
  exact called _ (stable.noteCall _ running held)

end Resolution

section Completion

theorem checkType_preserves (object : ObjectType) (value : Value) :
    Attempt.Preserves holds (env.checkType object value) := by
  unfold checkType
  split
  · exact .pure _
  · split
    · split
      · exact .halt _
      · split <;> exact .refuse _
    · split
      · exact .pure _
      · exact .refuse _

theorem concreteType_preserves (stable : Executor.Stable holds) (type : TypeDefinition)
    (value : Value) : Attempt.Preserves holds (env.concreteType type value) := by
  unfold concreteType
  split
  · exact .pure _
  · refine Attempt.Preserves.bind (.report stable _) fun _ => ?_
    split
    · exact .halt _
    · exact .refuse _
    · exact .refuse _

theorem completeEnum_preserves (type : EnumType) (value : Value) :
    Attempt.Preserves holds (completeEnum type value : Attempt σ Position) := by
  unfold completeEnum
  split
  · exact .pure _
  · exact .refuse _

theorem completeScalar_preserves (type : ScalarType) (value : Value) :
    Attempt.Preserves holds (env.completeScalar type value) := by
  unfold completeScalar
  split
  · split
    · exact .halt _
    · exact .refuse _
  · split
    · exact .refuse _
    · exact .pure _

theorem itemsOf_preserves (stable : Executor.Stable holds) (target : Target) (value : Value) :
    Attempt.Preserves holds (itemsOf target value : Attempt σ (List Value)) := by
  unfold itemsOf
  split
  · exact .pure _
  · exact .pure _
  · next identity items failure _ =>
    refine Attempt.Preserves.bind (.lift (.withWorld stable _)) fun remaining => ?_
    cases failure with
    | none => exact .pure _
    | some fault => exact .raise _ _
  · exact .refuse _

theorem awaitItem_preserves (stable : Executor.Stable holds) (item : Value) :
    Attempt.Preserves holds (awaitItem item : Attempt σ Value) := by
  unfold awaitItem
  refine Attempt.Preserves.bind (.lift (await_preserves stable item)) fun outcome => ?_
  cases outcome with
  | ok value => exact .pure _
  | error fault =>
    dsimp only
    split
    · exact .halt _
    · exact .refuse _

theorem completeNull_preserves (target : Target) (required : Bool) :
    Attempt.Preserves holds (complete.completeNull target required : Attempt σ Position) := by
  unfold complete.completeNull
  split
  · exact .refuse _
  · exact .pure _

theorem checked_preserves {positionOf : α → Position} {part : Exec σ α}
    (kept : Preserves holds part) : Preserves holds (checked positionOf part) := by
  unfold checked
  refine kept.bind fun found => ?_
  split
  · exact .halt _
  · exact .pure _

theorem together_preserves {positionOf : α → Position} {parts : List (Exec σ α)}
    (kept : ∀ part ∈ parts, Preserves holds part) :
    Attempt.Preserves holds (together positionOf parts) := by
  have each : ∀ part ∈ parts.map (checked positionOf), Preserves holds part := by
    intro part member
    obtain ⟨inner, innerMember, rfl⟩ := List.mem_map.mp member
    exact checked_preserves (kept inner innerMember)
  unfold together
  refine Attempt.Preserves.bind (.lift (Preserves.siblings each).outcome) fun outcome => ?_
  unfold settleTogether
  split
  · exact .pure _
  · exact .raise _ _
  · exact .halt _

variable {execute : ObjectExecution σ}
  (inner : ∀ object parent selections path,
    Attempt.Preserves holds (execute object parent selections path))

include inner

theorem completeNamed_preserves (stable : Executor.Stable holds) (target : Target)
    (required : Bool) (name : String) (path : Path) (value : Value) :
    Attempt.Preserves holds (env.completeNamed execute target required name path value) := by
  have object : ∀ object value, Attempt.Preserves holds
      (completeObject execute target required path object value) :=
    fun object value => (inner object value _ path).map
  unfold completeNamed
  refine Attempt.Preserves.get.bind fun executor => ?_
  dsimp only
  split
  · exact .halt _
  · exact completeEnum_preserves _ _
  · exact env.completeScalar_preserves _ _
  · exact (env.checkType_preserves _ _).bind fun _ => object _ _
  · split
    · exact (env.concreteType_preserves stable _ _).bind fun found => object found _
    · exact .refuse _

/-- Completing a value preserves what executing objects does. The induction is on the type, whose
lists complete their items one by one. -/
theorem complete_preserves (stable : Executor.Stable holds) (target : Target) (ref : TypeRef)
    (path : Path) (value : Value) :
    Attempt.Preserves holds (env.complete execute target ref path value) := by
  induction ref generalizing path value with
  | named name required =>
    unfold complete
    split
    · exact completeNull_preserves _ _
    · exact env.completeNamed_preserves inner stable _ _ _ _ _
  | list item required ih =>
    unfold complete
    split
    · exact completeNull_preserves _ _
    · refine (itemsOf_preserves stable target value).bind fun items => ?_
      refine Attempt.Preserves.map (together_preserves fun part member => ?_)
      obtain ⟨index, bound, rfl⟩ := List.mem_mapIdx.mp member
      exact .position stable ((awaitItem_preserves stable _).bind fun value => ih _ value) _ _ _

theorem executeTarget_preserves (stable : Executor.Stable holds) (object : ObjectType)
    (target : Target) (parent : Value) (path : Path) :
    Preserves holds (env.executeTarget execute object target parent path) := by
  have completes := env.complete_preserves inner stable target target.field.type path
  unfold executeTarget
  refine .position stable ?_ _ _ _
  split
  · exact completes _
  · refine Attempt.Preserves.get.bind fun executor => ?_
    refine (Attempt.Preserves.ofCoercion stable _).bind fun args => ?_
    exact (env.resolve_preserves stable target path parent args).bind completes

theorem executeGroup_preserves (stable : Executor.Stable holds) (object : ObjectType)
    (parent : Value) (path : Path) (group : FieldGroup) :
    Preserves holds (env.executeGroup execute object parent path group) := by
  unfold executeGroup
  split
  · exact env.executeTarget_preserves inner stable _ _ _ _
  · exact .position stable (.refuse _) _ _ _

omit inner

theorem collectGroups_preserves (stable : Executor.Stable holds) (object : ObjectType)
    (selections : List (List Selection)) :
    Attempt.Preserves holds (env.collectGroups object selections) := by
  unfold collectGroups
  refine Attempt.Preserves.get.bind fun executor => ?_
  refine Attempt.Preserves.bind (.report stable _) fun _ => ?_
  exact (Attempt.Preserves.ofCoercion stable _).bind fun _ => .pure _

/-- Executing objects, at whatever depth they are nested. -/
theorem executeObject_preserves (stable : Executor.Stable holds) (depth : Nat)
    (object : ObjectType) (parent : Value) (selections : List (List Selection)) (path : Path) :
    Attempt.Preserves holds (env.executeObject depth object parent selections path) := by
  induction depth generalizing object parent selections path with
  | zero => exact .halt _
  | succ depth ih =>
    unfold executeObject
    refine (env.collectGroups_preserves stable _ _).bind fun groups => ?_
    refine together_preserves fun part member => ?_
    obtain ⟨group, _, rfl⟩ := List.mem_map.mp member
    exact Preserves.map (env.executeGroup_preserves ih stable _ _ _ _)

end Completion

section Root

variable (root : ObjectType)

theorem runRootField_preserves (stable : Executor.Stable holds) (group : FieldGroup) :
    Preserves holds (liftM (env.runRootField root group) : Exec σ RootOutcome) := by
  intro before held
  rw [Exec.runFrom_lift, run_runRootField]
  split
  · exact held
  · exact env.executeGroup_preserves (env.executeObject_preserves stable _) stable _ _ _ _ _ held

theorem runTogether_preserves (stable : Executor.Stable holds) (groups : List FieldGroup) :
    Preserves holds (liftM (env.runTogether root groups) : Exec σ (List RootOutcome)) := by
  induction groups with
  | nil => exact .pure _
  | cons group rest ih =>
    exact .lift_bind (env.runRootField_preserves root stable group) fun _ =>
      .lift_bind ih fun _ => .pure _

theorem runQuery_preserves (stable : Executor.Stable holds) (groups : List FieldGroup) :
    Preserves holds (liftM (env.runQuery root groups) : Exec σ (List RootOutcome)) := by
  unfold runQuery
  refine .lift_bind .get fun executor => ?_
  split
  · exact .pure _
  · refine .lift_bind (.modify (stable.start _)) fun _ => ?_
    refine .lift_bind (env.runTogether_preserves root stable groups) fun outcomes => ?_
    dsimp only
    split
    · exact .pure _
    · refine .lift_bind .get fun executor => ?_
      split
      · exact .pure _
      · split
        · exact .lift_bind (.modify (stable.timeOut _)) fun _ => .pure _
        · exact .pure _

/-- The root fields of a mutation run one after another; the induction is on those still to run. -/
theorem runMutation_preserves (stable : Executor.Stable holds) (groups : List FieldGroup) :
    Preserves holds (liftM (env.runMutation root groups) : Exec σ (List RootOutcome)) := by
  induction groups with
  | nil => exact .pure _
  | cons group rest ih =>
    unfold runMutation
    refine .lift_bind .get fun executor => ?_
    split
    · exact .pure _
    · refine .lift_bind (.modify (stable.start _)) fun _ => ?_
      refine .lift_bind (env.runRootField_preserves root stable group) fun outcome => ?_
      split
      · split
        · exact .lift_bind (.modify (stable.timeOut _)) fun _ => .pure _
        · exact .pure _
      · exact .lift_bind ih fun _ => .pure _

theorem runRootFields_preserves (stable : Executor.Stable holds) (groups : List FieldGroup) :
    Preserves holds (liftM (env.runRootFields root groups) : Exec σ (List RootOutcome)) := by
  unfold runRootFields
  split
  · exact env.runMutation_preserves root stable groups
  · exact env.runQuery_preserves root stable groups
  · exact env.runQuery_preserves root stable groups

theorem rootPosition_preserves (stable : Executor.Stable holds) (group : FieldGroup)
    (outcome : RootOutcome) : Preserves holds (env.rootPosition root group outcome) := by
  cases outcome with
  | finished position => exact .pure _
  | unfinished =>
    exact Preserves.get.bind fun executor =>
      Preserves.bind (.modify (stable.recordError _)) fun _ => .pure _
  | waiting => exact .halt _
  | escaped origin fault => exact .halt _
  | tooDeep => exact .halt _

theorem assemble_preserves (stable : Executor.Stable holds) (groups : List FieldGroup)
    (outcomes : List RootOutcome) : Preserves holds (env.assemble root groups outcomes) := by
  unfold assemble
  split
  · exact .halt _
  · split
    · exact Preserves.get.bind fun executor =>
        Preserves.bind (.modify (stable.recordError _)) fun _ => .pure _
    · have positions : Preserves holds ((groups.zip outcomes).mapM fun pair =>
          env.rootPosition root pair.1 pair.2) :=
        .mapM fun pair => env.rootPosition_preserves root stable pair.1 pair.2
      exact positions.bind fun _ => .pure _

theorem executeRoot_preserves (stable : Executor.Stable holds) :
    Preserves holds (env.executeRoot root) := by
  unfold executeRoot
  refine Preserves.bind (env.collectGroups_preserves stable _ _) fun outcome => ?_
  cases outcome with
  | error cause => exact Preserves.bind (.modify (stable.recordError _)) fun _ => .pure _
  | ok groups =>
    dsimp only
    split
    · exact .pure _
    · exact Preserves.bind (env.runRootFields_preserves root stable groups) fun outcomes =>
        env.assemble_preserves root stable groups outcomes

/-- An execution preserves what each of its changes does. -/
theorem execute_preserves (stable : Executor.Stable holds) : Preserves holds env.execute := by
  intro before held
  cases found : env.rootType? with
  | none =>
    rw [runFrom_execute_of_none found]
    exact held
  | some root =>
    have begun : holds (env.begun root before) := stable.begin (stable.report _ held)
    rw [runFrom_execute_of_some found]
    exact stable.finish (env.executeRoot_preserves root stable _ begun)

end Root

end Environment

end GraphQL
