import GraphQL.Execution
import GraphQL.Proofs.Run

/-!
# Parts that note nothing

Of all parts of an execution only a position records errors, and only resolving a field notes a
call. User code, awaiting, hooks, conversions and collecting fields leave both lists alone.
-/

namespace GraphQL

variable {σ α β : Type}

namespace Exec

/-- A part that records no error and notes no call, whatever becomes of it. -/
def IsQuiet (part : Exec σ α) : Prop :=
  ∀ before, (part.runFrom before).2.errors = before.errors ∧
    (part.runFrom before).2.calls = before.calls

namespace IsQuiet

variable {part : Exec σ α} {next : α → Exec σ β}

protected theorem pure (result : α) : IsQuiet (pure result : Exec σ α) :=
  fun _ => ⟨rfl, rfl⟩

protected theorem halt (why : Halt) : IsQuiet (Exec.halt why : Exec σ α) :=
  fun _ => ⟨rfl, rfl⟩

protected theorem bind (quiet : IsQuiet part) (goesOn : ∀ result, IsQuiet (next result)) :
    IsQuiet (part >>= next) := by
  intro before
  have first := quiet before
  rcases ran : part.runFrom before with ⟨why | result, after⟩
  · rw [ran] at first
    rw [runFrom_bind_error ran]
    exact first
  · rw [ran] at first
    rw [runFrom_bind_ok ran]
    obtain ⟨errors, calls⟩ := goesOn result after
    exact ⟨errors.trans first.1, calls.trans first.2⟩

theorem map {change : α → β} (quiet : IsQuiet part) : IsQuiet (change <$> part) := by
  intro before
  rw [runFrom_map]
  exact quiet before

protected theorem get : IsQuiet (get : Exec σ (Executor σ)) :=
  fun _ => ⟨rfl, rfl⟩

protected theorem modify {change : Executor σ → Executor σ}
    (leaves : ∀ executor, (change executor).errors = executor.errors ∧
      (change executor).calls = executor.calls) :
    IsQuiet (modify change : Exec σ PUnit) :=
  fun before => leaves before

protected theorem withWorld (change : World σ → α × World σ) : IsQuiet (withWorld change) :=
  fun _ => ⟨rfl, rfl⟩

theorem checkpoint : IsQuiet (Exec.checkpoint : Exec σ Unit) := by
  intro before
  rw [runFrom_checkpoint]
  exact ⟨rfl, rfl⟩

end IsQuiet

end Exec

/-- An attempt that records no error and notes no call, also where it fails. -/
abbrev Attempt.IsQuiet (attempt : Attempt σ α) : Prop :=
  Exec.IsQuiet attempt.run

namespace Attempt.IsQuiet

variable {attempt : Attempt σ α} {next : α → Attempt σ β}

protected theorem pure (result : α) : Attempt.IsQuiet (pure result : Attempt σ α) :=
  Exec.IsQuiet.pure _

theorem refuse (cause : FailureCause) : Attempt.IsQuiet (Attempt.refuse cause : Attempt σ α) :=
  Exec.IsQuiet.pure _

protected theorem bind (quiet : Attempt.IsQuiet attempt)
    (goesOn : ∀ result, Attempt.IsQuiet (next result)) : Attempt.IsQuiet (attempt >>= next) := by
  unfold Attempt.IsQuiet
  rw [ExceptT.run_bind]
  refine Exec.IsQuiet.bind quiet fun outcome => ?_
  cases outcome with
  | ok result => exact goesOn result
  | error cause => exact .pure _

theorem lift {part : Exec σ α} (quiet : part.IsQuiet) :
    Attempt.IsQuiet (liftM part : Attempt σ α) := by
  unfold Attempt.IsQuiet
  rw [Exec.run_liftM]
  exact quiet.map

protected theorem halt (why : Halt) : Attempt.IsQuiet (Attempt.halt why : Attempt σ α) :=
  lift (.halt why)

protected theorem get : Attempt.IsQuiet (get : Attempt σ (Executor σ)) :=
  lift .get

theorem report (records : List LogRecord) :
    Attempt.IsQuiet (Attempt.report records : Attempt σ Unit) :=
  lift (.modify fun _ => ⟨rfl, rfl⟩)

theorem raise (origin : FaultOrigin) (fault : Fault) :
    Attempt.IsQuiet (Attempt.raise origin fault : Attempt σ α) := by
  unfold Attempt.raise
  split
  · exact .halt _
  · split
    · exact refuse _
    · exact .halt _

theorem ofCoercion (coercion : Coercion α) :
    Attempt.IsQuiet (Attempt.ofCoercion coercion : Attempt σ α) := by
  unfold Attempt.ofCoercion
  refine Attempt.IsQuiet.bind (report _) fun _ => ?_
  split
  · exact .pure _
  · exact refuse _
  · exact .halt _
  · exact .halt _
  · exact .halt _

end Attempt.IsQuiet

namespace Environment

open Exec (IsQuiet)

variable (env : Environment σ)

theorem raise_quiet (fault : Fault) : IsQuiet (UserCode.raise fault : Exec σ _) := by
  unfold UserCode.raise
  split
  · exact .halt _
  · exact .pure _

theorem run_quiet (code : UserCode σ) : IsQuiet code.run := by
  induction code with
  | finish value => exact .pure _
  | fail fault => exact raise_quiet fault
  | hang => exact Exec.IsQuiet.checkpoint.bind fun _ => .halt _
  | pause next ih => exact Exec.IsQuiet.checkpoint.bind fun _ => ih
  | stop reason next ih =>
    refine Exec.IsQuiet.bind (.modify fun executor => ?_) fun _ => ih
    unfold Executor.forceStop
    split <;> exact ⟨rfl, rfl⟩
  | access change next ih =>
    exact Exec.IsQuiet.get.bind fun before =>
      Exec.IsQuiet.bind (.modify fun _ => ⟨rfl, rfl⟩) fun _ => ih _
  | renew value next ih => exact Exec.IsQuiet.bind (.withWorld _) fun renewed => ih renewed
  | takeElements value next ih =>
    rw [UserCode.run]
    refine Exec.IsQuiet.bind (.withWorld _) fun outcome => ?_
    cases outcome with
    | ok elements => exact ih elements
    | error fault => exact raise_quiet fault
  | promise body next _ ih => exact Exec.IsQuiet.bind (.withWorld _) fun promise => ih promise

theorem await_quiet (value : Value) : IsQuiet (Exec.await value : Exec σ _) := by
  unfold Exec.await
  split
  · exact Exec.IsQuiet.map (.withWorld _)
  · exact .pure _
  · refine Exec.IsQuiet.bind (.withWorld _) fun code => ?_
    cases code with
    | some body => exact run_quiet body
    | none => exact .pure _
  · exact .pure _

theorem callResolver_quiet (target : Target) (parent : Value) (args : Entries Value) :
    IsQuiet (env.callResolver target parent args) := by
  unfold callResolver
  split
  · refine Exec.IsQuiet.bind (run_quiet _) fun outcome => ?_
    split
    · exact Exec.IsQuiet.checkpoint.bind fun _ => .pure _
    · exact .pure _
  · split
    · exact .withWorld _
    · refine Exec.IsQuiet.bind (run_quiet _) fun outcome => ?_
      cases outcome with
      | ok listed => exact .withWorld _
      | error fault => exact .pure _
  · split
    · exact .pure _
    · exact run_quiet _
    · exact .withWorld _

theorem call_quiet (target : Target) (parent : Value) (args : Entries Value) :
    IsQuiet (env.call target parent args) := by
  unfold call
  refine Exec.IsQuiet.get.bind fun executor => ?_
  refine (env.callResolver_quiet _ _ _).bind fun outcome => ?_
  cases outcome with
  | ok value => exact await_quiet value
  | error fault => exact .pure _

theorem accept_quiet (target : Target) (outcome : Except Fault Value) :
    Attempt.IsQuiet (accept target outcome : Attempt σ Value) := by
  unfold accept
  split
  · split
    · exact .halt _
    · split
      · exact .refuse _
      · exact Attempt.IsQuiet.bind (.report _) fun _ => .refuse _
  · split
    · exact .pure _
    · exact .refuse _
  · exact .pure _

theorem checkType_quiet (object : ObjectType) (value : Value) :
    Attempt.IsQuiet (env.checkType object value) := by
  unfold checkType
  split
  · exact .pure _
  · split
    · split
      · exact .halt _
      · split <;> exact .refuse _
    · split
      · exact .pure _
      · exact .refuse _

theorem concreteType_quiet (type : TypeDefinition) (value : Value) :
    Attempt.IsQuiet (env.concreteType type value) := by
  unfold concreteType
  split
  · exact .pure _
  · refine Attempt.IsQuiet.bind (.report _) fun _ => ?_
    split
    · exact .halt _
    · exact .refuse _
    · exact .refuse _

theorem completeEnum_quiet (type : EnumType) (value : Value) :
    Attempt.IsQuiet (completeEnum type value : Attempt σ Position) := by
  unfold completeEnum
  split
  · exact .pure _
  · exact .refuse _

theorem completeScalar_quiet (type : ScalarType) (value : Value) :
    Attempt.IsQuiet (env.completeScalar type value) := by
  unfold completeScalar
  split
  · split
    · exact .halt _
    · exact .refuse _
  · split
    · exact .refuse _
    · exact .pure _

theorem itemsOf_quiet (target : Target) (value : Value) :
    Attempt.IsQuiet (itemsOf target value : Attempt σ (List Value)) := by
  unfold itemsOf
  split
  · exact .pure _
  · exact .pure _
  · next identity items failure _ =>
    refine Attempt.IsQuiet.bind (.lift (.withWorld _)) fun remaining => ?_
    cases failure with
    | none => exact .pure _
    | some fault => exact .raise _ _
  · exact .refuse _

theorem awaitItem_quiet (item : Value) :
    Attempt.IsQuiet (awaitItem item : Attempt σ Value) := by
  unfold awaitItem
  refine Attempt.IsQuiet.bind (.lift (await_quiet item)) fun outcome => ?_
  cases outcome with
  | ok value => exact .pure _
  | error fault =>
    dsimp only
    split
    · exact .halt _
    · exact .refuse _

theorem collectGroups_quiet (object : ObjectType) (selections : List (List Selection)) :
    Attempt.IsQuiet (env.collectGroups object selections) := by
  unfold collectGroups
  refine Attempt.IsQuiet.get.bind fun executor => ?_
  refine Attempt.IsQuiet.bind (.report _) fun _ => ?_
  exact (Attempt.IsQuiet.ofCoercion _).bind fun _ => .pure _

end Environment

end GraphQL
