import GraphQL.Execution
import GraphQL.Proofs.Mirroring

/-!
# What a value depends on

The code of a resolver, awaiting what it gives, the hooks and the conversions of a position read no
errors, no calls and no reports. What they give depends on the shared part of an executor alone.
-/

namespace GraphQL

variable {σ : Type}

namespace Environment

open Exec (IsBlind)

variable (env : Environment σ)

theorem raise_blind (fault : Fault) : IsBlind (UserCode.raise fault : Exec σ _) := by
  unfold UserCode.raise
  split
  · exact .halt .cancelled
  · exact .pure rfl

theorem takeElements_blind (value : Value) :
    IsBlind (Exec.withWorld (World.takeElements · value) :
      Exec σ (Except Fault (Option (List Value)))) := by
  refine .withWorld fun world => ?_
  unfold World.takeElements
  split
  · next failure _ =>
    cases failure with
    | none => exact ⟨rfl, rfl⟩
    | some fault => exact ⟨rfl, rfl⟩
  · exact ⟨rfl, rfl⟩

/-- User code sees of an executor only what is shared. -/
theorem run_blind (code : UserCode σ) : IsBlind code.run := by
  induction code with
  | finish value => exact .pure rfl
  | fail fault => exact raise_blind fault
  | hang => exact Exec.Mirrors.checkpoint.bind_blind fun _ => .halt .hung
  | pause next ih => exact Exec.Mirrors.checkpoint.bind_blind fun _ => ih
  | stop reason next ih =>
    exact (Exec.Mirrors.modify (Executor.shared_forceStop reason)).bind_blind fun _ => ih
  | access change next ih =>
    refine Exec.Mirrors.get.bind fun one two same => ?_
    have users := Executor.user_of_shared same
    dsimp only
    rw [users]
    exact Exec.Mirrors.bind_blind (.modify fun _ => rfl) fun _ => ih _
  | renew value next ih =>
    refine Exec.Mirrors.bind_blind (.withWorld fun _ => ⟨rfl, rfl⟩) fun renewed => ?_
    exact ih renewed
  | takeElements value next ih =>
    rw [UserCode.run]
    refine (takeElements_blind value).bind_blind fun outcome => ?_
    cases outcome with
    | ok elements => exact ih elements
    | error fault => exact raise_blind fault
  | promise body next _ ih =>
    refine Exec.Mirrors.bind_blind (.withWorld fun _ => ⟨rfl, rfl⟩) fun promise => ?_
    exact ih promise

theorem await_blind (value : Value) : IsBlind (Exec.await value : Exec σ _) := by
  unfold Exec.await
  split
  · exact Exec.Mirrors.map (Exec.Mirrors.mono (.withWorld fun _ => ⟨rfl, rfl⟩)
      fun _ _ same => congrArg _ same)
  · exact .pure rfl
  · refine Exec.Mirrors.bind_blind (.withWorld fun _ => ⟨rfl, rfl⟩) fun code => ?_
    cases code with
    | some body => exact run_blind body
    | none => exact .pure rfl
  · exact .pure rfl

theorem inspect_blind (inspection : Introspector.Inspection Value) :
    IsBlind (Exec.inspect inspection : Exec σ _) :=
  .withWorld fun _ => ⟨rfl, rfl⟩

theorem callMethod_blind (method : EngineMethod) (args : Entries Value) :
    IsBlind (Exec.callMethod method args : Exec σ _) := by
  refine .withWorld fun world => ?_
  rcases method.call args with ⟨outcome, _ | changed⟩
  · exact ⟨rfl, rfl⟩
  · unfold World.keepPlace
    dsimp only
    split
    · exact ⟨rfl, rfl⟩
    · exact ⟨rfl, rfl⟩

theorem runResolver_blind (handle : Handle) (parent : Value) (args : Entries Value) :
    IsBlind (env.runResolver handle parent args) := by
  unfold runResolver
  refine (run_blind _).bind_blind fun outcome => ?_
  cases env.request.settings.threads with
  | true => exact Exec.Mirrors.checkpoint.bind_blind fun _ => .pure rfl
  | false => exact .pure rfl

theorem callResolver_blind (target : Target) (parent : Value) (args : Entries Value) :
    IsBlind (env.callResolver target parent args) := by
  unfold callResolver
  split
  · exact env.runResolver_blind _ _ _
  · split
    · exact inspect_blind _
    · refine (run_blind _).bind_blind fun outcome => ?_
      cases outcome with
      | ok listed => exact inspect_blind _
      | error fault => exact .pure rfl
  · split
    · exact .pure rfl
    · exact run_blind _
    · exact callMethod_blind _ _

theorem call_blind (target : Target) (parent : Value) (args : Entries Value) :
    IsBlind (env.call target parent args) := by
  unfold call
  refine Exec.Mirrors.get.bind fun one two same => ?_
  dsimp only
  rw [Executor.settleValue_of_shared same]
  refine (env.callResolver_blind _ _ _).bind_blind fun outcome => ?_
  cases outcome with
  | ok value => exact await_blind value
  | error fault => exact .pure rfl

theorem accept_blind (target : Target) (outcome : Except Fault Value) :
    Attempt.IsBlind (accept target outcome : Attempt σ Value) := by
  unfold accept
  split
  · split
    · exact .halt .cancelled
    · split
      · exact .refuse _
      · exact Attempt.Mirrors.bind_blind (.report _) fun _ => .refuse _
  · split
    · exact .pure rfl
    · exact .refuse _
  · exact .pure rfl

/-- The value of a field does not depend on what other fields recorded. -/
theorem resolve_blind (target : Target) (path : Path) (parent : Value) (args : Entries Value) :
    Attempt.IsBlind (env.resolve target path parent args) := by
  unfold resolve
  refine Attempt.Mirrors.bind_blind (.lift .checkpoint) fun _ => ?_
  refine Attempt.Mirrors.bind_blind (.modify fun _ => rfl) fun _ => ?_
  refine Attempt.Mirrors.bind_blind (.lift (env.call_blind target parent args)) fun outcome => ?_
  exact accept_blind target outcome

theorem checkType_blind (object : ObjectType) (value : Value) :
    Attempt.IsBlind (env.checkType object value) := by
  unfold checkType
  split
  · exact .pure rfl
  · split
    · split
      · exact .halt .cancelled
      · split
        · exact .refuse _
        · exact .refuse _
    · split
      · exact .pure rfl
      · exact .refuse _

theorem completeEnum_blind (type : EnumType) (value : Value) :
    Attempt.IsBlind (completeEnum type value : Attempt σ Position) := by
  unfold completeEnum
  split
  · exact .pure rfl
  · exact .refuse _

theorem completeScalar_blind (type : ScalarType) (value : Value) :
    Attempt.IsBlind (env.completeScalar type value) := by
  unfold completeScalar
  split
  · split
    · exact .halt .cancelled
    · exact .refuse _
  · split
    · exact .refuse _
    · exact .pure rfl

theorem itemsOf_blind (target : Target) (value : Value) :
    Attempt.IsBlind (itemsOf target value : Attempt σ (List Value)) := by
  unfold itemsOf
  split
  · exact .pure rfl
  · exact .pure rfl
  · next identity items failure _ =>
    refine Attempt.Mirrors.bind_blind (.lift (.withWorld fun _ => ⟨rfl, rfl⟩)) fun remaining => ?_
    cases failure with
    | none => exact .pure rfl
    | some fault => exact .raise _ _
  · exact .refuse _

theorem awaitItem_blind (item : Value) : Attempt.IsBlind (awaitItem item : Attempt σ Value) := by
  unfold awaitItem
  refine Attempt.Mirrors.bind_blind (.lift (await_blind item)) fun outcome => ?_
  cases outcome with
  | ok value => exact .pure rfl
  | error fault =>
    dsimp only
    split
    · exact .halt .cancelled
    · exact .refuse _

theorem completeNull_blind (target : Target) (required : Bool) :
    Attempt.IsBlind (complete.completeNull target required : Attempt σ Position) := by
  unfold complete.completeNull
  split
  · exact .refuse _
  · exact .pure rfl

/-- Which fields are selected on an object does not depend on what was recorded. -/
theorem collectGroups_blind (object : ObjectType) (selections : List (List Selection)) :
    Attempt.IsBlind (env.collectGroups object selections) := by
  unfold collectGroups
  refine Attempt.Mirrors.get.bind fun one two same => ?_
  have context : env.collection one.world object = env.collection two.world object := by
    unfold collection
    rw [Executor.settleValue_of_shared same]
  dsimp only
  rw [context]
  refine Attempt.Mirrors.bind_blind (.report _) fun _ => ?_
  exact (Attempt.Mirrors.ofCoercion _).bind_blind fun _ => .pure rfl

end Environment

end GraphQL
