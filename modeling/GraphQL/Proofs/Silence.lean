import GraphQL.Proofs.Repetition
import GraphQL.Proofs.Invariants

/-!
# Parts without a call

Only resolving a field calls a resolver. Collecting fields, finding out what a value turns out to
be, taking the items of a list and assembling the data of root fields call none; and like every part
of an execution they do not take back a stop.
-/

namespace GraphQL

variable {σ α β : Type}

/-- A step from one executor to another calls no resolver and does not take back a stop. -/
structure Executor.Hush (before after : Executor σ) : Prop where
  calls : after.calls = before.calls
  stays : before.isStopping = true → after.isStopping = true

namespace Executor.Hush

protected theorem refl (executor : Executor σ) : executor.Hush executor :=
  ⟨rfl, id⟩

theorem trans {before middle after : Executor σ} (first : before.Hush middle)
    (second : middle.Hush after) : before.Hush after :=
  ⟨second.calls.trans first.calls, second.stays ∘ first.stays⟩

theorem recordError (error : FieldError) (executor : Executor σ) :
    executor.Hush (executor.recordError error) :=
  ⟨rfl, id⟩

theorem forceStop (reason : String) (executor : Executor σ) :
    executor.Hush (executor.forceStop reason) := by
  unfold Executor.forceStop
  split
  · exact ⟨rfl, id⟩
  · exact ⟨rfl, fun _ => rfl⟩

theorem timeOut (running : Nat) (executor : Executor σ) :
    executor.Hush (executor.timeOut running) := by
  have reported : executor.Hush (executor.reportText .debug ("STOP_TRACE: Timed out with " ++
      toString running ++ " root fields still running")) := ⟨rfl, id⟩
  exact reported.trans (forceStop "timeout" _)

theorem begin (executor : Executor σ) : executor.Hush executor.begin := by
  refine ⟨rfl, fun stopping => ?_⟩
  unfold Executor.begin
  rw [stopping]
  exact stopping

theorem finish (executor : Executor σ) : executor.Hush executor.finish := by
  refine ⟨rfl, fun stopping => ?_⟩
  unfold Executor.finish
  rw [stopping]
  rfl

end Executor.Hush

/-- Whatever an execution does to an executor leaves it stopped. -/
theorem Executor.stable_isStopping :
    Executor.Stable (fun executor : Executor σ => executor.isStopping = true) where
  world _ stopping := stopping
  recordError _ stopping := stopping
  start _ stopping := stopping
  noteCall _ _ stopping := stopping
  forceStop reason stopping := (Executor.Hush.forceStop reason _).stays stopping
  begin stopping := (Executor.Hush.begin _).stays stopping
  finish stopping := (Executor.Hush.finish _).stays stopping

/-- A part that calls no resolver, whatever becomes of it. -/
def Exec.IsSilent (part : Exec σ α) : Prop :=
  ∀ before : Executor σ, before.Hush (part.runFrom before).2

namespace Exec.IsSilent

variable {part : Exec σ α} {next : α → Exec σ β}

theorem of_quiet (quiet : part.IsQuiet)
    (kept : part.Preserves fun executor => executor.isStopping = true) : part.IsSilent :=
  fun before => ⟨(quiet before).2, kept before⟩

protected theorem pure (result : α) : (pure result : Exec σ α).IsSilent :=
  fun before => .refl before

protected theorem halt (why : Halt) : (Exec.halt why : Exec σ α).IsSilent :=
  fun before => .refl before

protected theorem get : (get : Exec σ (Executor σ)).IsSilent :=
  fun before => .refl before

protected theorem bind (first : part.IsSilent) (goesOn : ∀ result, (next result).IsSilent) :
    (part >>= next).IsSilent := by
  intro before
  have here := first before
  rcases ran : part.runFrom before with ⟨why | result, middle⟩
  · rw [ran] at here
    rw [runFrom_bind_error ran]
    exact here
  · rw [ran] at here
    rw [runFrom_bind_ok ran]
    exact here.trans (goesOn result middle)

theorem map {change : α → β} (silent : part.IsSilent) : (change <$> part).IsSilent := by
  intro before
  rw [runFrom_map]
  exact silent before

theorem record (error : FieldError) :
    (modify (Executor.recordError error) : Exec σ PUnit).IsSilent :=
  fun before => .recordError error before

protected theorem mapM {items : List α} {part : α → Exec σ β}
    (silent : ∀ item, (part item).IsSilent) : (items.mapM part).IsSilent := by
  induction items with
  | nil => exact .pure _
  | cons item rest ih =>
    rw [List.mapM_cons]
    exact (silent item).bind fun _ => ih.bind fun _ => .pure _

end Exec.IsSilent

/-- An attempt that calls no resolver, also where it fails. -/
abbrev Attempt.IsSilent (attempt : Attempt σ α) : Prop :=
  Exec.IsSilent attempt.run

namespace Attempt.IsSilent

variable {attempt : Attempt σ α} {next : α → Attempt σ β}

theorem refuse (cause : FailureCause) : (Attempt.refuse cause : Attempt σ α).IsSilent :=
  Exec.IsSilent.pure _

protected theorem bind (first : attempt.IsSilent) (goesOn : ∀ result, (next result).IsSilent) :
    (attempt >>= next).IsSilent := by
  unfold Attempt.IsSilent
  rw [ExceptT.run_bind]
  refine Exec.IsSilent.bind first fun outcome => ?_
  cases outcome with
  | ok result => exact goesOn result
  | error cause => exact .pure _

theorem map {change : α → β} (silent : attempt.IsSilent) : (change <$> attempt).IsSilent := by
  unfold Attempt.IsSilent
  rw [ExceptT.run_map]
  exact Exec.IsSilent.map silent

end Attempt.IsSilent

/-- An attempt that succeeds in two steps succeeds in each of them. -/
theorem Attempt.exists_of_runFrom_bind {attempt : Attempt σ α} {next : α → Attempt σ β}
    {before after : Executor σ} {result : β}
    (ran : Exec.runFrom (attempt >>= next).run before = (.ok (.ok result), after)) :
    ∃ value middle, Exec.runFrom attempt.run before = (.ok (.ok value), middle) ∧
      Exec.runFrom (next value).run middle = (.ok (.ok result), after) := by
  rw [ExceptT.run_bind] at ran
  obtain ⟨outcome, middle, first, second⟩ := Exec.exists_of_runFrom_bind ran
  cases outcome with
  | ok value => exact ⟨value, middle, first, second⟩
  | error cause => cases second

/-- An attempt that looks at the executor first. -/
theorem Attempt.runFrom_get_bind (next : Executor σ → Attempt σ α) (before : Executor σ) :
    Exec.runFrom (get >>= next).run before = Exec.runFrom (next before).run before :=
  rfl

namespace Environment

variable {env : Environment σ}

open Executor (stable_isStopping)

/-- What a value of a named type turns out to be is an object of a type that the name admits. -/
theorem canBe_of_head {name : String} {value inner : Value} {object : ObjectType}
    {before after : Executor σ} (ran : Exec.runFrom (env.head name value).run before =
      (.ok (.ok (.object object inner)), after)) : env.registry.CanBe name object := by
  have leaf : ∀ {attempt : Attempt σ Position} {before : Executor σ},
      Exec.runFrom (Head.leaf <$> attempt).run before ≠
        (.ok (.ok (.object object inner)), after) := by
    intro attempt before ran
    rw [map_eq_pure_bind] at ran
    obtain ⟨_, _, _, ended⟩ := Attempt.exists_of_runFrom_bind ran
    cases ended
  unfold head at ran
  obtain ⟨_, _, looked, ran⟩ := Attempt.exists_of_runFrom_bind ran
  cases looked
  dsimp only at ran
  split at ran
  · cases ran
  · exact absurd ran leaf
  · exact absurd ran leaf
  · next type registered =>
    obtain ⟨_, _, _, ended⟩ := Attempt.exists_of_runFrom_bind ran
    cases ended
    exact Or.inl registered
  · next type _ _ _ registered =>
    split at ran
    · next abstract =>
      obtain ⟨found, _, decided, ended⟩ := Attempt.exists_of_runFrom_bind ran
      cases ended
      unfold concreteType at decided
      split at decided
      · next resolved =>
        cases decided
        exact AbstractType.canBe_of_resolve_eq_ok registered abstract resolved
      · obtain ⟨_, _, _, ended⟩ := Attempt.exists_of_runFrom_bind decided
        split at ended <;> cases ended
    · cases ran

end Environment

end GraphQL
