import GraphQL.Proofs.Nesting
import GraphQL.Proofs.Outcomes
import GraphQL.Proofs.Repetition
import GraphQL.Proofs.Serialization

/-!
# User code that gives the same again

The plainest way for fields to come to the same again: what a resolver gives follows from the parent
and the arguments, its values are there at once and can be read more than once, and error objects
are made anew where they are raised. Then every field that an execution comes to repeats, as long as
no error object has got its place.
-/

namespace GraphQL

variable {σ : Type}

/-- No error object that is stored has got its place. -/
def World.IsFresh (world : World σ) : Prop :=
  world.located = []

/-- A fault that fails a position and is not stored. -/
structure Fault.Passes (fault : Fault) : Prop where
  anew : fault.identity = none
  ordinary : fault.kind.isCancellation = false

/-- Whether a value is there at once. -/
def Value.isAtHand (value : Value) : Bool :=
  match value.bare with
  | .pending _ | .failing _ | .promise _ => false
  | _ => true

/-- Whether a value is no error object, is there at once and can be read more than once. -/
def Value.isLasting (value : Value) : Bool :=
  match value.bare with
  | .fault _ | .stream .. | .pending _ | .failing _ | .promise _ => false
  | _ => true

theorem Value.isAtHand_of_isLasting {value : Value} (lasts : value.isLasting = true) :
    value.isAtHand = true := by
  unfold isLasting at lasts
  unfold isAtHand
  cases bare : value.bare with
  | pending | failing | promise =>
    rw [bare] at lasts
    cases lasts
  | _ => rfl

/-! ## Fresh worlds -/

theorem World.IsFresh.settleValue {world : World σ} (fresh : world.IsFresh) :
    world.settleValue = id := by
  funext value
  unfold World.settleValue
  rw [show world.located = [] from fresh]
  rfl

namespace Environment

variable {env : Environment σ} {world start : World σ}

end Environment

namespace Executor.Ready

variable {before : Executor σ}

theorem settleValue (ready : before.Ready World.IsFresh) (value : Value) :
    before.world.settleValue value = value := by
  have fresh : before.world.IsFresh := ready.world
  exact congrFun fresh.settleValue value

end Executor.Ready

namespace AbstractType

variable {α : Type} {registry : Registry} {answer : Handle → Value → Except Fault Value}
  {value : Value}

end AbstractType

/-! ## Steady user code -/

namespace Environment

variable (env : Environment σ)

variable {env} {root : ObjectType} {lasting : Value → Prop} {one two : Executor σ}
  {target : Target} {below : ObjectType → Value → Value → Prop} {value : Value}

/-- What is there at once is not awaited. -/
theorem await_of_isAtHand (there : value.isAtHand = true) :
    (Exec.await value : Exec σ (Except Fault Value)) = pure (.ok value) := by
  unfold Value.isAtHand at there
  unfold Exec.await
  cases bare : value.bare with
  | pending | failing | promise =>
    rw [bare] at there
    cases there
  | _ => rfl

theorem awaitItem_of_isLasting (lasts : value.isLasting = true) :
    (awaitItem value : Attempt σ Value) = pure value := by
  unfold awaitItem
  rw [await_of_isAtHand (Value.isAtHand_of_isLasting lasts)]
  rfl

variable {outcome : Except Fault Value} {before : Executor σ} {parent : Value}
  {args : Entries Value}

variable {object : ObjectType} {group : FieldGroup} {level depth : Nat}

end Environment

end GraphQL
