import GraphQL.Proofs.Conditions
import GraphQL.Proofs.Interfaces
import GraphQL.Proofs.Steadiness

/-!
# Fields that come to the same again

What is asked of user code and of the values it gives, so that a field comes to the same whatever
was executed before it. Two values are compared, as a resolver may make its value anew in each call:
they have to be null together, to belong to the same object type, and to give items and fields of
which the same is true in turn. So much is asked of the fields that are selected, and no more.
-/

namespace GraphQL

variable {σ : Type}

/-- What a value of a named type turns out to be: a leaf, or an object whose fields are executed. -/
inductive Head where
  | leaf (position : Position)
  | object (type : ObjectType) (value : Value)

namespace Environment

variable (env : Environment σ)

/-- What a value of a named type turns out to be, as conversions and hooks say. -/
def head (name : String) (value : Value) : Attempt σ Head := do
  let value := (← get).world.settleValue value
  match env.registry.type? name with
  | none => Attempt.halt (.escaped .registry { kind := .typeNotFound, message := name })
  | some (.enum type) => .leaf <$> completeEnum type value
  | some (.scalar type) => .leaf <$> env.completeScalar type value
  | some (.object object) => do
    env.checkType object value
    pure (.object object value)
  | some type =>
    if type.isAbstract then do
      let object ← env.concreteType type value
      pure (.object object value)
    else Attempt.refuse (.unexpectedType type)

/-- The position of what a value turned out to be. -/
def completeHead (execute : ObjectExecution σ) (target : Target) (required : Bool) (path : Path) :
    Head → Attempt σ Position
  | .leaf position => pure position
  | .object object value => completeObject execute target required path object value

variable {env}

theorem completeNamed_eq (execute : ObjectExecution σ) (target : Target) (required : Bool)
    (name : String) (path : Path) (value : Value) :
    env.completeNamed execute target required name path value =
      env.head name value >>= completeHead execute target required path := by
  have leaf : ∀ attempt : Attempt σ Position,
      (Head.leaf <$> attempt) >>= completeHead execute target required path = attempt := by
    intro attempt
    rw [map_eq_pure_bind, bind_assoc]
    simp only [pure_bind, completeHead, bind_pure]
  unfold completeNamed head
  rw [bind_assoc]
  refine bind_congr fun executor => ?_
  dsimp only
  cases env.registry.type? name with
  | none => rfl
  | some type =>
    cases type with
    | enum type => exact (leaf _).symm
    | scalar type => exact (leaf _).symm
    | object object =>
      dsimp only
      rw [bind_assoc]
      simp only [pure_bind, completeHead]
    | _ =>
      dsimp only
      split
      · rw [bind_assoc]
        simp only [pure_bind, completeHead]
      · rfl

/-! ## Values, items and fields -/

variable (usual : World σ → Prop)

section Positions

open Position

variable {usual} {target : Target} {below : ObjectType → Value → Value → Prop}
  {execute other : ObjectExecution σ} {one two : Executor σ}

variable {object : ObjectType} {parent likewise : Value} {group : FieldGroup}
  {inside : FieldGroup → ObjectType → Value → Value → Prop}

end Positions

end Environment

end GraphQL
