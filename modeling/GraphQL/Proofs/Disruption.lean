import GraphQL.Proofs.Spoiling

/-!
# Fields that fail under other user code

A field, or a position in it, may fail under other user code and otherwise leave an executor as it
would be. Then the objects around it differ in the positions that failed alone.
-/

namespace GraphQL

variable {σ : Type}

open Position

namespace Environment

variable (env : Environment σ) (behaviour : Behaviour σ)

/-- The same request and registry under other user code. -/
def running : Environment σ :=
  { env with behaviour }

theorem running_registry : (env.running behaviour).registry = env.registry :=
  rfl

theorem running_request : (env.running behaviour).request = env.request :=
  rfl

/-- Under other user code a field does the same, but for what the objects in it do. -/
def Spares (target : Target) : Prop :=
  ∀ execute object parent path,
    (env.running behaviour).executeTarget execute object target parent path =
      env.executeTarget execute object target parent path

/-- Under other user code a field, or a position in it, fails instead of having its value. What is
shared stays as it would be otherwise. -/
def Disrupts (target : Target) : Prop :=
  ∀ depth object parent path,
    Exec.Mirrors Spoils
      (env.executeTarget (env.executeObject depth) object target parent path)
      ((env.running behaviour).executeTarget ((env.running behaviour).executeObject depth)
        object target parent path)

/-- Under other user code some fields of registered object types fail, and the others do the
same. -/
structure Differs : Prop where
  collecting : ∀ object selections,
    (env.running behaviour).collectGroups object selections = env.collectGroups object selections
  fields : ∀ object group field, env.registry.type? object.name = some (.object object) →
    env.registry.field? (.object object) group.first.name = some field →
    env.Spares behaviour ⟨object.name, field, group⟩ ∨
      env.Disrupts behaviour ⟨object.name, field, group⟩

variable {env behaviour} {object : ObjectType}

section

variable (hooks : behaviour.hook = env.behaviour.hook)
  (conversions : behaviour.convert = env.behaviour.convert)

include hooks conversions

end

theorem Differs.executeGroup (differs : env.Differs behaviour) {depth : Nat}
    (alike : env.ExecuteAlike (env.executeObject depth)
      ((env.running behaviour).executeObject depth))
    (registered : env.registry.type? object.name = some (.object object)) (parent : Value)
    (path : Path) (group : FieldGroup) :
    Exec.Mirrors Spoils
      (env.executeGroup (env.executeObject depth) object parent path group)
      ((env.running behaviour).executeGroup ((env.running behaviour).executeObject depth)
        object parent path group) := by
  unfold Environment.executeGroup
  rw [running_registry]
  cases found : env.registry.field? (.object object) group.first.name with
  | none => exact .position (.refuse _)
  | some field =>
    rcases differs.fields object group field registered found with spared | disrupted
    · dsimp only
      rw [spared]
      exact executeTarget_mirrors alike _ _ _ _
    · exact disrupted depth object parent path

/-- Objects differ in the positions that failed alone. The induction is on how deeply they may still
be nested. -/
theorem Differs.executeObject (differs : env.Differs behaviour) (depth : Nat) :
    env.ExecuteAlike (env.executeObject depth) ((env.running behaviour).executeObject depth) := by
  induction depth with
  | zero => exact fun _ _ _ _ _ => .halt .tooDeep
  | succ depth ih =>
    intro object parent selections path registered
    unfold Environment.executeObject
    rw [differs.collecting]
    refine (env.collectGroups_blind object selections).bind_blind fun groups => ?_
    have each : ∀ group ∈ groups, Exec.Mirrors EntrySpoils
        ((group.key, ·) <$> env.executeGroup (env.executeObject depth) object parent
          (path ++ [.key group.key]) group)
        ((group.key, ·) <$> (env.running behaviour).executeGroup
          ((env.running behaviour).executeObject depth) object parent
          (path ++ [.key group.key]) group) :=
      fun group _ => Exec.Mirrors.map
        ((differs.executeGroup ih registered parent _ group).mono fun _ _ spoiled => ⟨rfl, spoiled⟩)
    refine (together_mirrors (forall₂_map each) fun _ _ spoiled => spoiled.2.fault?_eq).mono ?_
    exact fun _ _ spoiled => fieldsSpoil_of_forall₂ spoiled

end Environment

end GraphQL
