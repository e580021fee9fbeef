import GraphQL.Proofs.Root

/-!
# Whole executions

What an execution does to an executor, whether it gives a result or halts: the errors that it adds
belong below the root, and its data is assembled from its root fields.
-/

namespace GraphQL

variable {σ : Type}

namespace Environment

variable {env : Environment σ} {root : ObjectType} {waits : Prop}

/-- An operation without a root type has no data, and leaves the executor as it is. -/
theorem runFrom_execute_of_none (missing : env.rootType? = none) (before : Executor σ) :
    env.execute.runFrom before =
      (.ok { data := .null, errors := [{ cause := .noRoot env.request.operation.kind }] },
        before) := by
  unfold execute
  rw [missing]
  rfl

/-- The result of an execution, from the data and the executor at its end. -/
def resultOf (executor : Executor σ) (data : Response) : ExecutionResult where
  data := data
  errors := executor.errors.map executor.world.settle

/-- An operation with a root type is executed on it. -/
theorem runFrom_execute_of_some (found : env.rootType? = some root) (before : Executor σ) :
    env.execute.runFrom before =
      (((env.executeRoot root).runFrom (env.begun root before)).1.map
          (resultOf ((env.executeRoot root).runFrom (env.begun root before)).2.finish),
        ((env.executeRoot root).runFrom (env.begun root before)).2.finish) := by
  unfold execute
  rw [found]
  refine (Exec.runFrom_bind_ok (Exec.runFrom_modify _ before)).trans ?_
  rw [Exec.runFrom_bind_ok (Exec.runFrom_outcome _ _)]
  rcases (env.executeRoot root).runFrom (env.begun root before) with ⟨why | data, after⟩
  · rfl
  · rfl

/-- What an execution on a root type does. -/
theorem execute_delivers (found : env.rootType? = some root) (mayWait : env.Waits → waits)
    {before : Executor σ} (waiting : before.world.Waits → waits) :
    ∃ noted, env.Keeps root waits [] before noted (env.execute.runFrom before).2 ∧
      env.Delivers root waits (fun noted result => env.Executed root waits noted result.data)
        noted (env.execute.runFrom before).1 := by
  obtain ⟨noted, kept, outcome⟩ := executeRoot_meets mayWait (env.begun root before) waiting
  rw [runFrom_execute_of_some found]
  refine ⟨noted, ⟨kept.errors, kept.under, kept.warranted, kept.waiting⟩, ?_⟩
  cases ran : ((env.executeRoot root).runFrom (env.begun root before)).1 with
  | error why =>
    rw [ran] at outcome
    exact outcome
  | ok data =>
    rw [ran] at outcome
    exact outcome

end Environment

end GraphQL
