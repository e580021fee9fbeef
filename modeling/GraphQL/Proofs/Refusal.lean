import GraphQL.Proofs.Interruption
import GraphQL.Proofs.Outcomes
import GraphQL.Proofs.Silence
import GraphQL.Proofs.Stopping

/-!
# Executions after a stop

Once a stop was asked for, nothing that is executed succeeds any more: the root fields do not begin,
and an execution that discards partial results has no data and says why. Only an operation that asks
for no field at all gets past that, as it has its data before anybody looks for a stop.
-/

namespace GraphQL

variable {σ : Type}

/-- A request to stop stops an executor, whatever it has done before. -/
theorem Executor.isStopping_forceStop (reason : String) (executor : Executor σ) :
    (executor.forceStop reason).isStopping = true := by
  unfold Executor.forceStop
  split
  · next stopping => exact stopping
  · rfl

namespace Environment

variable {env : Environment σ} {root : ObjectType} {groups : List FieldGroup}
  {before after executor later : Executor σ}

variable (env) in
/-- The executors to which more executions and requests to stop lead from one on. -/
inductive LeadsTo (executor : Executor σ) : Executor σ → Prop where
  | refl : LeadsTo executor executor
  | stopped {later : Executor σ} (reason : String) :
      LeadsTo executor later → LeadsTo executor (later.forceStop reason)
  | executed {later : Executor σ} :
      LeadsTo executor later → LeadsTo executor (env.execute.runFrom later).2

/-- Stops are for good, whatever follows. -/
theorem LeadsTo.isStopping (leads : env.LeadsTo executor later)
    (stopping : executor.isStopping = true) : later.isStopping = true := by
  induction leads with
  | refl => exact stopping
  | stopped reason _ _ => exact Executor.isStopping_forceStop reason _
  | executed _ ih => exact env.execute_preserves Executor.stable_isStopping _ ih

/-- The root fields that an operation asks for are collected, or the one error is that they cannot
be; neither records an error yet, or changes the phase. -/
theorem rootGroups_cases (accepted : env.registry.Accepted) (root : ObjectType)
    (before : Executor σ) :
    ∃ middle outcome, env.rootGroups root before = (.ok outcome, middle) ∧
      middle.errors = before.errors ∧ middle.isStopping = before.isStopping ∧
      env.groups? root [env.request.operation.selections] = outcome.toOption := by
  rcases found : (env.collection before.world root).collectAll
    [env.request.operation.selections] with ⟨stop | _, collected⟩
  · obtain ⟨failure, rfl⟩ := exists_failed_of_collectAll accepted (congrArg Prod.fst found)
    refine ⟨_, .error (.coercion failure), runFrom_collectGroups found, rfl, rfl, ?_⟩
    cases given : env.groups? root [env.request.operation.selections] with
    | none => rfl
    | some groups =>
      obtain ⟨_, collects, _⟩ := exists_collectAll_of_groups? given accepted before.world
      cases found.symm.trans collects
  · have collects : env.Collects root [env.request.operation.selections] collected.groups :=
      ⟨before.world, congrArg Prod.fst found, by rw [found]⟩
    exact ⟨_, .ok collected.groups, runFrom_collectGroups found, rfl, rfl,
      collects.groups? accepted⟩

/-- After a stop no root field begins. -/
theorem run_runRootFields_of_isStopping (stopping : before.isStopping = true) :
    (env.runRootFields root groups).run before = (groups.map fun _ => .unfinished, before) := by
  have query : (env.runQuery root groups).run before =
      (groups.map fun _ => .unfinished, before) := by
    rw [run_runQuery, if_pos stopping]
  unfold runRootFields
  split
  · cases groups with
    | nil => rfl
    | cons group rest => rw [run_runMutation_cons, if_pos stopping]
  · exact query
  · exact query

/-- After a stop an operation that asks for root fields, or for fields that cannot be collected, has
no data, and one more error is recorded. -/
theorem executeRoot_of_isStopping (accepted : env.registry.Accepted)
    (discarding : env.request.settings.partialResults = false)
    (asks : env.groups? root [env.request.operation.selections] ≠ some [])
    (stopping : before.isStopping = true) :
    ∃ error middle, (env.executeRoot root).runFrom before =
        (.ok .null, Executor.recordError error middle) ∧
      middle.errors = before.errors := by
  obtain ⟨middle, outcome, collected, errors, phase, given⟩ := rootGroups_cases accepted root before
  cases outcome with
  | error cause =>
    refine ⟨{ cause }, middle, ?_, errors⟩
    unfold rootGroups at collected
    unfold executeRoot
    rw [Exec.runFrom_bind_ok collected]
    rfl
  | ok groups =>
    have some : groups ≠ [] := by
      rintro rfl
      exact asks given
    refine ⟨{ cause := middle.interruption env.request.settings }, middle, ?_, errors⟩
    rw [runFrom_executeRoot collected some
      (run_runRootFields_of_isStopping (phase.trans stopping))]
    refine runFrom_assemble_of_discarding ?_ ?_ discarding
    · intro outcome member
      obtain ⟨group, _, rfl⟩ := List.mem_map.mp member
      rfl
    · obtain ⟨group, member⟩ := List.exists_mem_of_ne_nil groups some
      exact List.mem_map_of_mem member

/-- A stopped executor never reports success: once a stop was asked for, every execution, however
many came before it, gives no data, and adds an error to those that its result shows. It is taken
that partial results are not wanted and that the operation does not ask for nothing at all. -/
theorem stopped_never_succeeds (accepted : env.registry.Accepted)
    (found : env.rootType? = some root)
    (discarding : env.request.settings.partialResults = false)
    (asks : env.groups? root [env.request.operation.selections] ≠ some [])
    (reason : String) (leads : env.LeadsTo (executor.forceStop reason) later) :
    ∃ result after error, env.execute.runFrom later = (.ok result, after) ∧
      result.data = .null ∧ after.errors = later.errors ++ [error] ∧
      result.errors = after.errors.map after.world.settle := by
  have stopping := leads.isStopping (Executor.isStopping_forceStop reason executor)
  have begun : (env.begun root later).isStopping = true :=
    Executor.stable_isStopping.begin (Executor.stable_isStopping.report _ stopping)
  obtain ⟨error, middle, ran, errors⟩ :=
    executeRoot_of_isStopping accepted discarding asks begun
  refine ⟨resultOf (middle.recordError error).finish .null, (middle.recordError error).finish,
    error, ?_, rfl, ?_, rfl⟩
  · rw [runFrom_execute_of_some found, ran]
    rfl
  · show middle.errors ++ [error] = _
    rw [errors]
    rfl

/-- An operation that asks for no field has its data, stopped or not, and nothing is recorded. -/
theorem execute_of_asking_nothing (accepted : env.registry.Accepted)
    (found : env.rootType? = some root)
    (nothing : env.groups? root [env.request.operation.selections] = some []) :
    ∃ result after, env.execute.runFrom before = (.ok result, after) ∧
      result.data = .object [] ∧ after.errors = before.errors := by
  obtain ⟨middle, outcome, collected, errors, _, given⟩ :=
    rootGroups_cases accepted root (env.begun root before)
  rw [nothing] at given
  cases outcome with
  | error cause => cases given
  | ok groups =>
    cases given
    have ran : (env.executeRoot root).runFrom (env.begun root before) =
        (.ok (.object []), middle) := by
      unfold rootGroups at collected
      unfold executeRoot
      rw [Exec.runFrom_bind_ok collected]
      rfl
    refine ⟨resultOf middle.finish (.object []), middle.finish, ?_, rfl, errors⟩
    rw [runFrom_execute_of_some found, ran]
    rfl

/-- A query for some of the fields that are served. -/
def askingFor (selections : List Selection) : Environment Unit where
  registry := servedRegistry
  behaviour := servedBehaviour .hang (.finish (.str "fine"))
  request := { operation := { selections } }

/-- A query for a text. -/
def askingForText : Environment Unit :=
  askingFor [.field "ok" none [] [] none []]

/-- Nothing has been executed, and then a stop is asked for. -/
def stoppedAtOnce : Executor Unit :=
  Executor.forceStop "user" { world := { user := () } }

/-- After a stop the query for a text fails, and when it is executed again it fails once more. -/
theorem stopped_never_succeeds_again :
    servedRegistry.Accepted ∧
      ∃ result after, askingForText.execute.runFrom (askingForText.execute.runFrom
          stoppedAtOnce).2 = (.ok result, after) ∧
        result.data = .null ∧ result.errors.length = 2 := by
  have asks : askingForText.groups? servedQuery
      [askingForText.request.operation.selections] ≠ some [] := nofun
  have again : askingForText.LeadsTo stoppedAtOnce
      (askingForText.execute.runFrom stoppedAtOnce).2 := .executed .refl
  obtain ⟨result, after, error, ran, data, added, shown⟩ :=
    stopped_never_succeeds accepted_servedRegistry rfl rfl asks "user" again
  refine ⟨accepted_servedRegistry, result, after, ran, data, ?_⟩
  rw [shown, added]
  rfl

/-- After a stop a query for nothing has data, and no errors. -/
theorem stopped_succeeds_for_nothing :
    servedRegistry.Accepted ∧ (askingFor []).rootType? = some servedQuery ∧
      (askingFor []).request.settings.partialResults = false ∧
      ∃ after, (askingFor []).execute.runFrom stoppedAtOnce =
          (.ok { data := .object [], errors := [] }, after) ∧ after.phase = .stopped :=
  ⟨accepted_servedRegistry, rfl, rfl, _, rfl, rfl⟩

end Environment

end GraphQL
