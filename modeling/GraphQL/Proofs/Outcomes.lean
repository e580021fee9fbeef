import GraphQL.Proofs.Coercion
import GraphQL.Proofs.Conditions
import GraphQL.Proofs.Execution
import GraphQL.Proofs.Nesting

/-!
# How executions end

An execution ends with a result, unless user code waits forever, a coercion or fragments lead back
into themselves, or a fault escapes that no position takes. Such a fault was raised by an iterable
while its items were taken, or is itself a completed value.
-/

namespace GraphQL

variable {σ α β : Type}

namespace Exec

/-- A part does not end because the root field is abandoned. -/
def Persists (part : Exec σ α) : Prop :=
  ∀ before, (part.runFrom before).1 ≠ .error .cancelled

namespace Persists

protected theorem pure (result : α) : (pure result : Exec σ α).Persists :=
  fun _ => nofun

protected theorem get : (get : Exec σ (Executor σ)).Persists :=
  fun _ => nofun

protected theorem modify (change : Executor σ → Executor σ) :
    (modify change : Exec σ PUnit).Persists :=
  fun _ => nofun

theorem lift (part : StateM (Executor σ) α) : (liftM part : Exec σ α).Persists :=
  fun _ => nofun

protected theorem halt {why : Halt} (other : why ≠ .cancelled) :
    (Exec.halt why : Exec σ α).Persists := by
  intro before halted
  cases halted
  exact other rfl

protected theorem bind {part : Exec σ α} {next : α → Exec σ β} (first : part.Persists)
    (goesOn : ∀ result, (next result).Persists) : (part >>= next).Persists := by
  intro before halted
  rcases ran : part.runFrom before with ⟨why | result, middle⟩
  · rw [runFrom_bind_error ran] at halted
    cases halted
    exact first before (congrArg Prod.fst ran)
  · rw [runFrom_bind_ok ran] at halted
    exact goesOn result middle halted

protected theorem mapM {part : α → Exec σ β} (each : ∀ item, (part item).Persists)
    (items : List α) : (items.mapM part).Persists := by
  induction items with
  | nil => exact .pure []
  | cons item rest ih =>
    rw [List.mapM_cons]
    exact (each item).bind fun _ => ih.bind fun _ => .pure _

end Persists

end Exec

namespace Environment

variable {env : Environment σ} {root object : ObjectType}

/-- Collecting the fields of an object, from what their selections give. -/
theorem runFrom_collectGroups {selections : List (List Selection)} {before : Executor σ}
    {outcome : Except CoercionStop Unit} {collected : Collected}
    (found : (env.collection before.world object).collectAll selections = (outcome, collected)) :
    Exec.runFrom (env.collectGroups object selections).run before =
      Exec.runFrom (do
        Attempt.report collected.records
        let () ← Attempt.ofCoercion ⟨outcome, []⟩
        pure collected.groups : Attempt σ (List FieldGroup)).run before := by
  unfold collectGroups
  have looked :
      Exec.runFrom (get : Attempt σ (Executor σ)).run before = (.ok (.ok before), before) := rfl
  rw [ExceptT.run_bind, Exec.runFrom_bind_ok looked]
  dsimp only
  rw [found]

/-- Collecting the fields of an object does not abandon the root field. -/
theorem persists_collectGroups (accepted : env.registry.Accepted)
    (selections : List (List Selection)) :
    Exec.Persists (env.collectGroups object selections).run := by
  intro before halted
  rcases found : (env.collection before.world object).collectAll selections with
    ⟨stop | _, collected⟩
  · have outcome : ((env.collection before.world object).collectAll selections).1 = .error stop :=
      congrArg Prod.fst found
    obtain ⟨failure, rfl⟩ := exists_failed_of_collectAll accepted outcome
    rw [runFrom_collectGroups found] at halted
    cases halted
  · rw [runFrom_collectGroups found] at halted
    cases halted

/-- Assembling a root field does not abandon it. -/
theorem persists_rootPosition (group : FieldGroup) (outcome : RootOutcome) :
    Exec.Persists (env.rootPosition root group outcome : Exec σ _) := by
  cases outcome with
  | finished position => exact .pure _
  | unfinished =>
    exact Exec.Persists.get.bind fun _ => (Exec.Persists.modify _).bind fun _ => .pure _
  | waiting => exact .halt nofun
  | escaped origin fault => exact .halt nofun
  | tooDeep => exact .halt nofun

/-- Assembling root fields abandons none of them. -/
theorem persists_assemble (groups : List FieldGroup) (outcomes : List RootOutcome) :
    Exec.Persists (env.assemble root groups outcomes : Exec σ _) := by
  unfold assemble
  split
  · exact .halt nofun
  · split
    · exact Exec.Persists.get.bind fun _ => (Exec.Persists.modify _).bind fun _ => .pure _
    · exact (Exec.Persists.mapM (fun (pair : FieldGroup × RootOutcome) =>
        persists_rootPosition pair.1 pair.2) _).bind
        fun _ => .pure _

/-- An operation is never abandoned as a whole, although its root fields may be. -/
theorem persists_executeRoot (accepted : env.registry.Accepted) :
    Exec.Persists (env.executeRoot root) := by
  unfold executeRoot
  refine (persists_collectGroups accepted _).bind fun outcome => ?_
  cases outcome with
  | error cause => exact (Exec.Persists.modify _).bind fun _ => .pure _
  | ok groups =>
    dsimp only
    split
    · exact .pure _
    · exact (Exec.Persists.lift _).bind fun outcomes => persists_assemble groups outcomes

variable (env root) in
/-- Why an execution gives no result. -/
inductive Ends (before : Executor σ) : Halt → Prop where
  /-- User code waits forever. -/
  | hung : env.Waits ∨ before.world.Waits → Ends before .hung
  /-- A fault that is not made for fields escaped from an iterable or as a completed value. -/
  | escaped {origin : FaultOrigin} {fault : Fault} :
      origin = .iteration ∨ origin = .completion → fault.kind.isCancellation = false →
      fault.kind.isFieldError = false → Ends before (.escaped origin fault)
  /-- Coercing the arguments of a field does not terminate. -/
  | arguments {level : Nat} {object : ObjectType} {group : FieldGroup} {field : Field}
      {world : World σ} :
      env.Visits root level object group field →
      ((env.coercion world).coerceArguments defaultCoercionDepth field.args
        group.first.arguments).outcome = .error .tooDeep →
      Ends before .tooDeep
  /-- Fragments lead back into themselves. -/
  | fragments : ¬ env.Acyclic → Ends before .tooDeep

/-- The object types that an execution may come to are registered. -/
theorem Encounters.registered {level : Nat} {selections : List (List Selection)}
    (found : env.rootType? = some root)
    (encountered : env.Encounters root level object selections) :
    env.registry.type? object.name = some (.object object) := by
  cases encountered with
  | root => exact registered_of_rootType? found
  | inside _ _ _ _ admitted => exact admitted.registered

/-- The type and the arguments of a field that an execution may come to are registered. -/
theorem Visits.closed {level : Nat} {group : FieldGroup} {field : Field}
    (accepted : env.registry.Accepted) (found : env.rootType? = some root)
    (visited : env.Visits root level object group field) :
    (env.registry.type? field.type.name).isSome = true ∧
      ∀ arg ∈ field.args, (env.registry.type? arg.type.name).isSome = true := by
  obtain ⟨selections, groups, encountered, _, _⟩ := visited.reached
  exact accepted.field_closed (Registry.mem_of_type? (encountered.registered found)) visited.found

/-- Where the registry is accepted, the reasons to halt leave few that end an execution. -/
theorem ends_of_mayHalt (accepted : env.registry.Accepted) (found : env.rootType? = some root)
    {before : Executor σ} {why : Halt} (other : why ≠ .cancelled)
    (reason : env.MayHalt root (env.Waits ∨ before.world.Waits) why) :
    env.Ends root before why := by
  cases reason with
  | cancelled => exact absurd rfl other
  | hung waiting => exact .hung waiting
  | @escaped origin fault mine running ordinary =>
    refine .escaped ?_ running ordinary
    cases origin with
    | iteration => exact Or.inl rfl
    | completion => exact Or.inr rfl
    | registry => exact absurd rfl mine
  | unregistered visited missing =>
    have known := (visited.closed accepted found).1
    rw [missing] at known
    cases known
  | @arguments level object group field world stop _ visited stopped ends =>
    cases stop with
    | failed failure => cases ends
    | unknownType name =>
      have leads : ∀ arg ∈ field.args, (env.coercion world).Leads arg.type :=
        (visited.closed accepted found).2
      exact absurd stopped (CoercionContext.knowsTypes_coerceArguments accepted leads _ _ name)
    | interrupted fault =>
      cases ends
      exact absurd rfl other
    | tooDeep =>
      cases ends
      exact .arguments visited stopped
  | collection encountered stopped ends =>
    obtain ⟨failure, rfl⟩ := exists_failed_of_collectAll accepted stopped
    cases ends
  | nesting encountered deep =>
    refine .fragments fun acyclic => ?_
    exact absurd (encountered.level_le acyclic) (Nat.not_le.mpr deep)

/-- An execution on an accepted registry gives a result, unless it ends for one of few reasons. -/
theorem ends_of_execute (accepted : env.registry.Accepted) {before after : Executor σ} {why : Halt}
    (ran : env.execute.runFrom before = (.error why, after)) :
    ∃ root, env.rootType? = some root ∧ env.Ends root before why := by
  cases found : env.rootType? with
  | none =>
    rw [runFrom_execute_of_none found] at ran
    cases ran
  | some root =>
    have waiting : before.world.Waits → env.Waits ∨ before.world.Waits := Or.inr
    obtain ⟨noted, _, outcome⟩ := execute_delivers found Or.inl waiting
    rw [ran] at outcome
    refine ⟨root, rfl, ends_of_mayHalt accepted found ?_ outcome⟩
    rintro rfl
    rw [runFrom_execute_of_some found] at ran
    have persists :
        ((env.executeRoot root).runFrom (env.begun root before)).1 ≠ .error .cancelled :=
      persists_executeRoot accepted (env.begun root before)
    rcases executed : (env.executeRoot root).runFrom (env.begun root before) with
      ⟨why | data, ended⟩
    · rw [executed] at ran persists
      cases ran
      exact persists rfl
    · rw [executed] at ran
      cases ran

end Environment

end GraphQL
