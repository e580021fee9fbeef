import GraphQL.Proofs.Gathering
import GraphQL.Proofs.NullPropagation

/-!
# Interrupted executions

A stop, or the end of the time, may leave root fields unfinished: some never began, others were
abandoned. The execution has a result all the same, and the errors recorded so far stay. Without
partial results its data is null, for one more error that has no path. With them an unfinished
field is null, for an error at its place, and every other field has the data it finished with; the
whole data is null where one of the fields has to leave none.
-/

namespace GraphQL

variable {σ : Type}

/-- Whether a root field finished, or was merely kept from that. -/
def RootOutcome.isSettled : RootOutcome → Bool
  | finished _ | unfinished => true
  | waiting | escaped .. | tooDeep => false

/-! ## Recording several errors -/

namespace Executor

variable {executor : Executor σ} {error : FieldError} {errors : List FieldError}

/-- Records errors, one after another. -/
def recordErrors (errors : List FieldError) (executor : Executor σ) : Executor σ :=
  errors.foldl (fun before error => before.recordError error) executor

theorem recordErrors_append (first second : List FieldError) :
    executor.recordErrors (first ++ second) =
      (executor.recordErrors first).recordErrors second :=
  List.foldl_append

@[simp] theorem errors_recordErrors :
    (executor.recordErrors errors).errors = executor.errors ++ errors := by
  induction errors generalizing executor with
  | nil => exact (List.append_nil _).symm
  | cons error rest ih =>
    refine ih.trans ?_
    show (executor.errors ++ [error]) ++ rest = _
    rw [List.append_assoc, List.singleton_append]

@[simp] theorem interruption_recordErrors (settings : Settings) :
    (executor.recordErrors errors).interruption settings = executor.interruption settings := by
  induction errors generalizing executor with
  | nil => rfl
  | cons error rest ih => exact ih

/-- Recording an error that user code did not give leaves others as they show. -/
theorem settle_recordError (made : error.cause.given? = none) :
    (executor.recordError error).world.settle = executor.world.settle := by
  unfold recordError World.keepError
  rw [made]
  rfl

theorem settle_recordErrors (made : ∀ error ∈ errors, error.cause.given? = none) :
    (executor.recordErrors errors).world.settle = executor.world.settle := by
  induction errors generalizing executor with
  | nil => rfl
  | cons error rest ih =>
    obtain ⟨first, others⟩ := List.forall_mem_cons.mp made
    exact (ih others).trans (settle_recordError first)

/-- What interrupts an execution is nothing that user code gave. -/
theorem given?_interruption (settings : Settings) :
    (executor.interruption settings).given? = none := by
  unfold interruption
  split <;> rfl

end Executor

/-- An error that user code did not give shows as it was recorded. -/
theorem World.settle_of_made {world : World σ} {error : FieldError}
    (made : error.cause.given? = none) : world.settle error = error := by
  unfold World.settle
  split
  · next fault given =>
    rw [given] at made
    cases made
  · rfl

/-! ## Data of fields -/

namespace Position

/-- Fields have no data exactly where one of them has none. -/
theorem fieldResponses?_eq_none_iff {fields : List (String × Position)} :
    fieldResponses? fields = none ↔ ∃ field ∈ fields, field.2.response? = none := by
  induction fields with
  | nil => simp [fieldResponses?]
  | cons field rest ih =>
    obtain ⟨key, position⟩ := field
    rw [fieldResponses?, List.exists_mem_cons_iff, ← ih]
    cases position.response? with
    | none => simp
    | some response => cases fieldResponses? rest <;> simp

/-- The data of fields has that of each under its key. -/
theorem forall₂_of_fieldResponses? {fields : List (String × Position)}
    {entries : List (String × Response)} (shown : fieldResponses? fields = some entries) :
    List.Forall₂ (fun field entry => entry.1 = field.1 ∧ field.2.response? = some entry.2)
      fields entries := by
  induction fields generalizing entries with
  | nil =>
    cases shown
    exact .nil
  | cons field rest ih =>
    obtain ⟨key, position⟩ := field
    rw [fieldResponses?] at shown
    split at shown
    · next first others =>
      cases shown
      exact .cons ⟨rfl, first⟩ (ih others)
    · cases shown

end Position

namespace Environment

variable {env : Environment σ} {root : ObjectType} {group : FieldGroup}
  {groups : List FieldGroup} {outcome : RootOutcome} {outcomes : List RootOutcome}
  {fields : List (FieldGroup × RootOutcome)} {cause : FailureCause} {before during : Executor σ}

/-! ## Unfinished root fields -/

/-- The error of a root field that was not finished. -/
def unfinishedError (cause : FailureCause) (group : FieldGroup) : FieldError where
  cause := cause
  path := some (rootPath group)
  locations := group.locations

/-- The errors of those root fields that were not finished. -/
def unfinishedErrors (cause : FailureCause) (fields : List (FieldGroup × RootOutcome)) :
    List FieldError :=
  (fields.filter (isUnfinished ·.2)).map (unfinishedError cause ·.1)

variable (env root) in
/-- A root field has to leave no data: its type excludes null and it was not finished, or it
finished by propagating null. -/
inductive LeavesNoData (group : FieldGroup) : RootOutcome → Prop where
  | unfinished : env.rootRequired root group = true → LeavesNoData group .unfinished
  | propagated {position : Position} :
      position.response? = none → LeavesNoData group (.finished position)

/-- The data of a root field: null if it was not finished, otherwise what it was completed to. -/
inductive Leaves : RootOutcome → Response → Prop where
  | unfinished : Leaves .unfinished .null
  | finished {position : Position} {data : Response} :
      position.response? = some data → Leaves (.finished position) data

variable (env root) in
/-- The data of root fields, some of which were not finished. -/
structure IsPartialData (fields : List (FieldGroup × RootOutcome)) (data : Response) : Prop where
  null_iff : data = .null ↔ ∃ field ∈ fields, env.LeavesNoData root field.1 field.2
  entries : data ≠ .null → ∃ entries, data = .object entries ∧
    List.Forall₂ (fun field entry => entry.1 = field.1.key ∧ Leaves field.2 entry.2)
      fields entries

variable (env root) in
/-- The position of a root field, which fails if it was not finished. -/
def settledPosition (cause : FailureCause) (group : FieldGroup) : RootOutcome → Position
  | .finished position => position
  | _ => .failed (env.rootRequired root group) (unfinishedError cause group)

theorem response?_settledPosition_eq_none_iff (settled : outcome.isSettled = true) :
    (env.settledPosition root cause group outcome).response? = none ↔
      env.LeavesNoData root group outcome := by
  cases outcome with
  | finished position =>
    constructor
    · exact .propagated
    · rintro ⟨⟩
      assumption
  | unfinished =>
    show Response.lost _ = none ↔ _
    unfold Response.lost
    constructor
    · intro lost
      split at lost
      · next required => exact .unfinished required
      · cases lost
    · rintro ⟨required⟩
      rw [if_pos required]
  | waiting | escaped | tooDeep => cases settled

theorem leaves_of_response? {data : Response} (settled : outcome.isSettled = true)
    (shown : (env.settledPosition root cause group outcome).response? = some data) :
    Leaves outcome data := by
  cases outcome with
  | finished position => exact .finished shown
  | unfinished =>
    change Response.lost _ = some data at shown
    unfold Response.lost at shown
    split at shown
    · cases shown
    · cases shown
      exact .unfinished
  | waiting | escaped | tooDeep => cases settled

/-- The data of the positions of root fields, where unfinished ones have failed. -/
theorem isPartialData_rootResponse (settled : ∀ field ∈ fields, field.2.isSettled = true) :
    env.IsPartialData root fields (Position.rootResponse
      (fields.map fun field => (field.1.key, env.settledPosition root cause field.1 field.2))) := by
  have lost : Position.fieldResponses? (fields.map fun field =>
        (field.1.key, env.settledPosition root cause field.1 field.2)) = none ↔
      ∃ field ∈ fields, env.LeavesNoData root field.1 field.2 := by
    rw [Position.fieldResponses?_eq_none_iff]
    constructor
    · rintro ⟨_, member, none⟩
      obtain ⟨field, among, rfl⟩ := List.mem_map.mp member
      exact ⟨field, among, (response?_settledPosition_eq_none_iff (settled field among)).mp none⟩
    · rintro ⟨field, among, leaves⟩
      exact ⟨_, List.mem_map_of_mem among,
        (response?_settledPosition_eq_none_iff (settled field among)).mpr leaves⟩
  unfold Position.rootResponse
  cases shown : Position.fieldResponses? (fields.map fun field =>
      (field.1.key, env.settledPosition root cause field.1 field.2)) with
  | none => exact ⟨⟨fun _ => lost.mp shown, fun _ => rfl⟩, fun some => absurd rfl some⟩
  | some entries =>
    rw [shown] at lost
    refine ⟨⟨nofun, fun none => nomatch lost.mpr none⟩, fun _ => ⟨entries, rfl, ?_⟩⟩
    have each := List.forall₂_map_left_iff.mp (Position.forall₂_of_fieldResponses? shown)
    refine forall₂_imp_of_mem each fun field among entry _ shows => ?_
    exact ⟨shows.1, leaves_of_response? (settled field among) shows.2⟩

/-! ## Assembling -/

theorem unfinishedErrors_cons (field : FieldGroup × RootOutcome)
    (fields : List (FieldGroup × RootOutcome)) :
    unfinishedErrors cause (field :: fields) =
      unfinishedErrors cause [field] ++ unfinishedErrors cause fields := by
  unfold unfinishedErrors
  rw [← List.map_append, ← List.filter_append, List.singleton_append]

/-- A root field that was not finished is recorded as such and fails. -/
theorem runFrom_rootPosition (settled : outcome.isSettled = true)
    (same : before.interruption env.request.settings = cause) :
    (env.rootPosition root group outcome).runFrom before =
      (.ok (group.key, env.settledPosition root cause group outcome),
        before.recordErrors (unfinishedErrors cause [(group, outcome)])) := by
  subst same
  cases outcome with
  | finished position => rfl
  | unfinished => rfl
  | waiting | escaped | tooDeep => cases settled

/-- Every root field gets its position, one after another; the cause stays the same. -/
theorem runFrom_rootPositions (settled : ∀ field ∈ fields, field.2.isSettled = true)
    (same : before.interruption env.request.settings = cause) :
    (fields.mapM fun field => env.rootPosition root field.1 field.2).runFrom before =
      (.ok (fields.map fun field => (field.1.key, env.settledPosition root cause field.1 field.2)),
        before.recordErrors (unfinishedErrors cause fields)) := by
  induction fields generalizing before with
  | nil => rfl
  | cons field rest ih =>
    obtain ⟨first, others⟩ := List.forall_mem_cons.mp settled
    rw [List.mapM_cons, Exec.runFrom_bind_ok (runFrom_rootPosition first same),
      Exec.runFrom_bind_ok (ih others ((Executor.interruption_recordErrors _).trans same)),
      unfinishedErrors_cons field rest, Executor.recordErrors_append]
    rfl

theorem any_isWaiting_of_isSettled (settled : ∀ outcome ∈ outcomes, outcome.isSettled = true) :
    outcomes.any isWaiting = false := by
  rw [List.any_eq_false]
  intro outcome member waits
  have comes := settled outcome member
  cases outcome with
  | waiting => cases comes
  | finished | unfinished | escaped | tooDeep => cases waits

/-- Without partial results one error is recorded for all that was not finished. -/
theorem runFrom_assemble_of_discarding (settled : ∀ outcome ∈ outcomes, outcome.isSettled = true)
    (unfinished : .unfinished ∈ outcomes)
    (discarding : env.request.settings.partialResults = false) :
    (env.assemble root groups outcomes).runFrom before =
      (.ok .null,
        before.recordErrors [{ cause := before.interruption env.request.settings }]) := by
  have some : outcomes.any isUnfinished = true := List.any_eq_true.mpr ⟨_, unfinished, rfl⟩
  unfold assemble
  rw [any_isWaiting_of_isSettled settled, some, discarding]
  rfl

/-- With partial results every root field gets its position. -/
theorem runFrom_assemble_of_partial (settled : ∀ outcome ∈ outcomes, outcome.isSettled = true)
    (wanted : env.request.settings.partialResults = true) :
    (env.assemble root groups outcomes).runFrom before =
      (.ok (Position.rootResponse ((groups.zip outcomes).map fun field => (field.1.key,
          env.settledPosition root (before.interruption env.request.settings) field.1 field.2))),
        before.recordErrors (unfinishedErrors (before.interruption env.request.settings)
          (groups.zip outcomes))) := by
  have each : ∀ field ∈ groups.zip outcomes, field.2.isSettled = true :=
    fun field member => settled field.2 (List.of_mem_zip member).2
  unfold assemble
  rw [any_isWaiting_of_isSettled settled, wanted]
  simp only [Bool.false_eq_true, if_false, Bool.not_true, Bool.and_false]
  rw [Exec.runFrom_bind_ok (runFrom_rootPositions each rfl)]
  rfl

/-! ## Whole executions -/

variable (env root) in
/-- What an execution comes to in the end whose root fields, or some of them, were not finished: its
data, and the errors that it adds for that. -/
structure IsInterrupted (groups : List FieldGroup) (outcomes : List RootOutcome)
    (cause : FailureCause) (data : Response) (added : List FieldError) : Prop where
  discarding : env.request.settings.partialResults = false →
    data = .null ∧ added = [{ cause }]
  keeping : env.request.settings.partialResults = true →
    env.IsPartialData root (groups.zip outcomes) data ∧
      added = unfinishedErrors cause (groups.zip outcomes)

theorem RootsFit.length {waits : Prop} {noted : List FieldError}
    (fit : env.RootsFit root waits groups noted outcomes) : outcomes.length = groups.length := by
  induction groups generalizing noted outcomes with
  | nil =>
    obtain ⟨rfl, rfl⟩ := fit
    rfl
  | cons group rest ih =>
    obtain ⟨_, _, _, others, rfl, rfl, _, restFit⟩ := fit
    exact congrArg (· + 1) (ih restFit)

/-- Root fields that were collected run one by one, and only add errors. -/
theorem run_runRootFields_adds {middle : Executor σ}
    (collected : env.rootGroups root before = (.ok (.ok groups), middle))
    (ran : (env.runRootFields root groups).run middle = (outcomes, during)) :
    outcomes.length = groups.length ∧ before.errors <+: during.errors := by
  obtain ⟨collects, same⟩ := collects_rootGroups collected
  have reached : ∀ group ∈ groups, env.Reaches root 0 root group := fun group member =>
    ⟨_, groups, .root, collects, member⟩
  have met : env.Meets root True [] (liftM (env.runRootFields root groups))
      (env.RootsFit root True groups) := runRootFields_meets (fun _ => trivial) reached
  obtain ⟨noted, kept, fit⟩ := met middle fun _ => trivial
  rw [Exec.runFrom_lift, ran] at kept fit
  exact ⟨RootsFit.length fit, noted, by rw [kept.errors, same]⟩

/-- Root fields that were collected are run, and then assembled. -/
theorem runFrom_executeRoot {middle : Executor σ}
    (collected : env.rootGroups root before = (.ok (.ok groups), middle)) (some : groups ≠ [])
    (ran : (env.runRootFields root groups).run middle = (outcomes, during)) :
    (env.executeRoot root).runFrom before = (env.assemble root groups outcomes).runFrom during := by
  unfold rootGroups at collected
  unfold executeRoot
  rw [Exec.runFrom_bind_ok collected]
  dsimp only
  rw [if_neg fun empty => some (List.isEmpty_iff.mp empty)]
  have lifted : Exec.runFrom (liftM (env.runRootFields root groups)) middle =
      (.ok outcomes, during) := by
    rw [Exec.runFrom_lift, ran]
  exact Exec.runFrom_bind_ok lifted

/-- An execution some of whose root fields were not finished has a result. Whatever became of the
others, it adds one error without a path, and its data is null; or with partial results it adds an
error at the place of each unfinished field, and its data shows every root field, unless one of them
has to leave none. The errors recorded before all of that stay as they are. -/
theorem execute_interrupted {middle : Executor σ} (found : env.rootType? = some root)
    (collected : env.rootGroups root (env.begun root before) = (.ok (.ok groups), middle))
    (ran : (env.runRootFields root groups).run middle = (outcomes, during))
    (settled : ∀ outcome ∈ outcomes, outcome.isSettled = true)
    (unfinished : .unfinished ∈ outcomes) :
    outcomes.length = groups.length ∧ before.errors <+: during.errors ∧
      ∃ result after added, env.execute.runFrom before = (.ok result, after) ∧
        after.errors = during.errors ++ added ∧
        result.errors = during.errors.map during.world.settle ++ added ∧
        env.IsInterrupted root groups outcomes (during.interruption env.request.settings)
          result.data added := by
  obtain ⟨length, adds⟩ := run_runRootFields_adds collected ran
  have some : groups ≠ [] := by
    rintro rfl
    rw [List.eq_nil_of_length_eq_zero length] at unfinished
    cases unfinished
  obtain ⟨data, added, assembled, made, interrupted⟩ : ∃ data added,
      (env.assemble root groups outcomes).runFrom during =
        (.ok data, during.recordErrors added) ∧
      (∀ error ∈ added, error.cause.given? = none) ∧
      env.IsInterrupted root groups outcomes (during.interruption env.request.settings) data
        added := by
    cases wanted : env.request.settings.partialResults with
    | false =>
      refine ⟨_, _, runFrom_assemble_of_discarding settled unfinished wanted, ?_, ?_⟩
      · intro error member
        cases List.mem_singleton.mp member
        exact Executor.given?_interruption _
      · exact ⟨fun _ => ⟨rfl, rfl⟩, fun keeps => nomatch wanted.symm.trans keeps⟩
    | true =>
      refine ⟨_, _, runFrom_assemble_of_partial settled wanted, ?_, ?_⟩
      · intro error member
        obtain ⟨field, _, rfl⟩ := List.mem_map.mp member
        exact Executor.given?_interruption _
      · refine ⟨fun discards => ?_, fun _ => ⟨?_, rfl⟩⟩
        · cases wanted.symm.trans discards
        · exact isPartialData_rootResponse fun field member =>
            settled field.2 (List.of_mem_zip member).2
  refine ⟨length, adds, resultOf (during.recordErrors added).finish data,
    (during.recordErrors added).finish, added, ?_, Executor.errors_recordErrors, ?_, interrupted⟩
  · rw [runFrom_execute_of_some found, runFrom_executeRoot collected some ran, assembled]
    rfl
  · show (during.recordErrors added).errors.map (during.recordErrors added).world.settle = _
    rw [Executor.errors_recordErrors, Executor.settle_recordErrors made, List.map_append]
    congr 1
    refine (List.map_congr_left fun error member => ?_).trans (List.map_id _)
    exact World.settle_of_made (made error member)

/-- A query for a greeting, for a farewell and for a name, in which asking for the farewell stops
the execution. -/
def abandoned (partialResults : Bool) : Environment Unit where
  registry := {
    types := [
      .object {
        name := "Query"
        fields := [
          { name := "greeting", type := .named "String" true, resolver := .given 0 },
          { name := "farewell", type := .named "String", resolver := .given 1 },
          { name := "name", type := .named "String", resolver := .given 0 }] },
      .scalar BuiltinScalar.string.type]
    query := "Query" }
  behaviour := {
    resolve := fun handle _ _ _ =>
      if handle = 0 then .finish (.str "hello") else .stop "user" (.finish .null)
    hook := fun _ value => .ok value
    convert := fun _ value => .ok value }
  request := {
    operation := {
      selections := [.field "greeting" none [] [] none [], .field "farewell" none [] [] none [],
        .field "name" none [] [] none []] }
    settings := { partialResults } }

/-- With partial results the greeting stays, and the farewell and the name are reported where they
are missing; without them there is only one error. -/
theorem execute_interrupted_abandoned :
    (∃ result after,
      (abandoned true).execute.runFrom { world := { user := () } } = (.ok result, after) ∧
        result.data = .object [("greeting", .leaf (.str "hello")), ("farewell", .null),
          ("name", .null)] ∧
        result.errors.map FieldError.path = [some [.key "farewell"], some [.key "name"]]) ∧
    ∃ result after,
      (abandoned false).execute.runFrom { world := { user := () } } = (.ok result, after) ∧
        result.data = .null ∧ result.errors.map FieldError.path = [none] := by
  constructor
  · obtain ⟨_, _, result, after, added, ran, _, errors, interrupted⟩ :=
      @execute_interrupted Unit (abandoned true) _ _ _ { world := { user := () } } _ _
        rfl rfl rfl (by decide) (List.mem_cons_of_mem _ List.mem_cons_self)
    obtain ⟨partialData, rfl⟩ := interrupted.keeping rfl
    refine ⟨result, after, ran, ?_, ?_⟩
    · cases ran
      rfl
    · rw [errors]
      rfl
  · obtain ⟨_, _, result, after, added, ran, _, errors, interrupted⟩ :=
      @execute_interrupted Unit (abandoned false) _ _ _ { world := { user := () } } _ _
        rfl rfl rfl (by decide) (List.mem_cons_of_mem _ List.mem_cons_self)
    obtain ⟨data, rfl⟩ := interrupted.discarding rfl
    refine ⟨result, after, ran, data, ?_⟩
    rw [errors]
    rfl

end Environment

end GraphQL
