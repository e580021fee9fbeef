import GraphQL.Proofs.FailurePaths
import GraphQL.Proofs.Locating
import GraphQL.Proofs.NullPropagation

/-!
# Paths of errors

The errors of an execution lead to the positions that failed, each to its own: no path occurs twice,
and none begins with another. That rests on error objects of user code that are fresh and on completed
values that are plain. A completed value that is itself an error object made for fields fails the
position around it, although parts of that may have failed before.
-/

namespace GraphQL

variable {σ : Type}

/-- An error leads to a position that failed for its cause. -/
structure FieldError.LeadsTo (error : FieldError) (whole : Position) (path : Path) : Prop where
  placed : error.path = some path
  failed : ∃ failure, failure.cause = error.cause ∧ whole.FailsAt failure path

/-- Errors that lead to positions have the paths to these. -/
theorem FieldError.map_path_of_leadsTo {errors : List FieldError} {whole : Position}
    {paths : List Path}
    (lead : List.Forall₂ (fun error path => error.LeadsTo whole path) errors paths) :
    errors.map FieldError.path = paths.map some := by
  rw [← List.forall₂_eq_eq_eq]
  exact List.forall₂_map_left_iff.mpr (List.forall₂_map_right_iff.mpr
    (lead.imp fun _ _ leads => leads.placed))

theorem World.cause_settle (world : World σ) (error : FieldError) :
    (world.settle error).cause = error.cause := by
  unfold World.settle
  split
  · rfl
  · rfl

namespace Environment

variable {env : Environment σ} {root : ObjectType}

/-! ## Root fields -/

/-- Root fields that finished placed the errors recorded on the way. -/
def RootFieldsPlace (groups : List FieldGroup) (before after : Executor σ)
    (fields : List (String × Position)) : Prop :=
  ∃ noted, after.errors = before.errors ++ noted ∧
    Jointly (groups.map fun group noted entry => entry.1 = group.key ∧
      entry.2.Places (rootPath group) noted) noted fields

theorem RootFieldsPlace.nil (executor : Executor σ) : RootFieldsPlace [] executor executor [] :=
  ⟨[], (List.append_nil _).symm, rfl, rfl⟩

theorem RootFieldsPlace.cons {group : FieldGroup} {rest : List FieldGroup}
    {before middle after : Executor σ} {position : Position} {fields : List (String × Position)}
    {noted : List FieldError} (errors : middle.errors = before.errors ++ noted)
    (places : position.Places (rootPath group) noted)
    (later : RootFieldsPlace rest middle after fields) :
    RootFieldsPlace (group :: rest) before after ((group.key, position) :: fields) := by
  obtain ⟨more, errorsOn, jointly⟩ := later
  refine ⟨noted ++ more, ?_, noted, more, _, fields, rfl, rfl, ⟨rfl, places⟩, jointly⟩
  rw [errorsOn, errors, List.append_assoc]

/-- A root field places the errors at its position and below it. -/
theorem rootField_records {group : FieldGroup} (reached : env.Reaches root 0 root group)
    {before : Executor σ} (sound : (env.rootFieldTrials root group).Sound before) :
    (env.executeRootField root group).Records before (Position.Places (rootPath group)) := by
  have executes : env.Executes root True 1 (env.executeObject env.request.depthBound) :=
    executeObject_executes (fun _ => trivial) (by omega)
  have objects : env.ObjectsPlace root 1 (env.executeObject env.request.depthBound)
      (env.objectTrials env.request.depthBound) := executeObject_records (by omega)
  have inner : rootPath group ≠ [] := List.cons_ne_nil _ _
  exact (executeGroup_records executes objects reached env.request.root inner sound).mono
    fun _ _ held => held.1

/-- A root field that finished began, and places its errors. -/
theorem runRootField_records {group : FieldGroup} (reached : env.Reaches root 0 root group)
    {before : Executor σ} {position : Position}
    (sound : before.isStopping = false → (env.rootFieldTrials root group).Sound before)
    (finished : ((env.runRootField root group).run before).1 = .finished position) :
    ∃ noted, ((env.runRootField root group).run before).2.errors = before.errors ++ noted ∧
      position.Places (rootPath group) noted := by
  rw [run_runRootField] at finished ⊢
  cases running : before.isStopping with
  | true =>
    rw [running] at finished
    cases finished
  | false =>
    rw [running, if_neg Bool.false_ne_true] at finished
    rw [if_neg Bool.false_ne_true]
    have records := rootField_records reached (sound running)
    unfold executeRootField at records
    rcases ran : (env.executeGroup (env.executeObject env.request.depthBound) root
      env.request.root (rootPath group) group).runFrom before with ⟨why | completed, after⟩
    · rw [ran] at finished
      cases why with
      | _ => cases finished
    · rw [ran] at finished
      dsimp only [rootOutcome] at finished
      split at finished
      · cases finished
      · cases finished
        exact records position after ran

/-- Root fields that ran together and all finished place their errors. -/
theorem runTogether_places {groups : List FieldGroup}
    (reached : ∀ group ∈ groups, env.Reaches root 0 root group) {before : Executor σ}
    {fields : List (String × Position)}
    (keyed : fields.map Prod.fst = groups.map FieldGroup.key)
    (sound : (Trials.inTurn (groups.map fun group =>
      (env.executeRootField root group, env.rootFieldTrials root group))).Sound before)
    (finished : ((env.runTogether root groups).run before).1 =
      fields.map fun entry => .finished entry.2) :
    RootFieldsPlace groups before ((env.runTogether root groups).run before).2 fields := by
  induction groups generalizing before fields with
  | nil =>
    obtain rfl := List.map_eq_nil_iff.mp keyed
    exact .nil _
  | cons group rest ih =>
    obtain ⟨here, others⟩ := List.forall_mem_cons.mp reached
    obtain ⟨⟨_, position⟩, fields, rfl, rfl, restKeyed⟩ := List.map_eq_cons_iff.mp keyed
    obtain ⟨own, later⟩ := List.forall_mem_append.mp sound
    obtain ⟨first, following⟩ := List.cons.inj finished
    rw [← run_runRootField_snd] at later
    have started : before.isStopping = false → (env.rootFieldTrials root group).Sound before := by
      intro running
      rw [running] at own
      exact own
    obtain ⟨noted, errors, places⟩ := runRootField_records here started first
    exact .cons errors places (ih others restKeyed later following)

/-- A root field that is not given up has finished if it has afterwards. -/
theorem eq_finished_of_change {outcome : RootOutcome} {position : Position}
    {change : RootOutcome → RootOutcome}
    (stays : ∀ outcome, change outcome = outcome ∨ change outcome = .unfinished)
    (finished : change outcome = .finished position) : outcome = .finished position := by
  rcases stays outcome with same | givenUp
  · exact same ▸ finished
  · rw [givenUp] at finished
    cases finished

/-- Root fields have all finished if they have where some of them may be given up. -/
theorem eq_finished_of_map {outcomes : List RootOutcome} {fields : List (String × Position)}
    {change : RootOutcome → RootOutcome}
    (stays : ∀ outcome, change outcome = outcome ∨ change outcome = .unfinished)
    (finished : outcomes.map change = fields.map fun entry => .finished entry.2) :
    outcomes = fields.map fun entry => .finished entry.2 := by
  induction fields generalizing outcomes with
  | nil => exact List.map_eq_nil_iff.mp finished
  | cons entry rest ih =>
    obtain ⟨outcome, others, rfl, first, following⟩ := List.map_eq_cons_iff.mp finished
    rw [List.map_cons, eq_finished_of_change stays first, ih following]

/-- Where all root fields of a query finished, they did so while they ran together. -/
theorem run_runQuery_finished {groups : List FieldGroup} {before : Executor σ}
    {fields : List (String × Position)} (running : before.isStopping = false)
    (finished : ((env.runQuery root groups).run before).1 =
      fields.map fun entry => .finished entry.2) :
    ((env.runTogether root groups).run (before.start groups.length)).1 =
        fields.map (fun entry => .finished entry.2) ∧
      ((env.runQuery root groups).run before).2.errors =
        ((env.runTogether root groups).run (before.start groups.length)).2.errors := by
  rw [run_runQuery, running, if_neg Bool.false_ne_true] at finished ⊢
  dsimp only at finished ⊢
  obtain ⟨change, stays, ran | ran⟩ := env.run_giveUp_cases
    ((env.runTogether root groups).run (before.start groups.length)).1
    ((env.runTogether root groups).run (before.start groups.length)).2
  · rw [ran] at finished ⊢
    exact ⟨eq_finished_of_map stays finished, rfl⟩
  · rw [ran] at finished ⊢
    exact ⟨eq_finished_of_map stays finished, Executor.errors_forceStop ..⟩

section

variable {groups : List FieldGroup} (reached : ∀ group ∈ groups, env.Reaches root 0 root group)
  {before : Executor σ} {fields : List (String × Position)}
  (keyed : fields.map Prod.fst = groups.map FieldGroup.key)

include reached keyed

/-- The root fields of a query place their errors if all of them finished. -/
theorem runQuery_places (sound : (env.queryTrials root groups).Sound before)
    (finished : ((env.runQuery root groups).run before).1 =
      fields.map fun entry => .finished entry.2) :
    RootFieldsPlace groups before ((env.runQuery root groups).run before).2 fields := by
  cases stopping : before.isStopping with
  | true =>
    rw [run_runQuery, stopping, if_pos rfl] at finished ⊢
    cases groups with
    | nil =>
      obtain rfl := List.map_eq_nil_iff.mp keyed
      exact .nil _
    | cons group rest =>
      obtain ⟨_, _, _, unfinished, _⟩ := List.map_eq_cons_iff.mp finished.symm
      cases unfinished
  | false =>
    obtain ⟨together, errors⟩ := run_runQuery_finished stopping finished
    obtain ⟨noted, recorded, jointly⟩ := runTogether_places reached keyed sound together
    exact ⟨noted, errors.trans recorded, jointly⟩

/-- The root fields of a mutation place their errors if all of them finished. The induction is on
the fields still to run: none of them waits forever. -/
theorem runMutation_places (sound : (env.mutationTrials root groups).Sound before)
    (finished : ((env.runMutation root groups).run before).1 =
      fields.map fun entry => .finished entry.2) :
    RootFieldsPlace groups before ((env.runMutation root groups).run before).2 fields := by
  induction groups generalizing before fields with
  | nil =>
    obtain rfl := List.map_eq_nil_iff.mp keyed
    exact .nil _
  | cons group rest ih =>
    obtain ⟨here, others⟩ := List.forall_mem_cons.mp reached
    obtain ⟨⟨_, position⟩, fields, rfl, rfl, restKeyed⟩ := List.map_eq_cons_iff.mp keyed
    unfold Trials.Sound mutationTrials at sound
    rw [run_runMutation_cons] at finished ⊢
    cases stopping : before.isStopping with
    | true =>
      rw [stopping] at finished
      cases (List.cons.inj finished).1
    | false =>
      rw [stopping, if_neg Bool.false_ne_true] at sound finished
      rw [if_neg Bool.false_ne_true]
      obtain ⟨own, later⟩ := List.forall_mem_append.mp sound
      dsimp only at later finished ⊢
      cases waiting : isWaiting ((env.runRootField root group).run (before.start 1)).1 with
      | true =>
        rw [env.run_goOn_of_waiting root waiting] at finished
        rw [eq_finished_of_change expire_eq (List.cons.inj finished).1] at waiting
        cases waiting
      | false =>
        rw [waiting, if_neg Bool.false_ne_true] at later
        rw [env.run_goOn_of_ended root waiting] at finished ⊢
        obtain ⟨first, following⟩ := List.cons.inj finished
        obtain ⟨noted, errors, places⟩ := runRootField_records here (fun _ => own) first
        exact .cons errors places (ih others restKeyed later following)

/-- The root fields of the operation place their errors if all of them finished. -/
theorem runRootFields_places (sound : (env.rootFieldsTrials root groups).Sound before)
    (finished : ((env.runRootFields root groups).run before).1 =
      fields.map fun entry => .finished entry.2) :
    RootFieldsPlace groups before ((env.runRootFields root groups).run before).2 fields := by
  unfold rootFieldsTrials at sound
  unfold runRootFields at finished ⊢
  cases kind : env.request.operation.kind with
  | mutation =>
    rw [kind] at sound finished
    exact runMutation_places reached keyed sound finished
  | query | subscription =>
    rw [kind] at sound finished
    exact runQuery_places reached keyed sound finished

end

/-! ## Whole executions -/

/-- Collecting the root fields fails only because a condition cannot be coerced. -/
theorem exists_coercion_of_rootGroups {before middle : Executor σ} {cause : FailureCause}
    (collected : env.rootGroups root before = (.ok (.error cause), middle)) :
    ∃ failure, cause = .coercion failure := by
  unfold rootGroups at collected
  rcases found : (env.collection before.world root).collectAll
      [env.request.operation.selections] with ⟨stop | _, gathered⟩
  · rw [runFrom_collectGroups found] at collected
    cases stop with
    | failed failure =>
      cases collected
      exact ⟨failure, rfl⟩
    | interrupted _ | unknownType _ | tooDeep => cases collected
  · rw [runFrom_collectGroups found] at collected
    cases collected

variable (env) in
/-- Where the errors of an execution lead that was neither stopped nor interrupted. -/
inductive Locates (before after : Executor σ) (result : ExecutionResult) : Prop where
  /-- There is no root type. Nothing is recorded, and the result says only that. -/
  | rootless : env.rootType? = none → after.errors = before.errors →
      result.errors = [{ cause := .noRoot env.request.operation.kind }] →
      Locates before after result
  /-- The root selections could not be collected. That is the only error, and it has no path. -/
  | uncollected {root : ObjectType} {failure : CoercionFailure} : env.rootType? = some root →
      (env.rootGroups root (env.begun root before)).1 = .ok (.error (.coercion failure)) →
      after.errors = before.errors ++ [({ cause := .coercion failure } : FieldError)] →
      result.errors.drop before.errors.length = [{ cause := .coercion failure }] →
      Locates before after result
  /-- All root fields were completed to positions that are laid out as the declared types say. The
  errors recorded are those of the positions that failed, the paths lead to these, and none of the
  paths is the beginning of another. -/
  | located {root : ObjectType} {groups : List FieldGroup} {middle : Executor σ}
      {fields : List (String × Position)} {paths : List Path} :
      env.rootType? = some root →
      env.rootGroups root (env.begun root before) = (.ok (.ok groups), middle) →
      ((env.runRootFields root groups).run middle).1 =
        fields.map (fun entry => .finished entry.2) →
      env.FieldsFit root groups fields →
      after.errors = before.errors ++ Position.fieldErrors fields →
      List.Forall₂ (fun error path => error.LeadsTo (.object true fields) path)
        (result.errors.drop before.errors.length) paths →
      paths.Pairwise Path.Apart → Locates before after result

/-- The errors that an execution adds show as they are settled at its end. -/
theorem drop_errors_resultOf {before after : Executor σ} {noted : List FieldError}
    (errors : after.errors = before.errors ++ noted) (data : Response) :
    (resultOf after data).errors.drop before.errors.length = noted.map after.world.settle := by
  show (after.errors.map after.world.settle).drop before.errors.length = _
  rw [errors, List.map_append, List.drop_left' (List.length_map _)]

/-- Errors that stand at the paths of positions that failed with them lead there at the end. -/
theorem leadsTo_of_standsAt {fields : List (String × Position)} {world : World σ}
    (distinct : (Position.object true fields).KeysDistinct)
    (stand : List.Forall₂ (fun error below => error.StandsAt below)
      (Position.fieldErrors fields) (Position.fieldFailures fields)) :
    List.Forall₂ (fun error path => error.LeadsTo (.object true fields) path)
      ((Position.fieldErrors fields).map world.settle) (Position.fieldFailures fields) := by
  have located := (Position.locatesFailures (.object true fields) distinct).failed
  obtain ⟨lengths, failed⟩ := List.forall₂_iff_zip.mp located
  refine List.forall₂_map_left_iff.mpr (List.forall₂_iff_zip.mpr ⟨lengths, fun among => ?_⟩)
  have settled := ((List.forall₂_iff_zip.mp stand).2 among).settle world
  exact ⟨settled.own, _, (World.cause_settle world _).symm, failed among⟩

/-- Where the errors of an execution lead that has completed its root fields. -/
theorem locates_of_fields {before middle after : Executor σ} {groups : List FieldGroup}
    {fields : List (String × Position)} (found : env.rootType? = some root)
    (collected : env.rootGroups root (env.begun root before) = (.ok (.ok groups), middle))
    (outcomes : ((env.runRootFields root groups).run middle).1 =
      fields.map fun entry => .finished entry.2)
    (fit : env.FieldsFit root groups fields) (place : RootFieldsPlace groups middle after fields)
    (data : Response) : env.Locates before after (resultOf after data) := by
  obtain ⟨collects, same⟩ := collects_rootGroups collected
  obtain ⟨_, grouped⟩ := collects.grouped
  have distinct : (Position.object true fields).KeysDistinct := by
    refine ⟨?_, fieldKeysDistinct_of_fits fields fit⟩
    rw [fit.keys]
    exact grouped.distinct
  obtain ⟨noted, errors, jointly⟩ := place
  obtain ⟨rfl, stand⟩ : noted = Position.fieldErrors fields ∧
      List.Forall₂ (fun error below => error.StandsAt ([] ++ below)) noted
        (Position.fieldFailures fields) := Position.places_fields jointly
  replace errors : after.errors = before.errors ++ Position.fieldErrors fields :=
    errors.trans (congrArg (· ++ _) same)
  refine .located found collected outcomes fit errors ?_
    (Position.locatesFailures (.object true fields) distinct).apart
  rw [drop_errors_resultOf errors]
  exact leadsTo_of_standsAt distinct stand

/-- **Errors stand where positions failed.** Where error objects of user code are fresh when they fail
a position, and no completed value below the root fields is an error object made for fields, every
error that an execution records leads to a position that failed for its cause, by the keys and
indices on the way, and no path begins with another. Otherwise there is the one error that the root
selections could not be collected, or that there is no root type. -/
theorem execute_locates {before after : Executor σ} {result : ExecutionResult}
    (ran : env.execute.runFrom before = (.ok result, after))
    (undisturbed : Undisturbed (after.errors.drop before.errors.length))
    (fresh : ∀ trial ∈ env.trials before, trial.isFresh = true)
    (plain : ∀ trial ∈ env.trials before, 1 < trial.path.length → trial.isPlain = true) :
    env.Locates before after result := by
  have sound : env.trials.Sound before := fun trial among =>
    ⟨fresh trial among, plain trial among⟩
  unfold Trials.Sound trials at sound
  cases found : env.rootType? with
  | none =>
    rw [runFrom_execute_of_none found] at ran
    cases ran
    exact .rootless found rfl rfl
  | some root =>
    rw [found] at sound
    replace sound : (Trials.after (env.collectGroups root [env.request.operation.selections])
      (env.rootFieldsTrials root)).Sound (env.begun root before) := sound
    rw [runFrom_execute_of_some found] at ran
    rcases executed : (env.executeRoot root).runFrom (env.begun root before) with
      ⟨why | data, ended⟩
    · rw [executed] at ran
      cases ran
    · rw [executed] at ran
      cases ran
      rcases executeRoot_cases executed with ⟨cause, middle, collected, rfl, rfl⟩ |
          ⟨groups, middle, collected, ⟨rfl, rfl, rfl⟩ | assembled⟩
      · obtain ⟨failure, rfl⟩ := exists_coercion_of_rootGroups collected
        have same := errors_collectGroups env root [env.request.operation.selections]
          (env.begun root before)
        unfold rootGroups at collected
        rw [collected] at same
        have errors : (middle.recordError { cause := .coercion failure }).finish.errors =
            before.errors ++ [({ cause := .coercion failure } : FieldError)] :=
          congrArg (· ++ _) same
        exact .uncollected found (congrArg Prod.fst collected) errors
          (drop_errors_resultOf errors _)
      · have nothing : env.FieldsFit root [] [] := rfl
        have place : RootFieldsPlace [] ended ended.finish [] := .nil ended
        exact locates_of_fields found collected (run_runRootFields_nil _) nothing place _
      · obtain ⟨fields, _, outcomes, fit, same, _⟩ :=
          exists_fields_of_assemble collected assembled undisturbed
        obtain ⟨collects, _⟩ := collects_rootGroups collected
        have reached : ∀ group ∈ groups, env.Reaches root 0 root group := fun group member =>
          ⟨_, groups, .root, collects, member⟩
        obtain ⟨noted, errors, jointly⟩ :=
          runRootFields_places reached fit.keys (sound.after collected) outcomes
        have place : RootFieldsPlace groups middle ended.finish fields :=
          ⟨noted, same.trans errors, jointly⟩
        exact locates_of_fields found collected outcomes fit place _

/-- An object type with a list of values of any kind. -/
def bagQuery : ObjectType where
  name := "Query"
  fields := [{ name := "xs", type := .list (.named "Any"), resolver := .given 0 }]

/-- A schema with a query for such a list. -/
def bagSchema : Schema where
  query := some (.definition (.object bagQuery))
  types := [.definition (.scalar { name := "Any" })]

/-- The registry of that schema. -/
def bagRegistry : Registry :=
  bagSchema.tableWithin 100

theorem accepted_bagRegistry : bagRegistry.Accepted :=
  Schema.accepted_of_soundWithin (by decide +kernel)

/-- A query for the list, whose items user code gives. -/
def bagging (items : List Value) : Environment Unit where
  registry := bagRegistry
  behaviour := {
    resolve := fun _ _ _ _ => .finish (.list items)
    hook := fun _ value => .ok value
    convert := fun _ value => .ok value }
  request := { operation := { selections := [.field "xs" none [] [] none []] } }

/-- An error object that is not made for fields. -/
def lostItem : Fault where
  kind := .value
  message := "first"

/-- An error object that is made for fields. -/
def deniedItem : Fault where
  kind := .graphQL
  message := "second"

/-- A list of which two items fail when they are awaited. -/
def failingBag : Environment Unit :=
  bagging [.failing lostItem, .str "plain", .failing deniedItem]

/-- A list of which one item fails when it is awaited, and another one is an error object. -/
def spoiledBag : Environment Unit :=
  bagging [.failing lostItem, .fault deniedItem]

/-- Each of the two items that fail has an error at its own index. -/
theorem execute_locates_items :
    ∃ result after,
      failingBag.execute.runFrom { world := { user := () } } = (.ok result, after) ∧
      Undisturbed (after.errors.drop 0) ∧
      (∀ trial ∈ failingBag.trials { world := { user := () } }, trial.isFresh = true) ∧
      (∀ trial ∈ failingBag.trials { world := { user := () } },
        1 < trial.path.length → trial.isPlain = true) ∧
      result.errors.map FieldError.path =
        [some [.key "xs", .index 0], some [.key "xs", .index 2]] ∧
      failingBag.Locates { world := { user := () } } after result := by
  have ran : ∃ result after,
      failingBag.execute.runFrom { world := { user := () } } = (.ok result, after) ∧
        (after.errors.drop 0).all (fun error => !error.cause.isInterruption) = true ∧
        result.errors.map FieldError.path =
          [some [.key "xs", .index 0], some [.key "xs", .index 2]] :=
    ⟨_, _, rfl, rfl, rfl⟩
  have tried : (failingBag.trials { world := { user := () } }).all
      (fun trial => trial.isFresh && trial.isPlain) = true := rfl
  obtain ⟨result, after, ran, ordinary, paths⟩ := ran
  have undisturbed : Undisturbed (after.errors.drop 0) := fun error among =>
    Bool.not_eq_true' _ ▸ List.all_eq_true.mp ordinary error among
  have sound : ∀ trial ∈ failingBag.trials { world := { user := () } },
      trial.isFresh = true ∧ trial.isPlain = true := fun trial among =>
    Bool.and_eq_true_iff.mp (List.all_eq_true.mp tried trial among)
  have fresh := fun trial among => (sound trial among).1
  have plain := fun trial among (_ : 1 < trial.path.length) => (sound trial among).2
  exact ⟨result, after, ran, undisturbed, fresh, plain, paths,
    execute_locates ran undisturbed fresh plain⟩

/-- An item that is an error object fails its list, although another item failed before: the path of
the list is the beginning of the path of that item. -/
theorem execute_misplaces_spoiled :
    ∃ result after, bagRegistry.Accepted ∧
      spoiledBag.execute.runFrom { world := { user := () } } = (.ok result, after) ∧
      after.errors.all (fun error => !error.cause.isInterruption) = true ∧
      (∀ trial ∈ spoiledBag.trials { world := { user := () } }, trial.isFresh = true) ∧
      result.errors.map FieldError.path = [some [.key "xs", .index 0], some [.key "xs"]] ∧
      ¬ spoiledBag.Locates { world := { user := () } } after result := by
  have ran : ∃ result after,
      spoiledBag.execute.runFrom { world := { user := () } } = (.ok result, after) ∧
        after.errors.all (fun error => !error.cause.isInterruption) = true ∧
        result.errors.map FieldError.path = [some [.key "xs", .index 0], some [.key "xs"]] :=
    ⟨_, _, rfl, rfl, rfl⟩
  have tried : (spoiledBag.trials { world := { user := () } }).all Trial.isFresh = true := rfl
  obtain ⟨result, after, ran, ordinary, paths⟩ := ran
  refine ⟨result, after, accepted_bagRegistry, ran, ordinary, List.all_eq_true.mp tried, paths, ?_⟩
  intro located
  cases located with
  | rootless _ _ single =>
    rw [single] at paths
    cases paths
  | uncollected _ _ _ single =>
    replace single : result.errors = _ := single
    rw [single] at paths
    cases paths
  | @located _ _ _ _ found _ _ _ _ _ lead apart =>
    have same : found.map some = List.map some [[PathKey.key "xs", .index 0], [.key "xs"]] :=
      (FieldError.map_path_of_leadsTo lead).symm.trans paths
    obtain rfl := List.map_injective_iff.mpr (Option.some_injective _) same
    exact (List.rel_of_pairwise_cons apart List.mem_cons_self).not_extends ⟨[.index 0], rfl⟩

end Environment

end GraphQL
