import GraphQL.Proofs.ErrorPaths
import GraphQL.Proofs.Keeping
import Mathlib.Data.List.Perm.Subperm

/-!
# Shared error objects

Each position that fails has an error of its own. It stands at the path of the position unless the
error object with which the position failed has a path by then, which the error shows instead. An
error object that is recorded has a path from then on. So of all the positions that fail with one
object, one at most is found by its path.
-/

namespace GraphQL

variable {σ α β : Type}

/-! ## Errors of trials -/

namespace Trial

/-- Whether the position failed. -/
def failed (trial : Trial σ) : Bool :=
  match trial.outcome with
  | .error _ => true
  | .ok _ => false

/-- The position failed with an error object that is stored. -/
def FailsWith (trial : Trial σ) (identity : Nat) : Prop :=
  ∃ fault, trial.outcome = .error (.given fault) ∧ fault.identity = some identity

/-- An error is that of a position when it is recorded there. -/
def IsRecordedAs (trial : Trial σ) (error : FieldError) : Prop :=
  ∃ cause locations, trial.outcome = .error cause ∧
    error = trial.executor.world.locate cause trial.path locations

/-- An error shows why a position failed. Its path is that of the position, unless the error object
behind it had another one by then. -/
structure IsReportedAs (trial : Trial σ) (error : FieldError) : Prop where
  cause : ∃ cause, trial.outcome = .error cause ∧ error.cause.kind = cause.kind ∧
    error.cause.message = cause.message ∧
    error.cause.given?.bind Fault.identity = cause.given?.bind Fault.identity
  fresh : trial.isFresh = true → error.path = some trial.path
  stale : trial.isFresh = false → ∃ fault path, trial.outcome = .error (.given fault) ∧
    (trial.executor.world.settleFault fault).path = some path ∧ error.path = some path

/-- Of two positions that fail with one error object, one finds it with a path. -/
def OneIsStale (one other : Trial σ) : Prop :=
  ∀ identity, one.FailsWith identity → other.FailsWith identity →
    one.isFresh = false ∨ other.isFresh = false

variable {trial : Trial σ} {error : FieldError}

theorem isFresh_of_hasPlace {identity : Nat} (fails : trial.FailsWith identity)
    (placed : trial.executor.HasPlace identity) : trial.isFresh = false := by
  obtain ⟨fault, outcome, stored⟩ := fails
  unfold isFresh
  rw [outcome]
  have path := World.isSome_path_settleFault stored placed
  dsimp only
  cases found : (trial.executor.world.settleFault fault).path with
  | none =>
    rw [found] at path
    cases path
  | some path => rfl

/-- The error of a position stands at the path of the position, unless the error object behind it
had another one by then. -/
theorem IsRecordedAs.standsAt (recorded : trial.IsRecordedAs error) :
    ∃ path, error.StandsAt path ∧ (trial.isFresh = true → path = trial.path) ∧
      (trial.isFresh = false → ∃ fault, trial.outcome = .error (.given fault) ∧
        (trial.executor.world.settleFault fault).path = some path) := by
  obtain ⟨cause, locations, outcome, rfl⟩ := recorded
  unfold isFresh
  rw [outcome]
  cases cause with
  | given fault =>
    refine ⟨(trial.executor.world.settleFault fault).path.getD trial.path, ⟨rfl, ?_⟩, ?_, ?_⟩
    · rintro _ ⟨⟩
      rfl
    · intro fresh
      rw [Option.isNone_iff_eq_none.mp fresh]
      rfl
    · intro stale
      replace stale : (trial.executor.world.settleFault fault).path.isNone = false := stale
      cases placed : (trial.executor.world.settleFault fault).path with
      | none =>
        rw [placed] at stale
        cases stale
      | some path => exact ⟨fault, rfl, placed⟩
  | _ =>
    refine ⟨trial.path, ⟨rfl, fun _ same => nomatch same⟩, fun _ => rfl, fun stale => ?_⟩
    cases stale

/-- An error that was recorded at a position shows at the end why the position failed. -/
theorem IsRecordedAs.isReportedAs (recorded : trial.IsRecordedAs error) (world : World σ) :
    trial.IsReportedAs (world.settle error) := by
  obtain ⟨path, stands, fresh, stale⟩ := recorded.standsAt
  have placed : (world.settle error).path = some path := (stands.settle world).own
  refine ⟨?_, fun isFresh => fresh isFresh ▸ placed, fun isStale => ?_⟩
  · obtain ⟨cause, locations, outcome, rfl⟩ := recorded
    refine ⟨cause, outcome, ?_⟩
    rw [World.cause_settle]
    cases cause with
    | given fault =>
      show (trial.executor.world.settleFault fault).kind = _ ∧
        (trial.executor.world.settleFault fault).message = _ ∧
        (trial.executor.world.settleFault fault).identity = _
      unfold World.settleFault
      split <;> exact ⟨rfl, rfl, rfl⟩
    | _ => exact ⟨rfl, rfl, rfl⟩
  · obtain ⟨fault, outcome, settled⟩ := stale isStale
    exact ⟨fault, path, outcome, settled, placed⟩

end Trial

/-- An error that is located at a position has a path. -/
theorem World.isSome_path_locate {world : World σ} {cause : FailureCause} {path : Path}
    {locations : List Location} : (world.locate cause path locations).path.isSome = true := by
  cases cause with
  | _ => rfl

/-- An execution went from one executor to another and tried some positions on the way. Each that
failed has an error of its own among those recorded. A stored error object that has a path keeps
having one, and gets one where a position fails with it. -/
structure Executor.Recounts (before : Executor σ) (tried : List (Trial σ)) (after : Executor σ) :
    Prop where
  recorded : ∃ errors noted, List.Forall₂ Trial.IsRecordedAs (tried.filter Trial.failed) errors ∧
    errors.Subperm noted ∧ after.errors = before.errors ++ noted
  keeps : ∀ identity, before.HasPlace identity → after.HasPlace identity
  places : ∀ identity, ∀ trial ∈ tried, trial.FailsWith identity → after.HasPlace identity
  stale : ∀ identity, before.HasPlace identity → ∀ trial ∈ tried, trial.FailsWith identity →
    trial.isFresh = false
  once : tried.Pairwise Trial.OneIsStale

namespace Executor.Recounts

variable {before middle after : Executor σ} {tried more : List (Trial σ)}

/-- Nothing was tried. -/
theorem of_idle {noted : List FieldError} (errors : after.errors = before.errors ++ noted)
    (keeps : ∀ identity, before.HasPlace identity → after.HasPlace identity) :
    before.Recounts [] after where
  recorded := ⟨[], noted, .nil, List.nil_subperm, errors⟩
  keeps := keeps
  places _ _ among := nomatch among
  stale _ _ _ among := nomatch among
  once := .nil

protected theorem refl (executor : Executor σ) : executor.Recounts [] executor :=
  of_idle (List.append_nil _).symm fun _ => id

theorem append (first : before.Recounts tried middle) (second : middle.Recounts more after) :
    before.Recounts (tried ++ more) after where
  recorded := by
    obtain ⟨here, noted, recorded, among, errors⟩ := first.recorded
    obtain ⟨there, notedOn, recordedOn, amongOn, errorsOn⟩ := second.recorded
    refine ⟨here ++ there, noted ++ notedOn, ?_, among.append amongOn, ?_⟩
    · rw [List.filter_append]
      exact List.rel_append recorded recordedOn
    · rw [errorsOn, errors, List.append_assoc]
  keeps identity held := second.keeps identity (first.keeps identity held)
  places identity trial among fails := by
    rcases List.mem_append.mp among with here | there
    · exact second.keeps identity (first.places identity trial here fails)
    · exact second.places identity trial there fails
  stale identity held trial among fails := by
    rcases List.mem_append.mp among with here | there
    · exact first.stale identity held trial here fails
    · exact second.stale identity (first.keeps identity held) trial there fails
  once := by
    refine List.pairwise_append.mpr ⟨first.once, second.once, fun one here other there => ?_⟩
    -- the first failure has given the object a path, which the second one finds
    intro identity fails failsToo
    exact Or.inr (second.stale identity (first.places identity one here fails) other there failsToo)

/-- A position that failed is recorded after what was tried below it. -/
theorem fail {path : Path} {cause : FailureCause} (below : before.Recounts tried middle)
    (locations : List Location) :
    before.Recounts (⟨path, .error cause, middle⟩ :: tried)
      (middle.recordError (middle.world.locate cause path locations)) where
  recorded := by
    obtain ⟨errors, noted, recorded, among, same⟩ := below.recorded
    refine ⟨middle.world.locate cause path locations :: errors,
      noted ++ [middle.world.locate cause path locations], ?_, ?_, ?_⟩
    · exact .cons ⟨cause, locations, rfl, rfl⟩ recorded
    · have first : (middle.world.locate cause path locations :: errors).Perm
          (errors ++ [middle.world.locate cause path locations]) :=
        (List.perm_append_singleton _ _).symm
      exact first.subperm.trans (among.append (List.Subperm.refl _))
    · exact (congrArg (· ++ _) same).trans (List.append_assoc ..)
  keeps identity held :=
    (below.keeps identity held).recordError fun _ _ => World.isSome_path_locate
  places identity trial among fails := by
    rcases List.mem_cons.mp among with rfl | there
    · obtain ⟨fault, outcome, stored⟩ := fails
      cases outcome
      exact Executor.hasPlace_recordError rfl
        ((middle.world.settleFault_keeps fault).1.trans stored) rfl
    · exact (below.places identity trial there fails).recordError fun _ _ =>
        World.isSome_path_locate
  stale identity held trial among fails := by
    rcases List.mem_cons.mp among with rfl | there
    · exact Trial.isFresh_of_hasPlace fails (below.keeps identity held)
    · exact below.stale identity held trial there fails
  once := by
    refine List.pairwise_cons.mpr ⟨fun other there identity fails failsToo => Or.inl ?_, below.once⟩
    exact Trial.isFresh_of_hasPlace fails (below.places identity other there failsToo)

/-- A position that was completed records nothing itself. -/
theorem succeed {path : Path} {position : Position} (below : before.Recounts tried middle) :
    before.Recounts (⟨path, .ok position, middle⟩ :: tried) middle where
  recorded := below.recorded
  keeps := below.keeps
  places identity trial among fails := by
    rcases List.mem_cons.mp among with rfl | there
    · obtain ⟨_, outcome, _⟩ := fails
      cases outcome
    · exact below.places identity trial there fails
  stale identity held trial among fails := by
    rcases List.mem_cons.mp among with rfl | there
    · obtain ⟨_, outcome, _⟩ := fails
      cases outcome
    · exact below.stale identity held trial there fails
  once := by
    refine List.pairwise_cons.mpr ⟨fun other there identity fails _ => ?_, below.once⟩
    obtain ⟨_, outcome, _⟩ := fails
    cases outcome

/-- Nothing was tried, and neither errors nor places have changed. -/
theorem of_same (errors : after.errors = before.errors)
    (located : after.world.located = before.world.located) : before.Recounts [] after := by
  refine of_idle (errors.trans (List.append_nil _).symm) fun identity held => ?_
  unfold Executor.HasPlace World.placeOf?
  rwa [located]

/-- An error that no user code gave is recorded for no position that was tried. -/
theorem recordError {error : FieldError} (own : error.cause.given? = none) :
    before.Recounts [] (before.recordError error) := by
  refine of_idle rfl fun _ held => held.recordError fun fault given => ?_
  rw [given] at own
  cases own

theorem then_idle (recounts : before.Recounts tried middle) (idle : middle.Recounts [] after) :
    before.Recounts tried after := by
  have both := recounts.append idle
  rwa [List.append_nil] at both

theorem timeOut (running : Nat) : before.Recounts [] (before.timeOut running) := by
  refine of_same (Executor.errors_forceStop ..) ?_
  unfold Executor.timeOut Executor.forceStop
  split <;> rfl

end Executor.Recounts

/-! ## Parts -/

/-- Wherever a part begins, it comes about as what it tries says. -/
def Exec.Recounts (part : Exec σ α) (trials : Trials σ) : Prop :=
  ∀ before : Executor σ, before.Recounts (trials before) (part.runFrom before).2

/-- An attempt that comes about as what it tries says, also where it fails. -/
abbrev Attempt.Recounts (attempt : Attempt σ α) (trials : Trials σ) : Prop :=
  Exec.Recounts attempt.run trials

namespace Exec.Recounts

variable {part : Exec σ α} {next : α → Exec σ β} {trials below : Trials σ}

/-- A part that tries nothing, records nothing and takes no place back. -/
theorem of_passive (errorless : part.IsErrorless)
    (keeps : ∀ identity, part.KeepsPlace identity) : part.Recounts .none :=
  fun before => .of_idle ((errorless before).trans (List.append_nil _).symm) fun identity =>
    keeps identity before

protected theorem pure (result : α) : (pure result : Exec σ α).Recounts .none :=
  fun before => .refl before

protected theorem halt (why : Halt) : (Exec.halt why : Exec σ α).Recounts .none :=
  fun before => .refl before

/-- What comes after a part tries nothing. -/
protected theorem bind (recounts : part.Recounts trials)
    (idle : ∀ result, (next result).Recounts .none) : (part >>= next).Recounts trials := by
  intro before
  have first := recounts before
  rcases ran : part.runFrom before with ⟨why | result, middle⟩
  · rw [runFrom_bind_error ran]
    rwa [ran] at first
  · rw [runFrom_bind_ok ran]
    rw [ran] at first
    exact first.then_idle (idle result middle)

theorem map {change : α → β} (recounts : part.Recounts trials) :
    (change <$> part).Recounts trials := by
  intro before
  rw [runFrom_map]
  exact recounts before

protected theorem mapM {items : List α} {part : α → Exec σ β}
    (idle : ∀ item, (part item).Recounts .none) : (items.mapM part).Recounts .none := by
  induction items with
  | nil => exact .pure _
  | cons item rest ih =>
    rw [List.mapM_cons]
    exact (idle item).bind fun _ => ih.bind fun _ => .pure _

/-- A position is tried, and has an error if it fails. -/
theorem position {attempt : Attempt σ Position} (recounts : attempt.Recounts below) (ref : TypeRef)
    (path : Path) (locations : List Location) :
    (Attempt.position ref path locations attempt).Recounts (.attempt path attempt below) := by
  intro before
  have first := recounts before
  unfold Attempt.position Trials.attempt
  rcases ran : runFrom attempt.run before with ⟨why | cause | position, middle⟩
  · rw [runFrom_bind_error ran]
    rwa [ran] at first
  · rw [runFrom_bind_ok ran]
    rw [ran] at first
    exact first.fail locations
  · rw [runFrom_bind_ok ran]
    rw [ran] at first
    exact first.succeed

/-- Parts in turn try what each of them tries. The induction is on the parts; those that are left
begin with the executor that the first one leaves. -/
theorem attemptEach {ι : Type} {part : ι → Exec σ α} {trials : ι → Trials σ}
    (each : ∀ entry, (part entry).Recounts (trials entry)) (entries : List ι)
    (before : Executor σ) :
    before.Recounts (Trials.inTurn (entries.map fun entry => (part entry, trials entry)) before)
      ((Exec.attemptEach (entries.map part)).run before).2 := by
  induction entries generalizing before with
  | nil => exact .refl before
  | cons entry rest ih =>
    rw [List.map_cons, List.map_cons, run_attemptEach_cons]
    refine Executor.Recounts.append ?_ (ih _)
    rw [runFrom_bind, runFrom_checkpoint]
    cases before.isStopping with
    | true => exact .refl before
    | false => exact each entry before

end Exec.Recounts

namespace Attempt.Recounts

variable {attempt : Attempt σ α} {next : α → Attempt σ β} {trials : Trials σ}
  {below : α → Trials σ}

/-- What comes after an attempt that tries nothing is what is tried. -/
theorem after (idle : attempt.Recounts .none)
    (goesOn : ∀ result, (next result).Recounts (below result)) :
    (attempt >>= next).Recounts (.after attempt below) := by
  intro before
  have first := idle before
  unfold Trials.after
  rw [ExceptT.run_bind]
  rcases ran : Exec.runFrom attempt.run before with ⟨why | cause | result, middle⟩
  · rw [Exec.runFrom_bind_error ran]
    rwa [ran] at first
  · rw [Exec.runFrom_bind_ok ran]
    rwa [ran] at first
  · rw [Exec.runFrom_bind_ok ran]
    rw [ran] at first
    exact first.append (goesOn result middle)

theorem map {change : α → β} (recounts : attempt.Recounts trials) :
    (change <$> attempt).Recounts trials := by
  unfold Attempt.Recounts
  rw [ExceptT.run_map]
  exact Exec.Recounts.map recounts

end Attempt.Recounts

/-! ## Executions -/

namespace Environment

variable {env : Environment σ} {root object : ObjectType} {target : Target}
  {execute : ObjectExecution σ} {inside : ObjectTrials σ}

theorem head_recounts (name : String) (value : Value) : (env.head name value).Recounts .none :=
  .of_passive (env.errorless_head name value) fun _ => env.head_keepsPlace name value

theorem fetch_recounts (target : Target) (object : ObjectType) (parent : Value) (path : Path) :
    (env.fetch target object parent path).Recounts .none :=
  .of_passive (env.errorless_fetch target object parent path) fun _ =>
    env.fetch_keepsPlace target object parent path

theorem itemsOf_recounts (target : Target) (value : Value) :
    Attempt.Recounts (itemsOf target value : Attempt σ (List Value)) .none :=
  .of_passive (itemsOf_quiet target value).isErrorless fun _ => itemsOf_keepsPlace target value

theorem awaitItem_recounts (raw : Value) :
    Attempt.Recounts (awaitItem raw : Attempt σ Value) .none :=
  .of_passive (awaitItem_quiet raw).isErrorless fun _ => awaitItem_keepsPlace raw

variable (env) in
theorem collectGroups_recounts (object : ObjectType) (selections : List (List Selection)) :
    (env.collectGroups object selections).Recounts .none :=
  .of_passive (env.collectGroups_quiet object selections).isErrorless fun _ =>
    env.collectGroups_keepsPlace object selections

theorem completeNull_recounts (target : Target) (required : Bool) :
    Attempt.Recounts (complete.completeNull target required : Attempt σ Position) .none := by
  unfold complete.completeNull
  split
  · exact .pure _
  · exact .pure _

/-- Parts that belong together try what each of them tries in turn. -/
theorem together_recounts {ι : Type} {positionOf : α → Position} {part : ι → Exec σ α}
    {trials : ι → Trials σ} (each : ∀ entry, (part entry).Recounts (trials entry))
    (entries : List ι) : (together positionOf (entries.map part)).Recounts
      (.inTurn (entries.map fun entry => (part entry, trials entry))) := by
  intro before
  rw [runFrom_together_snd]
  exact Exec.Recounts.attemptEach each entries before

/-- Completing a value tries the positions in it. The induction is on the type, whose lists try
their items. -/
theorem complete_recounts
    (objects : ∀ object value selections path,
      (execute object value selections path).Recounts (inside object value selections path))
    (target : Target) (ref : TypeRef) (path : Path) (value : Value) :
    (env.complete execute target ref path value).Recounts
      (env.valueTrials execute inside target ref path value) := by
  induction ref generalizing path value with
  | named name required =>
    unfold complete valueTrials
    split
    · exact completeNull_recounts target required
    · rw [completeNamed_eq]
      refine (head_recounts name value).after fun head => ?_
      cases head with
      | leaf position => exact .pure _
      | object type value => exact .map (objects type value _ path)
  | list item required ih =>
    cases present : value.isNull with
    | true =>
      unfold complete valueTrials
      rw [present]
      exact completeNull_recounts target required
    | false =>
      unfold valueTrials
      rw [present, if_neg Bool.false_ne_true, complete_list present]
      refine (itemsOf_recounts target value).after fun items => .map ?_
      rw [List.mapIdx_eq_zipIdx_map]
      refine together_recounts (fun entry => ?_) items.zipIdx
      refine Exec.Recounts.position ?_ item _ _
      exact (awaitItem_recounts entry.1).after fun awaited => ih _ awaited

/-- A group of selections tries its position, and what is below. -/
theorem executeGroup_recounts
    (objects : ∀ object value selections path,
      (execute object value selections path).Recounts (inside object value selections path))
    (object : ObjectType) (parent : Value) (path : Path) (group : FieldGroup) :
    (env.executeGroup execute object parent path group).Recounts
      (env.groupTrials execute inside object parent path group) := by
  obtain ⟨ref, same⟩ := env.exists_executeGroup_eq parent path group
  rw [same]
  refine .position ?_ ref path group.locations
  unfold attemptGroup
  cases env.registry.field? (.object object) group.first.name with
  | none => exact .pure _
  | some field =>
    refine (fetch_recounts _ object parent path).after fun value => ?_
    exact complete_recounts objects _ field.type path value

/-- Executing objects tries the positions of their fields, at whatever depth they are nested. -/
theorem executeObject_recounts (depth : Nat) (object : ObjectType) (parent : Value)
    (selections : List (List Selection)) (path : Path) :
    (env.executeObject depth object parent selections path).Recounts
      (env.objectTrials depth object parent selections path) := by
  induction depth generalizing object parent selections path with
  | zero => exact .halt _
  | succ depth ih =>
    unfold executeObject objectTrials
    refine (env.collectGroups_recounts object selections).after fun groups => ?_
    refine together_recounts (fun group => .map ?_) groups
    exact executeGroup_recounts ih object parent _ group

variable (env) in
theorem rootField_recounts (root : ObjectType) (group : FieldGroup) :
    (env.executeRootField root group).Recounts (env.rootFieldTrials root group) :=
  executeGroup_recounts (executeObject_recounts _) root _ _ group

/-- A stop keeps everything from being tried. -/
theorem inTurn_of_stopping {ι : Type} {part : ι → Exec σ α} {trials : ι → Trials σ}
    (entries : List ι) {before : Executor σ} (stopping : before.isStopping = true) :
    Trials.inTurn (entries.map fun entry => (part entry, trials entry)) before = [] := by
  induction entries with
  | nil => rfl
  | cons entry rest ih =>
    rw [List.map_cons, Trials.inTurn]
    dsimp only
    rw [Exec.runFrom_bind, Exec.runFrom_checkpoint, stopping]
    exact ih

variable (env root) in
/-- The root fields of a query are tried. -/
theorem runQuery_recounts (groups : List FieldGroup) (before : Executor σ) :
    before.Recounts (env.queryTrials root groups before)
      ((env.runQuery root groups).run before).2 := by
  rw [run_runQuery]
  unfold queryTrials
  cases stopping : before.isStopping with
  | true =>
    have stopped : (before.start groups.length).isStopping = true := stopping
    rw [inTurn_of_stopping groups stopped]
    exact .refl before
  | false =>
    rw [if_neg Bool.false_ne_true]
    dsimp only
    have started : before.Recounts [] (before.start groups.length) := .of_same rfl rfl
    have together := Exec.Recounts.attemptEach (env.rootField_recounts root) groups
      (before.start groups.length)
    rw [← run_runTogether_snd] at together
    refine (started.append together).then_idle ?_
    obtain ⟨_, _, ran | ran⟩ := env.run_giveUp_cases
      ((env.runTogether root groups).run (before.start groups.length)).1
      ((env.runTogether root groups).run (before.start groups.length)).2
    · rw [ran]
      exact .refl _
    · rw [ran]
      exact .timeOut _

variable (env root) in
/-- The root fields of a mutation are tried. The induction is on the fields still to run. -/
theorem runMutation_recounts (groups : List FieldGroup) (before : Executor σ) :
    before.Recounts (env.mutationTrials root groups before)
      ((env.runMutation root groups).run before).2 := by
  induction groups generalizing before with
  | nil => exact .refl before
  | cons group rest ih =>
    rw [run_runMutation_cons]
    unfold mutationTrials
    cases stopping : before.isStopping with
    | true => exact .refl before
    | false =>
      rw [if_neg Bool.false_ne_true, if_neg Bool.false_ne_true]
      dsimp only
      have started : before.Recounts [] (before.start 1) := .of_same rfl rfl
      have first : (before.start 1).Recounts (env.rootFieldTrials root group (before.start 1))
          ((env.runRootField root group).run (before.start 1)).2 := by
        have recounts := env.rootField_recounts root group (before.start 1)
        have running : (before.start 1).isStopping = false := stopping
        rwa [run_runRootField_snd,
          Exec.runFrom_bind_ok (Exec.runFrom_checkpoint_of_running running)]
      refine (started.append first).append ?_
      cases waiting : isWaiting ((env.runRootField root group).run (before.start 1)).1 with
      | true =>
        rw [if_pos rfl, env.run_goOn_of_waiting root waiting]
        dsimp only
        split
        · exact .timeOut 1
        · exact .refl _
      | false =>
        rw [if_neg Bool.false_ne_true, env.run_goOn_of_ended root waiting]
        exact ih _

variable (env root) in
theorem runRootFields_recounts (groups : List FieldGroup) (before : Executor σ) :
    before.Recounts (env.rootFieldsTrials root groups before)
      ((env.runRootFields root groups).run before).2 := by
  unfold rootFieldsTrials runRootFields
  cases env.request.operation.kind with
  | mutation => exact env.runMutation_recounts root groups before
  | query | subscription => exact env.runQuery_recounts root groups before

/-- Where there are no root fields, nothing is tried. -/
theorem rootFieldsTrials_nil (before : Executor σ) : env.rootFieldsTrials root [] before = [] := by
  unfold rootFieldsTrials
  cases env.request.operation.kind with
  | _ => rfl

theorem given?_interruption (settings : Settings) (executor : Executor σ) :
    (executor.interruption settings).given? = none := by
  unfold Executor.interruption
  split <;> rfl

/-- The data is assembled from root fields that have been tried. -/
theorem assemble_recounts (root : ObjectType) (groups : List FieldGroup)
    (outcomes : List RootOutcome) :
    (env.assemble root groups outcomes).Recounts .none := by
  have positions : ∀ pair : FieldGroup × RootOutcome,
      (env.rootPosition root pair.1 pair.2).Recounts .none := by
    rintro ⟨group, outcome⟩
    cases outcome with
    | unfinished => exact fun before => .recordError (given?_interruption _ before)
    | _ => exact fun before => .refl before
  unfold assemble
  split
  · exact .halt _
  · split
    · exact fun before => .recordError (given?_interruption _ before)
    · exact Exec.Recounts.bind (.mapM positions) fun _ => .pure _

theorem executeRoot_recounts (root : ObjectType) :
    (env.executeRoot root).Recounts
      (.after (env.collectGroups root [env.request.operation.selections])
        (env.rootFieldsTrials root)) := by
  intro before
  have first := env.collectGroups_recounts root [env.request.operation.selections] before
  unfold executeRoot Trials.after
  rcases ran : Exec.runFrom (env.collectGroups root [env.request.operation.selections]).run before
    with ⟨why | cause | groups, middle⟩
  · rw [Exec.runFrom_bind_error ran]
    rwa [ran] at first
  · rw [Exec.runFrom_bind_ok ran]
    rw [ran] at first
    obtain ⟨failure, rfl⟩ := exists_coercion_of_rootGroups ran
    exact first.then_idle (.recordError rfl)
  · rw [Exec.runFrom_bind_ok ran]
    rw [ran] at first
    refine first.append ?_
    dsimp only
    split
    · next empty =>
      have untried : middle.Recounts (env.rootFieldsTrials root groups middle) middle := by
        rw [List.isEmpty_iff.mp empty, rootFieldsTrials_nil]
        exact .refl middle
      exact untried
    · exact (env.runRootFields_recounts root groups middle).then_idle
        (assemble_recounts root groups _ _)

variable (env) in
/-- Executing the operation tries the positions of its response. -/
theorem execute_recounts (before : Executor σ) :
    before.Recounts (env.trials before) (env.execute.runFrom before).2 := by
  unfold trials
  cases found : env.rootType? with
  | none =>
    rw [runFrom_execute_of_none found]
    exact .refl before
  | some root =>
    have begun : before.Recounts [] (env.begun root before) := .of_same rfl rfl
    rw [runFrom_execute_of_some found]
    refine (begun.append (executeRoot_recounts root _)).then_idle ?_
    exact .of_same rfl rfl

/-- **A shared error object locates one failure.** Whatever user code raises or returns, each
position that fails has an error of its own among those that the execution adds to the result: it
shows why the position failed, at the path of the position if the error object had no path by then,
and otherwise at the path that the object had. Of two positions that fail with one object, one at
least finds it with a path. So the object locates one of them at most. -/
theorem execute_reports_shared {before after : Executor σ} {result : ExecutionResult}
    (ran : env.execute.runFrom before = (.ok result, after)) :
    (∃ entries,
      List.Forall₂ Trial.IsReportedAs ((env.trials before).filter Trial.failed) entries ∧
        entries.Subperm (result.errors.drop before.errors.length)) ∧
      (env.trials before).Pairwise Trial.OneIsStale := by
  have recounts := env.execute_recounts before
  rw [ran] at recounts
  obtain ⟨errors, noted, recorded, among, same⟩ := recounts.recorded
  refine ⟨?_, recounts.once⟩
  cases found : env.rootType? with
  | none =>
    have untried : env.trials before = [] := by
      unfold trials
      rw [found]
    rw [untried]
    exact ⟨[], .nil, List.nil_subperm⟩
  | some root =>
    obtain ⟨data, rfl⟩ : ∃ data, result = resultOf after data := by
      rw [runFrom_execute_of_some found] at ran
      rcases executed : (env.executeRoot root).runFrom (env.begun root before) with
        ⟨why | data, ended⟩
      · rw [executed] at ran
        cases ran
      · rw [executed] at ran
        cases ran
        exact ⟨data, rfl⟩
    refine ⟨errors.map after.world.settle, ?_, ?_⟩
    · exact List.forall₂_map_right_iff.mpr
        (recorded.imp fun _ _ recorded => recorded.isReportedAs after.world)
    · obtain ⟨own, permuted, within⟩ := among
      rw [drop_errors_resultOf same]
      exact ⟨own.map after.world.settle, permuted.map _, within.map _⟩

/-- An object type with one number, which is read from what its parent has. -/
def noteQuery : ObjectType where
  name := "Query"
  fields := [{ name := "note", type := .named "Int" }]

/-- A schema with a query for that number. -/
def noteSchema : Schema where
  query := some (.definition (.object noteQuery))

/-- The registry of that schema. -/
def noteRegistry : Registry :=
  noteSchema.tableWithin 100

theorem accepted_noteRegistry : noteRegistry.Accepted :=
  Schema.accepted_of_soundWithin (by decide +kernel)

/-- An error object that is stored. -/
def storedNote : Fault where
  kind := .graphQL
  message := "boom"
  identity := some 0

/-- A query that reads the number twice, under two aliases, from a mapping that has the error object
in its place. -/
def noting : Environment Unit where
  registry := noteRegistry
  behaviour := {
    resolve := fun _ _ _ _ => .finish .null
    hook := fun _ value => .ok value
    convert := fun _ value => .ok value }
  request := {
    operation := {
      selections := [
        .field "note" (some "first") [] [] none [], .field "note" (some "second") [] [] none []] }
    root := .map [("note", .fault storedNote)] }

/-- Both failures are reported, at the path of the first one. -/
theorem execute_reports_shared_note :
    ∃ result after, noteRegistry.Accepted ∧
      noting.execute.runFrom { world := { user := () } } = (.ok result, after) ∧
      result.errors.map FieldError.path = [some [.key "first"], some [.key "first"]] ∧
      (∃ entries,
        List.Forall₂ Trial.IsReportedAs
          ((noting.trials { world := { user := () } }).filter Trial.failed) entries ∧
          entries.Subperm (result.errors.drop 0)) ∧
      (noting.trials { world := { user := () } }).Pairwise Trial.OneIsStale := by
  have ran : ∃ result after,
      noting.execute.runFrom { world := { user := () } } = (.ok result, after) ∧
        result.errors.map FieldError.path = [some [.key "first"], some [.key "first"]] :=
    ⟨_, _, rfl, rfl⟩
  obtain ⟨result, after, ran, paths⟩ := ran
  exact ⟨result, after, accepted_noteRegistry, ran, paths, execute_reports_shared ran⟩

/-- The second position fails with the same error object, which had no path before the execution,
and has no error at its own path. -/
theorem execute_misplaces_shared :
    ∃ result after first second, noteRegistry.Accepted ∧ storedNote.path = none ∧
      noting.execute.runFrom { world := { user := () } } = (.ok result, after) ∧
      after.isStopping = false ∧
      noting.trials { world := { user := () } } = [first, second] ∧
      first.FailsWith 0 ∧ second.FailsWith 0 ∧
      first.path = [.key "first"] ∧ second.path = [.key "second"] ∧
      some [.key "second"] ∉ result.errors.map FieldError.path := by
  refine ⟨_, _, _, _, accepted_noteRegistry, rfl, rfl, rfl, rfl, ⟨_, rfl, rfl⟩, ⟨_, rfl, rfl⟩,
    rfl, rfl, ?_⟩
  decide

end Environment

end GraphQL
