import GraphQL.Proofs.Execution
import GraphQL.Proofs.Rewriting
import GraphQL.Proofs.RootDisruption

/-!
# Fragments as notation

An operation whose fragments do not lead back into themselves can be expanded, and executing the
expanded operation comes to the same: the same calls of resolvers in the same order, the same data
and the same errors, but for the places of errors in the source text. Only user code that keeps
error objects can tell the two apart, as such an object shows the places that it got.
-/

namespace GraphQL

variable {σ α β γ δ : Type}

open Position

namespace Environment

variable {env : Environment σ} {root : ObjectType} {selections : List Selection}
  {fragments : Entries Fragment} {rank : String → Nat}

/-! ## Root fields -/

/-- What became of a root field shows the same data. -/
inductive RootShows : RootOutcome → RootOutcome → Prop where
  | finished {position other : Position} :
      Shows position other → RootShows (.finished position) (.finished other)
  | same (outcome : RootOutcome) : RootShows outcome outcome

theorem RootShows.isWaiting_eq {outcome other : RootOutcome} (shows : RootShows outcome other) :
    isWaiting outcome = isWaiting other := by
  cases shows <;> rfl

theorem RootShows.isUnfinished_eq {outcome other : RootOutcome} (shows : RootShows outcome other) :
    isUnfinished outcome = isUnfinished other := by
  cases shows <;> rfl

theorem rootOutcome_shows {outcome other : Except Halt Position}
    (alike : Exec.Alike Shows outcome other) (stopping : Bool) :
    RootShows (rootOutcome stopping outcome) (rootOutcome stopping other) := by
  cases alike with
  | error why => exact .same _
  | ok shows =>
    unfold rootOutcome
    dsimp only
    rw [shows.data]
    split
    · exact .same _
    · exact .finished shows

/-- What cannot halt goes on as a part. -/
theorem lift_bind_retraces {part : StateM (Executor σ) α} {other : StateM (Executor σ) β}
    {next : α → StateM (Executor σ) γ} {otherNext : β → StateM (Executor σ) δ}
    {related : α → β → Prop} {later : γ → δ → Prop}
    (retraced : Exec.Retraces related (liftM part : Exec σ α) (liftM other))
    (grows : ∀ result, (liftM (next result) : Exec σ γ).Grows)
    (goesOn : ∀ one two, related one two →
      Exec.Retraces later (liftM (next one) : Exec σ γ) (liftM (otherNext two))) :
    Exec.Retraces later (liftM (part >>= next) : Exec σ γ) (liftM (other >>= otherNext)) := by
  have same :
      (liftM (part >>= next) : Exec σ γ) = liftM part >>= fun result => liftM (next result) := rfl
  have otherSame : (liftM (other >>= otherNext) : Exec σ δ) =
      liftM other >>= fun result => liftM (otherNext result) := rfl
  rw [same, otherSame]
  exact retraced.bind grows goesOn

/-- What cannot halt, and whose result both go on with. -/
theorem lift_bind_same {part : StateM (Executor σ) α} {next : α → StateM (Executor σ) γ}
    {otherNext : α → StateM (Executor σ) δ} {later : γ → δ → Prop}
    (retraced : Exec.Retraces Eq (liftM part : Exec σ α) (liftM part))
    (goesOn : ∀ result,
      Exec.Retraces later (liftM (next result) : Exec σ γ) (liftM (otherNext result))) :
    Exec.Retraces later (liftM (part >>= next) : Exec σ γ) (liftM (part >>= otherNext)) :=
  lift_bind_retraces retraced (fun result => (goesOn result).grows)
    fun _ _ same => same ▸ goesOn _

/-- What parts that cannot halt do after a look at executors. -/
theorem lift_get_retraces {next : Executor σ → StateM (Executor σ) γ}
    {otherNext : Executor σ → StateM (Executor σ) δ} {later : γ → δ → Prop}
    (goesOn : ∀ one two : Executor σ, one.shared = two.shared →
      Exec.Retraces later (liftM (next one) : Exec σ γ) (liftM (otherNext two))) :
    Exec.Retraces later (liftM (get >>= next) : Exec σ γ) (liftM (get >>= otherNext)) :=
  Exec.RetracesBy.get_bind goesOn

theorem lift_bind_grows {part : StateM (Executor σ) α} {next : α → StateM (Executor σ) γ}
    (first : (liftM part : Exec σ α).Grows)
    (grows : ∀ result, (liftM (next result) : Exec σ γ).Grows) :
    (liftM (part >>= next) : Exec σ γ).Grows := by
  have same :
      (liftM (part >>= next) : Exec σ γ) = liftM part >>= fun result => liftM (next result) := rfl
  rw [same]
  exact first.bind grows

/-- A group at the root and its expanded likeness. -/
abbrev RootUnfolds (env : Environment σ) (rank : String → Nat) (selections : List Selection)
    (fragments : Entries Fragment) (group likewise : FieldGroup) : Prop :=
  env.GroupUnfolds rank env.request.depthBound
    (env.asking selections fragments).request.depthBound group likewise

theorem rootField_retraces (ignores : env.IgnoresOperation) (accepted : env.registry.Accepted)
    (ranked : env.Ranked rank) {depth budget : Nat} {group likewise : FieldGroup}
    (unfolds : env.GroupUnfolds rank depth budget group likewise) (value : Value) :
    Exec.Retraces Shows
      (env.executeGroup (env.executeObject depth) root value (rootPath group) group)
      ((env.asking selections fragments).executeGroup
        ((env.asking selections fragments).executeObject budget) root value (rootPath likewise)
        likewise) := by
  have key : group.key = likewise.key := unfolds.resembles.first.responseKey
  have path : rootPath likewise = rootPath group := by
    unfold rootPath
    rw [key]
  rw [path]
  refine executeGroup_retraces ignores ?_ unfolds.resembles root value _
  exact fun object value path =>
    executeObject_retraces ignores accepted ranked unfolds.below object value path

theorem runRootField_retraces (ignores : env.IgnoresOperation) (accepted : env.registry.Accepted)
    (ranked : env.Ranked rank) {group likewise : FieldGroup}
    (unfolds : env.RootUnfolds rank selections fragments group likewise) :
    Exec.Retraces RootShows (liftM (env.runRootField root group) : Exec σ RootOutcome)
      (liftM ((env.asking selections fragments).runRootField root likewise)) := by
  obtain ⟨grows, follows⟩ : Exec.Retraces Shows
      (env.executeGroup (env.executeObject env.request.depthBound) root env.request.root
        (rootPath group) group) _ :=
    rootField_retraces ignores accepted ranked unfolds env.request.root
  have ended : ∀ ran other : Except Halt Position × Executor σ,
      ran.2.shared = other.2.shared → Exec.Alike Shows ran.1 other.1 →
        RootShows (rootOutcome ran.2.isStopping ran.1)
          (rootOutcome other.2.isStopping other.1) := by
    intro ran other shared alike
    rw [Executor.isStopping_of_shared shared]
    exact rootOutcome_shows alike _
  constructor
  · intro before
    rw [Exec.runFrom_lift, run_runRootField]
    split
    · exact List.prefix_refl _
    · exact grows before
  · intro one two shared own
    rw [Exec.runFrom_lift, run_runRootField] at own
    rw [Exec.runFrom_lift, Exec.runFrom_lift, run_runRootField, run_runRootField]
    have same := Executor.isStopping_of_shared shared
    cases stopping : one.isStopping with
    | true =>
      rw [if_pos rfl, if_pos (same.symm.trans stopping)]
      exact ⟨.refl shared, .ok (.same _)⟩
    | false =>
      rw [stopping, if_neg Bool.false_ne_true] at own
      rw [if_neg Bool.false_ne_true, if_neg (by rw [← same, stopping]; exact Bool.false_ne_true)]
      obtain ⟨left, alike⟩ := follows one two shared own
      exact ⟨left, .ok (ended _ _ left.shared alike)⟩

variable {groups likewise : List FieldGroup} {outcomes others : List RootOutcome}

theorem runTogether_retraces (ignores : env.IgnoresOperation) (accepted : env.registry.Accepted)
    (ranked : env.Ranked rank)
    (unfold : List.Forall₂ (env.RootUnfolds rank selections fragments) groups likewise) :
    Exec.Retraces (List.Forall₂ RootShows)
      (liftM (env.runTogether root groups) : Exec σ (List RootOutcome))
      (liftM ((env.asking selections fragments).runTogether root likewise)) := by
  induction unfold with
  | nil => exact .pure .nil
  | cons first _ ih =>
    refine lift_bind_retraces (runRootField_retraces ignores accepted ranked first)
      (fun outcome => ?_) fun _ _ shows => ?_
    · exact lift_bind_grows ih.grows fun _ => (Exec.IsQuiet.pure _).grows
    · exact lift_bind_retraces ih (fun _ => (Exec.IsQuiet.pure _).grows)
        fun _ _ rest => .pure (.cons shows rest)

theorem timeOut_retraces (count : Nat) :
    Exec.Retraces Eq (modify (Executor.timeOut count) : Exec σ PUnit)
      (modify (Executor.timeOut count)) := by
  have quiet : Exec.IsQuiet (modify (Executor.timeOut count) : Exec σ PUnit) := by
    refine .modify fun executor => ?_
    unfold Executor.timeOut Executor.forceStop
    split <;> exact ⟨rfl, rfl⟩
  exact .of_quiet (timeOut_blind count) quiet quiet

/-- Giving up the root fields that wait. -/
theorem forall₂_map_shows {change : RootOutcome → RootOutcome}
    (stays : ∀ outcome, isWaiting outcome = false → change outcome = outcome)
    (shows : List.Forall₂ RootShows outcomes others) :
    List.Forall₂ RootShows (outcomes.map change) (others.map change) := by
  rw [List.forall₂_map_left_iff, List.forall₂_map_right_iff]
  refine shows.imp fun _ _ shows => ?_
  cases shows with
  | same => exact .same _
  | finished shows =>
    rw [stays _ rfl, stays _ rfl]
    exact .finished shows

theorem expire_of_isWaiting {outcome : RootOutcome} (ended : isWaiting outcome = false) :
    env.expire outcome = outcome := by
  unfold expire
  rw [ended]
  rfl

theorem map_isWaiting_of_shows (shows : List.Forall₂ RootShows outcomes others) :
    outcomes.map isWaiting = others.map isWaiting := by
  induction shows with
  | nil => rfl
  | cons first _ ih => rw [List.map_cons, List.map_cons, ih, first.isWaiting_eq]

theorem start_retraces (count : Nat) :
    Exec.Retraces Eq (modify (Executor.start count) : Exec σ PUnit)
      (modify (Executor.start count)) :=
  .of_quiet (.modify fun _ => rfl) (.modify fun _ => ⟨rfl, rfl⟩) (.modify fun _ => ⟨rfl, rfl⟩)

/-- Root fields that never began are unfinished either way. -/
theorem unfinished_shows (length : groups.length = likewise.length) :
    List.Forall₂ RootShows (groups.map fun _ => RootOutcome.unfinished)
      (likewise.map fun _ => .unfinished) := by
  rw [List.map_const', List.map_const', length]
  exact List.forall₂_same.mpr fun outcome _ => .same outcome

/-- Root fields of a query that wait forever are given up alike. -/
theorem giveUp_retraces (shows : List.Forall₂ RootShows outcomes others) :
    Exec.Retraces (List.Forall₂ RootShows)
      (liftM (env.giveUp outcomes) : Exec σ (List RootOutcome))
      (liftM (env.giveUp others)) := by
  have waiting : outcomes.countP isWaiting = others.countP isWaiting := by
    have same := congrArg (List.countP id) (map_isWaiting_of_shows shows)
    rwa [List.countP_map, List.countP_map] at same
  unfold giveUp
  dsimp only
  rw [waiting]
  split
  · exact .pure shows
  · refine lift_get_retraces fun one two shared => ?_
    rw [Executor.isStopping_of_shared shared]
    have expired : List.Forall₂ RootShows (outcomes.map env.expire) (others.map env.expire) :=
      forall₂_map_shows (fun _ => expire_of_isWaiting) shows
    split
    · refine .pure (forall₂_map_shows (fun outcome ended => ?_) shows)
      rw [ended]
      rfl
    · split
      · exact lift_bind_same (timeOut_retraces _) fun _ => .pure expired
      · exact .pure expired

theorem runQuery_retraces (ignores : env.IgnoresOperation) (accepted : env.registry.Accepted)
    (ranked : env.Ranked rank)
    (unfold : List.Forall₂ (env.RootUnfolds rank selections fragments) groups likewise) :
    Exec.Retraces (List.Forall₂ RootShows)
      (liftM (env.runQuery root groups) : Exec σ (List RootOutcome))
      (liftM ((env.asking selections fragments).runQuery root likewise)) := by
  unfold runQuery
  refine lift_get_retraces fun one two shared => ?_
  rw [Executor.isStopping_of_shared shared]
  split
  · exact .pure (unfinished_shows unfold.length_eq)
  · rw [unfold.length_eq]
    refine lift_bind_same (start_retraces _) fun _ => ?_
    refine lift_bind_retraces (runTogether_retraces ignores accepted ranked unfold)
      (fun outcomes => ?_) fun _ _ shows => giveUp_retraces shows
    exact (giveUp_retraces (List.forall₂_same.mpr fun outcome _ => .same outcome)).grows

/-- A mutation goes on alike after root fields that show the same. -/
theorem goOn_retraces {rest others : List FieldGroup} {outcome other : RootOutcome}
    (unfinished : List.Forall₂ RootShows (rest.map fun _ => RootOutcome.unfinished)
      (others.map fun _ => .unfinished))
    (later : Exec.Retraces (List.Forall₂ RootShows)
      (liftM (env.runMutation root rest) : Exec σ (List RootOutcome))
      (liftM ((env.asking selections fragments).runMutation root others)))
    (shows : RootShows outcome other) :
    Exec.Retraces (List.Forall₂ RootShows)
      (liftM (env.goOn root rest outcome) : Exec σ (List RootOutcome))
      (liftM ((env.asking selections fragments).goOn root others other)) := by
  have settings : (env.asking selections fragments).request.settings = env.request.settings := rfl
  unfold goOn
  rw [settings, shows.isWaiting_eq]
  cases waiting : isWaiting other with
  | true =>
    have expired : RootShows (env.expire outcome) (env.expire other) := by
      unfold expire
      rw [shows.isWaiting_eq]
      split
      · exact .same _
      · exact shows
    rw [if_pos rfl, if_pos rfl]
    split
    · exact lift_bind_same (timeOut_retraces 1) fun _ => .pure (.cons expired unfinished)
    · exact .pure (.cons expired unfinished)
  | false =>
    exact lift_bind_retraces later (fun _ => (Exec.IsQuiet.pure _).grows)
      fun _ _ rest => .pure (.cons shows rest)

/-- Root fields of a mutation run one after another. The induction is on the fields still to run. -/
theorem runMutation_retraces (ignores : env.IgnoresOperation) (accepted : env.registry.Accepted)
    (ranked : env.Ranked rank)
    (unfold : List.Forall₂ (env.RootUnfolds rank selections fragments) groups likewise) :
    Exec.Retraces (List.Forall₂ RootShows)
      (liftM (env.runMutation root groups) : Exec σ (List RootOutcome))
      (liftM ((env.asking selections fragments).runMutation root likewise)) := by
  induction unfold with
  | nil => exact .pure .nil
  | @cons group likely rest others first unfoldRest ih =>
    have unfinished : List.Forall₂ RootShows (rest.map fun _ => RootOutcome.unfinished)
        (others.map fun _ => .unfinished) := unfinished_shows unfoldRest.length_eq
    unfold runMutation
    refine lift_get_retraces fun one two shared => ?_
    rw [Executor.isStopping_of_shared shared]
    split
    · exact .pure (.cons (.same _) unfinished)
    · refine lift_bind_same (start_retraces _) fun _ => ?_
      exact lift_bind_retraces (runRootField_retraces ignores accepted ranked first)
        (fun outcome => (goOn_retraces unfinished ih (.same outcome)).grows)
        fun _ _ => goOn_retraces unfinished ih

theorem runRootFields_retraces (ignores : env.IgnoresOperation) (accepted : env.registry.Accepted)
    (ranked : env.Ranked rank)
    (unfold : List.Forall₂ (env.RootUnfolds rank selections fragments) groups likewise) :
    Exec.Retraces (List.Forall₂ RootShows)
      (liftM (env.runRootFields root groups) : Exec σ (List RootOutcome))
      (liftM ((env.asking selections fragments).runRootFields root likewise)) := by
  have kind : (env.asking selections fragments).request.operation.kind =
      env.request.operation.kind := rfl
  unfold runRootFields
  rw [kind]
  split
  · exact runMutation_retraces ignores accepted ranked unfold
  · exact runQuery_retraces ignores accepted ranked unfold
  · exact runQuery_retraces ignores accepted ranked unfold

/-! ## The response -/

/-- Two groups ask for one field under one response key. -/
structure SameField (group likewise : FieldGroup) : Prop where
  key : group.key = likewise.key
  name : group.first.name = likewise.first.name

theorem rootPosition_retraces {group likely : FieldGroup} {outcome other : RootOutcome}
    (same : SameField group likely) (shows : RootShows outcome other) :
    Exec.Retraces EntryShows (env.rootPosition root group outcome)
      ((env.asking selections fragments).rootPosition root likely other) := by
  cases shows with
  | finished shows => exact .pure ⟨same.key, shows⟩
  | same =>
    cases outcome with
    | finished position => exact .pure ⟨same.key, .refl _⟩
    | waiting => exact .halt _
    | escaped origin fault => exact .halt _
    | tooDeep => exact .halt _
    | unfinished =>
      have path : rootPath likely = rootPath group := by
        unfold rootPath
        rw [same.key]
      have required : (env.asking selections fragments).rootRequired root likely =
          env.rootRequired root group := by
        unfold rootRequired
        rw [same.name]
        rfl
      refine .get_bind fun one two shared => ?_
      have cause := Executor.interruption_of_shared shared env.request.settings
      refine Exec.RetracesBy.bind (.record ?_) (fun _ => (Exec.IsQuiet.pure _).grows)
        fun _ _ _ => .pure ⟨same.key, ?_, rfl⟩
      · show FieldError.unplaced _ = FieldError.unplaced _
        rw [cause, path]
        rfl
      · exact congrArg Response.lost required.symm

theorem rootPositions_retraces (same : List.Forall₂ SameField groups likewise)
    (shows : List.Forall₂ RootShows outcomes others) :
    Exec.Retraces (List.Forall₂ EntryShows)
      ((groups.zip outcomes).mapM fun pair => env.rootPosition root pair.1 pair.2)
      ((likewise.zip others).mapM fun pair =>
        (env.asking selections fragments).rootPosition root pair.1 pair.2) := by
  induction same generalizing outcomes others with
  | nil => exact .pure .nil
  | cons first _ ih =>
    cases shows with
    | nil => exact .pure .nil
    | cons here later =>
      rw [List.zip_cons_cons, List.zip_cons_cons, List.mapM_cons, List.mapM_cons]
      have rest := ih later
      refine (rootPosition_retraces first here).bind (fun entry => ?_) fun _ _ entry => ?_
      · exact rest.grows.bind fun _ => (Exec.IsQuiet.pure _).grows
      · exact rest.bind (fun _ => (Exec.IsQuiet.pure _).grows) fun _ _ fields =>
          .pure (.cons entry fields)

theorem assemble_retraces (same : List.Forall₂ SameField groups likewise)
    (shows : List.Forall₂ RootShows outcomes others) :
    Exec.Retraces Eq (env.assemble root groups outcomes)
      ((env.asking selections fragments).assemble root likewise others) := by
  have waiting : outcomes.any isWaiting = others.any isWaiting :=
    Exec.any_eq_of_forall₂ shows fun _ _ shows => shows.isWaiting_eq
  have unfinished : outcomes.any isUnfinished = others.any isUnfinished :=
    Exec.any_eq_of_forall₂ shows fun _ _ shows => shows.isUnfinished_eq
  have settings : (env.asking selections fragments).request.settings = env.request.settings := rfl
  unfold assemble
  rw [waiting, unfinished, settings]
  split
  · exact .halt _
  · split
    · refine .get_bind fun one two shared => ?_
      rw [Executor.interruption_of_shared shared]
      exact Exec.RetracesBy.bind (.record rfl) (fun _ => (Exec.IsQuiet.pure _).grows)
        fun _ _ _ => .pure rfl
    · refine (rootPositions_retraces same shows).bind (fun _ => (Exec.IsQuiet.pure _).grows)
        fun fields others shows => .pure ?_
      unfold rootResponse
      rw [fieldResponses?_of_shows shows]

/-- Executing an operation on its root type retraces executing the expanded operation. -/
theorem executeRoot_retraces (ignores : env.IgnoresOperation) (accepted : env.registry.Accepted)
    (acyclic : env.Acyclic)
    (expands : Selection.Expands env.includes env.request.fragments
      env.request.operation.selections selections) :
    Exec.Retraces Eq (env.executeRoot root)
      ((env.asking selections fragments).executeRoot root) := by
  obtain ⟨rank, ranked⟩ := acyclic
  have unfolds : env.Unfolds rank (env.request.depthBound + 1)
      ((env.asking selections fragments).request.depthBound + 1)
      [env.request.operation.selections] [selections] := by
    refine ⟨List.cons_ne_nil _ _, ⟨_, _, .refl _, .cons expands .nil, .refl _⟩,
      List.cons_ne_nil _ _, fun inner given => ?_, fun inner given => ?_⟩
    · cases List.mem_singleton.mp given
      exact ⟨_, Nat.lt_succ_self _, env.nestedWithin_depthBound rank⟩
    · cases List.mem_singleton.mp given
      exact Nat.lt_succ_of_le (Nat.le_add_right _ _)
  unfold executeRoot
  refine .bind_of_quiet (collectGroups_mirrors unfolds accepted ranked root)
    (env.collectGroups_quiet _ _) (collectGroups_quiet _ _ _) fun outcome likewise alike => ?_
  cases alike with
  | error cause =>
    exact Exec.RetracesBy.bind (.record rfl) (fun _ => (Exec.IsQuiet.pure _).grows)
      fun _ _ _ => .pure rfl
  | @ok groups likely unfold =>
    have empty : groups.isEmpty = likely.isEmpty := by cases unfold <;> rfl
    have same : List.Forall₂ SameField groups likely := unfold.imp fun _ _ unfolds =>
      ⟨unfolds.resembles.first.responseKey, unfolds.resembles.first.name⟩
    dsimp only
    rw [empty]
    split
    · exact .pure rfl
    · refine (runRootFields_retraces ignores accepted ranked unfold).bind (fun outcomes => ?_)
        fun _ _ shows => assemble_retraces same shows
      have assembled : Exec.Retraces Eq (env.assemble root groups outcomes)
          ((env.asking selections fragments).assemble root likely outcomes) :=
        assemble_retraces same (List.forall₂_same.mpr fun outcome _ => .same outcome)
      exact assembled.grows

/-! ## Whole executions -/

variable (env) in
/-- The conditions of all selections can be decided: every argument that they need is coerced. -/
def Decides : Prop :=
  (∀ use ∈ Selection.usesOf env.request.operation.selections,
    ∃ taken, env.includes [use] = .ok taken) ∧
  ∀ name fragment, Entries.get? env.request.fragments name = some fragment →
    ∀ use ∈ Selection.usesOf fragment.selections, ∃ taken, env.includes [use] = .ok taken

theorem exists_includes {uses : List DirectiveUse}
    (each : ∀ use ∈ uses, ∃ taken, env.includes [use] = .ok taken) :
    ∃ taken, env.includes uses = .ok taken := by
  induction uses with
  | nil => exact ⟨true, rfl⟩
  | cons use rest ih =>
    obtain ⟨here, later⟩ := List.forall_mem_cons.mp each
    obtain ⟨taken, decided⟩ := here
    unfold includes CollectionContext.includes at decided ⊢
    split at decided
    · cases decided
    · exact ⟨false, rfl⟩
    · exact ih later

/-- Where fragments do not lead back into themselves and conditions can be decided, an operation can
be expanded. -/
theorem exists_expands (acyclic : env.Acyclic) (decides : env.Decides) :
    ∃ expanded, Selection.Expands env.includes env.request.fragments
      env.request.operation.selections expanded := by
  obtain ⟨rank, ranked⟩ := acyclic
  obtain ⟨bound, low⟩ :=
    exists_rank_bound rank (Selection.spreadsOf env.request.operation.selections)
  exact Selection.exists_expands ranked (fun _ each => exists_includes each) decides.2 bound _ low
    decides.1

/-- Two executions came to the same: the same result but for the places of errors in the source
text, or the same reason for having none. The calls of resolvers were the same, in the same
order. -/
structure SameExecution (one two : Except Halt ExecutionResult × Executor σ) : Prop where
  calls : one.2.calls = two.2.calls
  outcome : Exec.Alike (fun result other => result.data = other.data ∧
    result.errors.map FieldError.unplaced = other.errors.map FieldError.unplaced) one.1 two.1

/-- Executing an operation whose fragments do not lead back into themselves, and whose conditions
can be decided, comes to the same as executing the expanded operation, whatever fragments that is
given. No resolver looks at the operation, and the errors that are recorded are no error objects
that user code keeps. -/
theorem execute_expanded (accepted : env.registry.Accepted) (acyclic : env.Acyclic)
    (decides : env.Decides) (ignores : env.IgnoresOperation) {before : Executor σ}
    (own : before.RecordsOwn (env.execute.runFrom before).2) :
    (∃ expanded, Selection.Expands env.includes env.request.fragments
      env.request.operation.selections expanded) ∧
    ∀ expanded fragments, Selection.Expands env.includes env.request.fragments
        env.request.operation.selections expanded →
      SameExecution (env.execute.runFrom before)
        ((env.asking expanded fragments).execute.runFrom before) := by
  refine ⟨exists_expands acyclic decides, fun expanded fragments expands => ?_⟩
  have sameType : (env.asking expanded fragments).rootType? = env.rootType? := rfl
  cases found : env.rootType? with
  | none =>
    rw [runFrom_execute_of_none found, runFrom_execute_of_none (sameType.trans found)]
    exact ⟨rfl, .ok ⟨rfl, rfl⟩⟩
  | some root =>
    rw [runFrom_execute_of_some found] at own
    rw [runFrom_execute_of_some found, runFrom_execute_of_some (sameType.trans found)]
    have begun : (env.asking expanded fragments).begun root before = env.begun root before := rfl
    obtain ⟨left, alike⟩ := (executeRoot_retraces ignores accepted acyclic expands).follows
      (env.begun root before) _ rfl own
    rw [begun]
    have settled := left.finish.settled own
    refine ⟨left.calls_eq, ?_⟩
    generalize ((env.executeRoot root).runFrom (env.begun root before)).1 = outcome at alike ⊢
    generalize (((env.asking expanded fragments).executeRoot root).runFrom
      (env.begun root before)).1 = other at alike ⊢
    cases alike with
    | error why => exact .error why
    | ok same => exact .ok ⟨same, settled⟩

/-- A schema with a field that fails and one that counts places in the source text. -/
def placesSchema : Schema where
  query := some (.definition (.object {
    name := "Query"
    fields := [
      { name := "broken", type := .named "Int", resolver := .given 0 },
      { name := "places", type := .named "Int", resolver := .given 1 }] }))

/-- The registry of that schema. -/
def placesRegistry : Registry :=
  placesSchema.tableWithin 100

theorem accepted_placesRegistry : placesRegistry.Accepted :=
  Schema.accepted_of_soundWithin (by decide +kernel)

/-- The fragment that asks for the field that fails. -/
def brokenFragment : Fragment where
  name := "Broken"
  condition := "Query"
  selections := [.field "broken" none [] [] (some ⟨1, 3⟩) []]

/-- An operation that spreads a fragment twice, on a root that is an error object, which user code
may keep. One field gives that object, another one counts the places that it has got by then. -/
def placing (identity : Option Nat) : Environment Unit where
  registry := placesRegistry
  behaviour := {
    resolve := fun handle parent _ _ =>
      match handle, parent with
      | 1, .fault fault => .finish (.int fault.locations.length)
      | _, parent => .finish parent
    hook := fun _ value => .ok value
    convert := fun _ value => .ok value }
  request := {
    operation := { selections := [
      .spread "Broken" [],
      .spread "Broken" [],
      .spread "Lost" [],
      .field "broken" (some "left") [] [⟨"skip", [("if", .bool true)]⟩] none [],
      .field "places" none [] [] none []] }
    fragments := [("Broken", brokenFragment)]
    root := .fault { kind := .graphQL, message := "boom", identity } }

/-- The operation with its fragments written out. -/
def placesExpanded : List Selection :=
  [.inline (some "Query") [] brokenFragment.selections,
    .inline (some "Query") [] brokenFragment.selections,
    .field "places" none [] [] none []]

theorem acyclic_placing (identity : Option Nat) : (placing identity).Acyclic := by
  refine ⟨fun _ => 0, fun name fragment found other spread => ?_⟩
  obtain ⟨entry, first, rfl⟩ := Option.map_eq_some_iff.mp found
  cases List.mem_singleton.mp (List.mem_of_find?_eq_some first)
  cases spread

theorem decides_placing (identity : Option Nat) : (placing identity).Decides := by
  refine ⟨fun use there => ?_, fun name fragment found use there => ?_⟩
  · cases List.mem_singleton.mp there
    exact ⟨false, rfl⟩
  · obtain ⟨entry, first, rfl⟩ := Option.map_eq_some_iff.mp found
    cases List.mem_singleton.mp (List.mem_of_find?_eq_some first)
    cases there

theorem ignoresOperation_placing (identity : Option Nat) : (placing identity).IgnoresOperation :=
  fun _ _ _ _ _ => rfl

theorem expands_placing (identity : Option Nat) :
    Selection.Expands (placing identity).includes (placing identity).request.fragments
      (placing identity).request.operation.selections placesExpanded := by
  have broken : Selection.Expands (placing identity).includes (placing identity).request.fragments
      brokenFragment.selections brokenFragment.selections := .field rfl .nil .nil
  refine .spread rfl rfl broken (.spread rfl rfl broken (.undefined rfl rfl ?_))
  exact .excluded rfl (.field rfl .nil .nil)

/-- An error that is made anew is recorded alike, although the fragment is read twice. -/
theorem execute_expanded_placing :
    placesRegistry.Accepted ∧ (placing none).Acyclic ∧ (placing none).Decides ∧
      (placing none).IgnoresOperation ∧
      ∃ result after,
        (placing none).execute.runFrom { world := { user := () } } = (.ok result, after) ∧
        result.data = .object [("broken", .null), ("places", .leaf (.int 0))] ∧
        result.errors.map (·.path) = [some [.key "broken"]] ∧
        Executor.RecordsOwn { world := { user := () } } after ∧
        SameExecution (.ok result, after)
          (((placing none).asking placesExpanded []).execute.runFrom
            { world := { user := () } }) := by
  have own : Executor.RecordsOwn { world := { user := () } }
      ((placing none).execute.runFrom { world := { user := () } }).2 := by
    refine ⟨_, rfl, fun error among => ?_⟩
    cases List.mem_singleton.mp among
    rfl
  have same := (execute_expanded accepted_placesRegistry (acyclic_placing _) (decides_placing _)
    (ignoresOperation_placing _) own).2 placesExpanded [] (expands_placing _)
  exact ⟨accepted_placesRegistry, acyclic_placing _, decides_placing _,
    ignoresOperation_placing _, _, _, rfl, rfl, rfl, own, same⟩

/-- An error object that user code keeps shows one place where the fragment is read once, and two
where it is written out twice; a field that counts them gives other data. -/
theorem execute_reveals_places :
    placesRegistry.Accepted ∧ (placing (some 0)).Acyclic ∧ (placing (some 0)).Decides ∧
      (placing (some 0)).IgnoresOperation ∧
      Selection.Expands (placing (some 0)).includes (placing (some 0)).request.fragments
        (placing (some 0)).request.operation.selections placesExpanded ∧
      ((placing (some 0)).execute.runFrom
          { world := { user := () } }).1.map (·.data) =
        .ok (.object [("broken", .null), ("places", .leaf (.int 1))]) ∧
      (((placing (some 0)).asking placesExpanded []).execute.runFrom
          { world := { user := () } }).1.map (·.data) =
        .ok (.object [("broken", .null), ("places", .leaf (.int 2))]) :=
  ⟨accepted_placesRegistry, acyclic_placing _, decides_placing _, ignoresOperation_placing _,
    expands_placing _, rfl, rfl⟩

end Environment

end GraphQL
