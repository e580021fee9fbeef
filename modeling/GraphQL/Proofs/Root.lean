import GraphQL.Proofs.Completion

/-!
# Root fields

The root fields of an operation run one after another, whether they belong to a query or to a
mutation. Those that finish are laid out like the fields of any object. Those that do not are
reported as interrupted, each at its place or all at once.
-/

namespace GraphQL

variable {σ α β : Type}

namespace FailureCause

/-- Whether a stop, the end of the time or the abandoning of a root field is the cause. -/
def isInterruption : FailureCause → Bool
  | timedOut _ | stopped _ => true
  | _ => false

theorem isOrdinary_of_isInterruption {cause : FailureCause}
    (interrupted : cause.isInterruption = true) : cause.isOrdinary = true := by
  cases cause with
  | unknownField _ _ | coercion _ | notALeaf _ | notCompletable _ => cases interrupted
  | _ => rfl

end FailureCause

/-- The cause of unfinished root fields is an interruption. -/
theorem Executor.isInterruption_interruption (settings : Settings) (executor : Executor σ) :
    (executor.interruption settings).isInterruption = true := by
  unfold Executor.interruption
  split <;> rfl

namespace Environment

variable {env : Environment σ} {root : ObjectType} {waits : Prop} {path : Path}

variable (env root waits) in
/-- What became of a root field, and the errors noted on the way: a finished one is laid out as the
type of its field says; another has a reason. -/
def RootFits (group : FieldGroup) (noted : List FieldError) : RootOutcome → Prop
  | .finished position =>
    env.GroupFits root group position ∧ position.Accounts (rootPath group) noted
  | .unfinished => True
  | .waiting => waits
  | .escaped origin fault => env.MayHalt root waits (.escaped origin fault)
  | .tooDeep => env.MayHalt root waits .tooDeep

variable (env root waits) in
/-- What became of some root fields, and the errors noted on the way. -/
def RootsFit (groups : List FieldGroup) : List FieldError → List RootOutcome → Prop :=
  Jointly (groups.map (env.RootFits root waits))

/-- What cannot halt goes on as a part. -/
theorem Meets.lift_bind {part : StateM (Executor σ) α} {next : α → StateM (Executor σ) β}
    {yields : List FieldError → α → Prop} {later : List FieldError → β → Prop}
    (met : env.Meets root waits path (liftM part) yields)
    (goesOn : ∀ noted result, yields noted result →
      env.Meets root waits path (liftM (next result)) fun others => later (noted ++ others)) :
    env.Meets root waits path (liftM (part >>= next)) later := by
  have same :
      (liftM (part >>= next) : Exec σ β) = liftM part >>= fun result => liftM (next result) := rfl
  rw [same]
  exact met.bind goesOn

/-- What cannot halt and notes no error goes on as a part. -/
theorem Meets.lift_bind_quiet {part : StateM (Executor σ) α} {next : α → StateM (Executor σ) β}
    {gives : α → Prop} {later : List FieldError → β → Prop}
    (met : env.Meets root waits path (liftM part) fun noted result => noted = [] ∧ gives result)
    (goesOn : ∀ result, gives result → env.Meets root waits path (liftM (next result)) later) :
    env.Meets root waits path (liftM (part >>= next)) later := by
  refine met.lift_bind ?_
  rintro noted result ⟨rfl, given⟩
  exact goesOn result given

variable (env root) in
theorem run_runRootField (group : FieldGroup) (before : Executor σ) :
    (env.runRootField root group).run before =
      if before.isStopping then (.unfinished, before)
      else
        let ran := (env.executeGroup (env.executeObject env.request.depthBound) root
          env.request.root (rootPath group) group).runFrom before
        (rootOutcome ran.2.isStopping ran.1, ran.2) := by
  show (if before.isStopping then pure RootOutcome.unfinished else _ :
    StateM (Executor σ) RootOutcome).run before = _
  split
  · rfl
  · rfl

theorem expire_eq (outcome : RootOutcome) :
    env.expire outcome = outcome ∨ env.expire outcome = .unfinished := by
  unfold expire
  split
  · exact Or.inr rfl
  · exact Or.inl rfl

variable (env) in
/-- What a query does once its root fields ran: those that would wait forever are given up, if a stop
came or if the time has an end. -/
def giveUp (outcomes : List RootOutcome) : StateM (Executor σ) (List RootOutcome) := do
  let waiting := outcomes.countP isWaiting
  if waiting == 0 then pure outcomes
  else if (← get).isStopping then
    pure (outcomes.map fun outcome => if isWaiting outcome then .unfinished else outcome)
  else
    if env.request.settings.timeout.isSome then modify (Executor.timeOut waiting)
    pure (outcomes.map env.expire)

variable (env) in
/-- Giving up changes no root field but to leave it unfinished, and does no more to an executor than
to end its time. -/
theorem run_giveUp_cases (outcomes : List RootOutcome) (before : Executor σ) :
    ∃ change : RootOutcome → RootOutcome,
      (∀ outcome, change outcome = outcome ∨ change outcome = .unfinished) ∧
      ((env.giveUp outcomes).run before = (outcomes.map change, before) ∨
        (env.giveUp outcomes).run before =
          (outcomes.map change, before.timeOut (outcomes.countP isWaiting))) := by
  unfold giveUp
  dsimp only
  split
  · exact ⟨id, fun _ => Or.inl rfl, Or.inl (by rw [List.map_id]; rfl)⟩
  · show ∃ change : RootOutcome → RootOutcome, _ ∧
      (StateT.run (if before.isStopping then _ else _ : StateM (Executor σ) (List RootOutcome))
        before = _ ∨
      StateT.run (if before.isStopping then _ else _ : StateM (Executor σ) (List RootOutcome))
        before = _)
    split
    · refine ⟨fun outcome => if isWaiting outcome then .unfinished else outcome,
        fun outcome => ?_, Or.inl rfl⟩
      dsimp only
      split
      · exact Or.inr rfl
      · exact Or.inl rfl
    · refine ⟨env.expire, expire_eq, ?_⟩
      split
      · exact Or.inr rfl
      · exact Or.inl rfl

variable (env root) in
theorem run_runQuery (groups : List FieldGroup) (before : Executor σ) :
    (env.runQuery root groups).run before =
      if before.isStopping then (groups.map fun _ => .unfinished, before)
      else
        let ran := (env.runTogether root groups).run (before.start groups.length)
        (env.giveUp ran.1).run ran.2 := by
  show (if before.isStopping then pure (groups.map fun _ => RootOutcome.unfinished) else _ :
    StateM (Executor σ) (List RootOutcome)).run before = _
  split
  · rfl
  · rfl

variable (env root) in
/-- How a mutation goes on with the rest of its root fields after one of them: not at all if that
would wait forever. -/
def goOn (rest : List FieldGroup) (outcome : RootOutcome) :
    StateM (Executor σ) (List RootOutcome) := do
  if isWaiting outcome then
    if env.request.settings.timeout.isSome then modify (Executor.timeOut 1)
    pure (env.expire outcome :: rest.map fun _ => .unfinished)
  else
    let outcomes ← env.runMutation root rest
    pure (outcome :: outcomes)

variable (env root) in
theorem run_goOn_of_waiting {outcome : RootOutcome} (waiting : isWaiting outcome = true)
    (rest : List FieldGroup) (before : Executor σ) :
    (env.goOn root rest outcome).run before =
      (env.expire outcome :: rest.map fun _ => .unfinished,
        if env.request.settings.timeout.isSome then before.timeOut 1 else before) := by
  unfold goOn
  rw [if_pos waiting]
  split
  · rfl
  · rfl

variable (env root) in
theorem run_goOn_of_ended {outcome : RootOutcome} (ended : isWaiting outcome = false)
    (rest : List FieldGroup) (before : Executor σ) :
    (env.goOn root rest outcome).run before =
      let ran := (env.runMutation root rest).run before
      (outcome :: ran.1, ran.2) := by
  unfold goOn
  rw [ended, if_neg Bool.false_ne_true]
  rfl

variable (env root) in
theorem run_runMutation_cons (group : FieldGroup) (rest : List FieldGroup)
    (before : Executor σ) :
    (env.runMutation root (group :: rest)).run before =
      if before.isStopping then ((group :: rest).map fun _ => .unfinished, before)
      else
        let ran := (env.runRootField root group).run (before.start 1)
        (env.goOn root rest ran.1).run ran.2 := by
  show (if before.isStopping then pure ((group :: rest).map fun _ => RootOutcome.unfinished)
    else _ : StateM (Executor σ) (List RootOutcome)).run before = _
  split
  · rfl
  · rfl

/-- What becomes of a root field fits, if its position does. -/
theorem rootFits_rootOutcome {group : FieldGroup} {noted : List FieldError}
    {outcome : Except Halt Position} (stopping : Bool)
    (held : env.Delivers root waits (fun noted position =>
      env.GroupFits root group position ∧ position.Accounts (rootPath group) noted) noted
      outcome) :
    env.RootFits root waits group noted (rootOutcome stopping outcome) := by
  rcases outcome with why | position
  · cases why with
    | cancelled => trivial
    | hung =>
      cases held with
      | hung waiting => exact waiting
      | arguments visited stopped ends => exact absurd ends (CoercionStop.halt?_ne_hung _)
      | collection encountered stopped ends => exact absurd ends (CoercionStop.halt?_ne_hung _)
    | escaped origin fault => exact held
    | tooDeep => exact held
  · show env.RootFits root waits group noted
      (if stopping && position.response?.isSome then .unfinished else .finished position)
    split
    · trivial
    · exact held

/-- A root field that runs below the root does what its group of selections does. -/
theorem runRootField_meets (mayWait : env.Waits → waits) {group : FieldGroup}
    (reached : env.Reaches root 0 root group) :
    env.Meets root waits [] (liftM (env.runRootField root group))
      (env.RootFits root waits group) := by
  intro before waiting
  rw [Exec.runFrom_lift, run_runRootField]
  split
  · exact ⟨[], .refl [] waiting, trivial⟩
  · have executed : env.Meets root waits (rootPath group)
        (env.executeGroup (env.executeObject env.request.depthBound) root env.request.root
          (rootPath group) group) fun noted position =>
          env.GroupFits root group position ∧ position.Accounts (rootPath group) noted :=
      executeGroup_meets mayWait (executeObject_executes mayWait (by omega)) reached _
    obtain ⟨noted, kept, outcome⟩ := executed before waiting
    exact ⟨noted, kept.below_root, rootFits_rootOutcome _ outcome⟩

/-- Root fields that run in turn each fit. -/
theorem runTogether_meets (mayWait : env.Waits → waits) {groups : List FieldGroup}
    (reached : ∀ group ∈ groups, env.Reaches root 0 root group) :
    env.Meets root waits [] (liftM (env.runTogether root groups))
      (env.RootsFit root waits groups) := by
  induction groups with
  | nil => exact .pure ⟨rfl, rfl⟩
  | cons group rest ih =>
    have first := runRootField_meets mayWait (reached group List.mem_cons_self)
    have others := ih fun group member => reached group (List.mem_cons_of_mem _ member)
    refine first.lift_bind fun here outcome fits => ?_
    refine others.lift_bind fun later outcomes restFit => ?_
    refine .pure ⟨here, later, outcome, outcomes, ?_, rfl, fits, restFit⟩
    rw [List.append_nil]

/-- Root fields that never began are unfinished without an error. -/
theorem rootsFit_unfinished (groups : List FieldGroup) :
    env.RootsFit root waits groups [] (groups.map fun _ => .unfinished) := by
  induction groups with
  | nil => exact ⟨rfl, rfl⟩
  | cons group rest ih => exact ⟨[], [], .unfinished, _, rfl, rfl, trivial, ih⟩

/-- What became of root fields still fits where some of them are given up. -/
theorem RootsFit.map {groups : List FieldGroup} {noted : List FieldError}
    {outcomes : List RootOutcome} {change : RootOutcome → RootOutcome}
    (stays : ∀ outcome, change outcome = outcome ∨ change outcome = .unfinished)
    (fit : env.RootsFit root waits groups noted outcomes) :
    env.RootsFit root waits groups noted (outcomes.map change) := by
  induction groups generalizing noted outcomes with
  | nil =>
    obtain ⟨rfl, rfl⟩ := fit
    exact ⟨rfl, rfl⟩
  | cons group rest ih =>
    obtain ⟨here, later, outcome, others, rfl, rfl, fits, restFit⟩ := fit
    refine ⟨here, later, change outcome, others.map change, rfl, rfl, ?_, ih restFit⟩
    rcases stays outcome with same | givenUp
    · rwa [same]
    · rw [givenUp]
      trivial

/-- Stopping an executor touches neither errors nor promises. -/
theorem timeOut_meets (count : Nat) :
    env.Meets root waits path (modify (Executor.timeOut count) : Exec σ PUnit) fun noted _ =>
      noted = [] ∧ True := by
  refine .modify (fun executor => ?_) fun executor => ?_
  · exact Executor.errors_forceStop ..
  · exact Executor.promises_forceStop ..

/-- The root fields of a query each fit. -/
theorem runQuery_meets (mayWait : env.Waits → waits) {groups : List FieldGroup}
    (reached : ∀ group ∈ groups, env.Reaches root 0 root group) :
    env.Meets root waits [] (liftM (env.runQuery root groups))
      (env.RootsFit root waits groups) := by
  unfold runQuery
  refine Meets.lift_bind_quiet Meets.get fun executor _ => ?_
  split
  · exact .pure (rootsFit_unfinished groups)
  · refine Meets.lift_bind_quiet (Meets.modify (fun _ => rfl) fun _ => rfl) fun _ _ => ?_
    refine (runTogether_meets mayWait reached).lift_bind fun noted outcomes fit => ?_
    have expired : ∀ change, (∀ outcome, change outcome = outcome ∨ change outcome = .unfinished) →
        env.RootsFit root waits groups (noted ++ []) (outcomes.map change) := by
      intro change stays
      rw [List.append_nil]
      exact fit.map stays
    dsimp only
    split
    · exact .pure (by rwa [List.append_nil])
    · refine Meets.lift_bind_quiet Meets.get fun executor _ => ?_
      split
      · refine .pure (expired _ fun outcome => ?_)
        split
        · exact Or.inr rfl
        · exact Or.inl rfl
      · split
        · exact Meets.lift_bind_quiet (timeOut_meets _) fun _ _ => .pure (expired _ expire_eq)
        · exact .pure (expired _ expire_eq)

/-- The root fields of a mutation each fit. The induction is on the fields still to run; after one
that waits forever none begins. -/
theorem runMutation_meets (mayWait : env.Waits → waits) {groups : List FieldGroup}
    (reached : ∀ group ∈ groups, env.Reaches root 0 root group) :
    env.Meets root waits [] (liftM (env.runMutation root groups))
      (env.RootsFit root waits groups) := by
  induction groups with
  | nil => exact .pure ⟨rfl, rfl⟩
  | cons group rest ih =>
    unfold runMutation
    refine Meets.lift_bind_quiet Meets.get fun executor _ => ?_
    split
    · exact .pure (rootsFit_unfinished (group :: rest))
    · refine Meets.lift_bind_quiet (Meets.modify (fun _ => rfl) fun _ => rfl) fun _ _ => ?_
      refine (runRootField_meets mayWait (reached group List.mem_cons_self)).lift_bind
        fun here outcome fits => ?_
      have expired : env.RootsFit root waits (group :: rest) (here ++ [])
          (env.expire outcome :: rest.map fun _ => .unfinished) := by
        refine ⟨here, [], env.expire outcome, _, rfl, rfl, ?_, rootsFit_unfinished rest⟩
        rcases expire_eq outcome with same | givenUp
        · rwa [same]
        · rw [givenUp]
          trivial
      split
      · split
        · exact Meets.lift_bind_quiet (timeOut_meets _) fun _ _ => .pure expired
        · exact .pure expired
      · have others := ih fun group member => reached group (List.mem_cons_of_mem _ member)
        refine others.lift_bind fun later outcomes restFit => .pure ?_
        exact ⟨here, later, outcome, outcomes, by rw [List.append_nil], rfl, fits, restFit⟩

/-- The root fields of an operation each fit. -/
theorem runRootFields_meets (mayWait : env.Waits → waits) {groups : List FieldGroup}
    (reached : ∀ group ∈ groups, env.Reaches root 0 root group) :
    env.Meets root waits [] (liftM (env.runRootFields root groups))
      (env.RootsFit root waits groups) := by
  unfold runRootFields
  split
  · exact runMutation_meets mayWait reached
  · exact runQuery_meets mayWait reached
  · exact runQuery_meets mayWait reached

/-- Something may wait forever if a root field does. -/
theorem RootsFit.waits_of_mem {groups : List FieldGroup} {noted : List FieldError}
    {outcomes : List RootOutcome} (fit : env.RootsFit root waits groups noted outcomes)
    (member : .waiting ∈ outcomes) : waits := by
  induction groups generalizing noted outcomes with
  | nil =>
    obtain ⟨rfl, rfl⟩ := fit
    cases member
  | cons group rest ih =>
    obtain ⟨here, later, outcome, others, rfl, rfl, fits, restFit⟩ := fit
    rcases List.mem_cons.mp member with rfl | member
    · exact fits
    · exact ih restFit member

/-- An unfinished root field fails at its place, as its declared type admits. -/
theorem groupFits_failed (group : FieldGroup) (error : FieldError) :
    env.GroupFits root group (.failed (env.rootRequired root group) error) := by
  unfold GroupFits rootRequired
  cases env.registry.field? (.object root) group.first.name with
  | some field => rfl
  | none => exact ⟨error, rfl⟩

/-- None of some errors is an interruption. -/
def Undisturbed (noted : List FieldError) : Prop :=
  ∀ error ∈ noted, error.cause.isInterruption = false

theorem Undisturbed.append {first second : List FieldError} :
    Undisturbed (first ++ second) ↔ Undisturbed first ∧ Undisturbed second :=
  List.forall_mem_append

/-- Recording an interruption disturbs an execution. -/
theorem Meets.interrupt {executor : Executor σ} {settings : Settings} {error : FieldError}
    (interrupted : error.cause = executor.interruption settings) :
    env.Meets root waits [] (modify (Executor.recordError error) : Exec σ PUnit)
      fun noted _ => ¬ Undisturbed noted := by
  have isInterruption := executor.isInterruption_interruption settings
  rw [← interrupted] at isInterruption
  have ordinary := FailureCause.isOrdinary_of_isInterruption isInterruption
  refine (Meets.record (Or.inl rfl) (.ordinary ordinary)).mono ?_
  rintro noted _ rfl undisturbed
  rw [undisturbed error List.mem_cons_self] at isInterruption
  cases isInterruption

variable (env root) in
/-- The entry of a root field, given the errors that were noted before and on assembling it: unless
the field was interrupted, it is the position with which the field finished. -/
def EntryFits (group : FieldGroup) (outcome : RootOutcome) (noted others : List FieldError)
    (entry : String × Position) : Prop :=
  entry.1 = group.key ∧ env.GroupFits root group entry.2 ∧
    (Undisturbed others →
      others = [] ∧ outcome = .finished entry.2 ∧ entry.2.Accounts (rootPath group) noted)

theorem rootPosition_meets {group : FieldGroup} {outcome : RootOutcome} {noted : List FieldError}
    (fits : env.RootFits root waits group noted outcome) :
    env.Meets root waits [] (env.rootPosition root group outcome)
      (env.EntryFits root group outcome noted) := by
  unfold rootPosition
  cases outcome with
  | finished position =>
    exact .pure ⟨rfl, fits.1, fun _ => ⟨rfl, rfl, fits.2⟩⟩
  | unfinished =>
    refine Meets.get.bind_quiet fun executor _ => ?_
    refine (Meets.interrupt rfl).bind fun others _ disturbed => ?_
    refine .pure ⟨rfl, groupFits_failed group _, fun undisturbed => ?_⟩
    exact absurd (Undisturbed.append.mp undisturbed).1 disturbed
  | waiting => exact .halt (.hung fits)
  | escaped origin fault => exact .halt fits
  | tooDeep => exact .halt fits

variable (env root) in
/-- The entries of some root fields, given the errors that were noted before and on assembling
them. -/
def EntriesFit (groups : List FieldGroup) (outcomes : List RootOutcome)
    (noted others : List FieldError) (fields : List (String × Position)) : Prop :=
  env.FieldsFit root groups fields ∧
    (Undisturbed others →
      others = [] ∧ outcomes = fields.map (fun entry => .finished entry.2) ∧
        Position.FieldsAccount [] noted fields)

theorem rootPositions_meets {groups : List FieldGroup} {outcomes : List RootOutcome}
    {noted : List FieldError} (fit : env.RootsFit root waits groups noted outcomes) :
    env.Meets root waits []
      ((groups.zip outcomes).mapM fun pair => env.rootPosition root pair.1 pair.2)
      (env.EntriesFit root groups outcomes noted) := by
  induction groups generalizing noted outcomes with
  | nil =>
    obtain ⟨rfl, rfl⟩ := fit
    exact .pure ⟨rfl, fun _ => ⟨rfl, rfl, rfl⟩⟩
  | cons group rest ih =>
    obtain ⟨here, later, outcome, outcomes, rfl, rfl, fits, restFit⟩ := fit
    rw [List.zip_cons_cons, List.mapM_cons]
    refine (rootPosition_meets fits).bind ?_
    rintro first ⟨key, position⟩ ⟨keyed, positionFits, finished⟩
    refine (ih restFit).bind ?_
    rintro others fields ⟨fieldsFit, allFinished⟩
    refine .pure ⟨⟨group, rest, rfl, keyed, positionFits, fieldsFit⟩, fun undisturbed => ?_⟩
    rw [Undisturbed.append, Undisturbed.append] at undisturbed
    obtain ⟨rfl, rfl, accounted⟩ := finished undisturbed.1
    obtain ⟨rfl, rfl, restAccounted⟩ := allFinished undisturbed.2.1
    cases keyed
    exact ⟨rfl, rfl, here, later, rfl, accounted, restAccounted⟩

variable (env root) in
/-- The data assembled from root fields: null because they were interrupted, or what follows from
their positions. -/
def Assembled (groups : List FieldGroup) (outcomes : List RootOutcome)
    (noted others : List FieldError) (data : Response) : Prop :=
  (data = .null ∧ ¬ Undisturbed others) ∨
    ∃ fields, env.EntriesFit root groups outcomes noted others fields ∧
      data = Position.rootResponse fields

theorem assemble_meets {groups : List FieldGroup} {outcomes : List RootOutcome}
    {noted : List FieldError} (fit : env.RootsFit root waits groups noted outcomes) :
    env.Meets root waits [] (env.assemble root groups outcomes)
      (env.Assembled root groups outcomes noted) := by
  unfold assemble
  split
  · next waiting =>
    obtain ⟨outcome, member, isWaiting⟩ := List.any_eq_true.mp waiting
    cases outcome with
    | waiting => exact .halt (.hung (fit.waits_of_mem member))
    | finished _ | unfinished | escaped _ _ | tooDeep => cases isWaiting
  · split
    · refine Meets.get.bind_quiet fun executor _ => ?_
      refine (Meets.interrupt rfl).bind fun others _ disturbed => ?_
      refine .pure (Or.inl ⟨rfl, fun undisturbed => ?_⟩)
      exact absurd (Undisturbed.append.mp undisturbed).1 disturbed
    · refine (rootPositions_meets fit).bind fun others fields entriesFit => .pure ?_
      rw [List.append_nil]
      exact Or.inr ⟨fields, entriesFit, rfl⟩

variable (env root waits) in
/-- The data of an execution on a root type, and the errors noted on the way. Where the root
selections cannot be collected, that is the only error, and it has no path. -/
inductive Executed (noted : List FieldError) (data : Response) : Prop where
  | uncollected {cause : FailureCause} : noted = [{ cause }] → data = .null →
      Executed noted data
  | assembled {groups : List FieldGroup} {outcomes : List RootOutcome}
      {first second : List FieldError} :
      env.Collects root [env.request.operation.selections] groups →
      env.RootsFit root waits groups first outcomes →
      env.Assembled root groups outcomes first second data → noted = first ++ second →
      Executed noted data

/-- What executing an operation on its root type does. -/
theorem executeRoot_meets (mayWait : env.Waits → waits) :
    env.Meets root waits [] (env.executeRoot root) (env.Executed root waits) := by
  unfold executeRoot
  refine Meets.bind
    (Meets.silent (collectGroups_attempts .root) (errors_collectGroups env root _)) ?_
  rintro _ outcome ⟨rfl, held⟩
  cases outcome with
  | error cause =>
    refine (Meets.record (Or.inl rfl) held).bind ?_
    rintro noted _ rfl
    exact .pure (.uncollected rfl rfl)
  | ok groups =>
    obtain ⟨_, collected⟩ := held
    dsimp only
    split
    · next empty =>
      rw [List.isEmpty_iff.mp empty] at collected
      have fit : env.RootsFit root waits [] [] [] := ⟨rfl, rfl⟩
      refine .pure (.assembled collected fit (Or.inr ⟨[], ?_, rfl⟩) rfl)
      exact ⟨rfl, fun _ => ⟨rfl, rfl, rfl⟩⟩
    · have reached : ∀ group ∈ groups, env.Reaches root 0 root group := fun group member =>
        ⟨_, groups, .root, collected, member⟩
      refine (runRootFields_meets mayWait reached).bind fun first outcomes fit => ?_
      exact (assemble_meets fit).mono fun second data assembled =>
        .assembled collected fit assembled rfl

end Environment

end GraphQL
