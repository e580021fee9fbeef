import GraphQL.Proofs.Propagation
import GraphQL.Proofs.Silence
import GraphQL.Proofs.Trials

/-!
# Errors at their positions

Where error objects of user code are fresh and completed values are plain, a position fails before
anything below it is completed or not at all. So the errors recorded on the way to a position are
those of the failing positions in it, and each has the path that leads to its position.
-/

namespace GraphQL

variable {σ α β : Type}

/-! ## What parts record -/

/-- A part that records no error, whatever becomes of it. -/
def Exec.IsErrorless (part : Exec σ α) : Prop :=
  ∀ before, (part.runFrom before).2.errors = before.errors

theorem Exec.IsQuiet.isErrorless {part : Exec σ α} (quiet : part.IsQuiet) : part.IsErrorless :=
  fun before => (quiet before).1

/-- An attempt that records no error itself, also where it fails. -/
abbrev Attempt.IsErrorless (attempt : Attempt σ α) : Prop :=
  Exec.IsErrorless attempt.run

theorem Attempt.IsErrorless.bind {attempt : Attempt σ α} {next : α → Attempt σ β}
    (first : attempt.IsErrorless) (goesOn : ∀ result, (next result).IsErrorless) :
    (attempt >>= next).IsErrorless := by
  intro before
  have kept := first before
  rw [ExceptT.run_bind]
  rcases ran : Exec.runFrom attempt.run before with ⟨why | cause | result, middle⟩
  · rw [Exec.runFrom_bind_error ran]
    rwa [ran] at kept
  · rw [Exec.runFrom_bind_ok ran]
    rwa [ran] at kept
  · rw [Exec.runFrom_bind_ok ran]
    rw [ran] at kept
    exact (goesOn result middle).trans kept

/-- If a part has a result, it has recorded errors that go with that. -/
def Exec.Records (part : Exec σ α) (before : Executor σ)
    (yields : List FieldError → α → Prop) : Prop :=
  ∀ result after, part.runFrom before = (.ok result, after) →
    ∃ noted, after.errors = before.errors ++ noted ∧ yields noted result

namespace Exec.Records

variable {part : Exec σ α} {next : α → Exec σ β} {before : Executor σ}
  {yields weaker : List FieldError → α → Prop} {later : List FieldError → β → Prop}

theorem mono (records : part.Records before yields)
    (implies : ∀ noted result, yields noted result → weaker noted result) :
    part.Records before weaker := by
  intro result after ran
  obtain ⟨noted, errors, held⟩ := records result after ran
  exact ⟨noted, errors, implies noted result held⟩

protected theorem pure {result : α} (held : yields [] result) :
    (pure result : Exec σ α).Records before yields := by
  rintro _ _ ⟨⟩
  exact ⟨[], (List.append_nil _).symm, held⟩

/-- A part that records nothing before another one. -/
theorem bind_errorless (errorless : part.IsErrorless)
    (goesOn : ∀ result middle, part.runFrom before = (.ok result, middle) →
      (next result).Records middle later) : (part >>= next).Records before later := by
  intro result after ran
  obtain ⟨value, middle, first, second⟩ := exists_of_runFrom_bind ran
  obtain ⟨noted, errors, held⟩ := goesOn value middle first result after second
  have same : middle.errors = before.errors := by
    have kept := errorless before
    rwa [first] at kept
  exact ⟨noted, errors.trans (congrArg (· ++ noted) same), held⟩

theorem map {change : α → β} (records : part.Records before fun noted result =>
    later noted (change result)) : (change <$> part).Records before later := by
  intro result after ran
  rw [runFrom_map] at ran
  rcases given : part.runFrom before with ⟨why | value, middle⟩
  · rw [given] at ran
    cases ran
  · rw [given] at ran
    cases ran
    exact records value middle given

end Exec.Records

/-- If an attempt succeeds, it has recorded errors that go with its result; if it fails, none. -/
def Attempt.Records (attempt : Attempt σ α) (before : Executor σ)
    (yields : List FieldError → α → Prop) : Prop :=
  Exec.Records attempt.run before fun noted outcome =>
    match outcome with
    | .ok result => yields noted result
    | .error _ => noted = []

namespace Attempt.Records

variable {attempt : Attempt σ α} {next : α → Attempt σ β} {before : Executor σ}
  {yields weaker : List FieldError → α → Prop} {later : List FieldError → β → Prop}

theorem mono (records : attempt.Records before yields)
    (implies : ∀ noted result, yields noted result → weaker noted result) :
    attempt.Records before weaker := by
  refine Exec.Records.mono records fun noted outcome held => ?_
  cases outcome with
  | ok result => exact implies noted result held
  | error cause => exact held

protected theorem pure {result : α} (held : yields [] result) :
    Attempt.Records (pure result : Attempt σ α) before yields :=
  Exec.Records.pure held

theorem refuse (cause : FailureCause) :
    Attempt.Records (Attempt.refuse cause : Attempt σ α) before yields :=
  Exec.Records.pure rfl

theorem bind_errorless (errorless : attempt.IsErrorless)
    (goesOn : ∀ result middle, Exec.runFrom attempt.run before = (.ok (.ok result), middle) →
      (next result).Records middle later) : (attempt >>= next).Records before later := by
  unfold Attempt.Records
  rw [ExceptT.run_bind]
  refine Exec.Records.bind_errorless errorless fun outcome middle ran => ?_
  cases outcome with
  | ok result => exact goesOn result middle ran
  | error cause => exact .pure rfl

theorem map {change : α → β} (records : attempt.Records before fun noted result =>
    later noted (change result)) : (change <$> attempt).Records before later := by
  unfold Attempt.Records
  rw [ExceptT.run_map]
  refine Exec.Records.map (Exec.Records.mono records fun noted outcome held => ?_)
  cases outcome with
  | ok result => exact held
  | error cause => exact held

end Attempt.Records

/-! ## Parts without errors of their own -/

namespace Environment

variable (env : Environment σ)

theorem errorless_head (name : String) (value : Value) : (env.head name value).IsErrorless := by
  have mapped : ∀ {attempt : Attempt σ Position}, attempt.IsQuiet →
      (Head.leaf <$> attempt).IsErrorless := by
    intro attempt quiet
    rw [map_eq_pure_bind]
    exact (quiet.bind fun _ => Attempt.IsQuiet.pure _).isErrorless
  unfold head
  refine Attempt.IsErrorless.bind Attempt.IsQuiet.get.isErrorless fun executor => ?_
  dsimp only
  split
  · exact (Attempt.IsQuiet.halt _).isErrorless
  · next type _ => exact mapped (completeEnum_quiet type _)
  · next type _ => exact mapped (env.completeScalar_quiet type _)
  · next object _ =>
    exact ((env.checkType_quiet object _).bind fun _ => Attempt.IsQuiet.pure _).isErrorless
  · next type _ _ _ _ =>
    split
    · exact ((env.concreteType_quiet type _).bind fun _ => Attempt.IsQuiet.pure _).isErrorless
    · exact (Attempt.IsQuiet.refuse _).isErrorless

theorem errorless_resolve (target : Target) (path : Path) (parent : Value) (args : Entries Value) :
    (env.resolve target path parent args).IsErrorless := by
  have called : Attempt.IsErrorless (modify (Executor.noteCall
      { label := target.label, path, arguments := args }) : Attempt σ PUnit) := fun _ => rfl
  unfold resolve
  refine .bind (Attempt.IsQuiet.lift .checkpoint).isErrorless fun _ => .bind called fun _ => ?_
  exact ((Attempt.IsQuiet.lift (env.call_quiet target parent args)).bind
    (accept_quiet target)).isErrorless

theorem errorless_fetch (target : Target) (object : ObjectType) (parent : Value) (path : Path) :
    (env.fetch target object parent path).IsErrorless := by
  unfold fetch
  split
  · exact (Attempt.IsQuiet.pure _).isErrorless
  · refine .bind Attempt.IsQuiet.get.isErrorless fun executor => ?_
    exact .bind (Attempt.IsQuiet.ofCoercion _).isErrorless fun args =>
      env.errorless_resolve target path parent args

end Environment

/-! ## Positions -/

/-- An error has a path, and so has the error object behind it, if user code made that. -/
structure FieldError.StandsAt (error : FieldError) (path : Path) : Prop where
  own : error.path = some path
  given : ∀ fault, error.cause = .given fault → fault.path = some path

/-- The error of a cause stands at its position, unless the cause had a path before. -/
theorem World.standsAt_locate {world : World σ} {cause : FailureCause}
    (fresh : ∀ fault, cause = .given fault → (world.settleFault fault).path = none) (path : Path)
    (locations : List Location) : (world.locate cause path locations).StandsAt path := by
  cases cause with
  | given fault =>
    have placed : ((world.settleFault fault).locate (some path) locations).path = some path := by
      unfold Fault.locate
      rw [fresh fault rfl]
      rfl
    refine ⟨placed, ?_⟩
    rintro _ ⟨⟩
    exact placed
  | _ =>
    refine ⟨rfl, fun _ same => ?_⟩
    cases same

/-- An error that stands somewhere stays there, whatever becomes of its error object. -/
theorem FieldError.StandsAt.settle {error : FieldError} {path : Path} (stands : error.StandsAt path)
    (world : World σ) : (world.settle error).StandsAt path := by
  obtain ⟨cause, own, locations⟩ := error
  obtain ⟨rfl, given⟩ := stands
  cases cause with
  | given fault =>
    have placed : (world.settleFault fault).path = some path := by
      unfold World.settleFault
      split
      · exact given fault rfl
      · dsimp only
        rw [given fault rfl]
        rfl
    refine ⟨?_, given⟩
    unfold World.settle
    dsimp only
    rw [placed]
    rfl
  | _ => exact ⟨rfl, given⟩

/-- The errors noted are those of the failing positions at a path and below it, and each stands at
the path that leads to its position. -/
structure Position.Places (path : Path) (noted : List FieldError) (position : Position) : Prop where
  errors : noted = position.errors
  paths : List.Forall₂ (fun error below => error.StandsAt (path ++ below)) noted position.failures

/-- A trial is sound: an error object that failed the position was fresh, and a value completed below
the root is plain. -/
structure Trial.IsSound (trial : Trial σ) : Prop where
  fresh : trial.isFresh = true
  plain : 1 < trial.path.length → trial.isPlain = true

/-- All that a part tries is sound. -/
def Trials.Sound (trials : Trials σ) (before : Executor σ) : Prop :=
  ∀ trial ∈ trials before, trial.IsSound

section Position

variable {attempt : Attempt σ Position} {path : Path} {below : Trials σ} {before : Executor σ}

/-- What is tried below a position is sound where the position is. -/
theorem Trials.Sound.inside (sound : (Trials.attempt path attempt below).Sound before) :
    below.Sound before := by
  intro trial among
  refine sound trial ?_
  unfold Trials.attempt
  split
  · exact List.mem_cons_of_mem _ among
  · exact among

theorem Trials.Sound.own (sound : (Trials.attempt path attempt below).Sound before)
    {outcome : Except FailureCause Position} {after : Executor σ}
    (ran : Exec.runFrom attempt.run before = (.ok outcome, after)) :
    Trial.IsSound ⟨path, outcome, after⟩ := by
  refine sound _ ?_
  unfold Trials.attempt
  rw [ran]
  exact List.mem_cons_self

/-- A position with a sound trial has the errors of the failing positions in it, and is plain unless
it belongs to a root field. -/
theorem Attempt.Records.position (sound : (Trials.attempt path attempt below).Sound before)
    (records : attempt.Records before (Position.Places path)) (ref : TypeRef)
    (locations : List Location) :
    (Attempt.position ref path locations attempt).Records before fun noted position =>
      position.Places path noted ∧ (1 < path.length → position.isPlain = true) := by
  intro position after ran
  obtain ⟨outcome, middle, tried, finished⟩ := Exec.exists_of_runFrom_bind ran
  obtain ⟨noted, errors, held⟩ := records outcome middle tried
  have own := sound.own tried
  cases outcome with
  | ok position =>
    cases finished
    exact ⟨noted, errors, held, own.plain⟩
  | error cause =>
    cases held
    cases finished
    have fresh : ∀ fault, cause = .given fault → (middle.world.settleFault fault).path = none := by
      rintro fault rfl
      exact Option.isNone_iff_eq_none.mp own.fresh
    refine ⟨[middle.world.locate cause path locations], ?_, ⟨rfl, ?_⟩, fun _ => rfl⟩
    · exact congrArg (· ++ _) (errors.trans (List.append_nil _))
    · refine .cons ?_ .nil
      rw [List.append_nil]
      exact World.standsAt_locate fresh path locations

end Position

/-! ## Parts that belong together -/

/-- A part that gives plain positions where all that it tries is sound, and from which nothing
escapes that a position would take. -/
structure Exec.Settles (positionOf : α → Position) (part : Exec σ α) (trials : Trials σ)
    (yields : List FieldError → α → Prop) : Prop where
  escapes : ∀ before origin fault, (part.runFrom before).1 = .error (.escaped origin fault) →
    fault.kind.isFieldError = false
  records : ∀ before, trials.Sound before → part.Records before fun noted result =>
    yields noted result ∧ (positionOf result).isPlain = true

namespace Environment

variable {ι : Type} {entries : List ι} {part : ι → Exec σ α} {trials : ι → Trials σ}
  {positionOf : α → Position} {yields : ι → List FieldError → α → Prop}

/-- What parts come to in turn where all that they try is sound: if all have results, these go with
the errors recorded; those that have one are plain; nothing escapes that a position would take. -/
theorem attemptEach_records
    (each : ∀ entry ∈ entries, (part entry).Settles positionOf (trials entry) (yields entry))
    {before : Executor σ}
    (sound : (Trials.inTurn (entries.map fun entry => (part entry, trials entry))).Sound before) :
    (∀ results, ((Exec.attemptEach (entries.map part)).run before).1 = results.map Except.ok →
      ∃ noted, ((Exec.attemptEach (entries.map part)).run before).2.errors =
        before.errors ++ noted ∧ Jointly (entries.map yields) noted results) ∧
    (∀ found, .ok found ∈ ((Exec.attemptEach (entries.map part)).run before).1 →
      (positionOf found).isPlain = true) ∧
    ∀ origin fault,
      .error (.escaped origin fault) ∈ ((Exec.attemptEach (entries.map part)).run before).1 →
        fault.kind.isFieldError = false := by
  induction entries generalizing before with
  | nil =>
    refine ⟨fun results none => ?_, fun _ among => ?_, fun _ _ among => ?_⟩
    · exact ⟨[], (List.append_nil _).symm, rfl, List.map_eq_nil_iff.mp none.symm⟩
    · exact absurd among List.not_mem_nil
    · exact absurd among List.not_mem_nil
  | cons entry rest ih =>
    obtain ⟨here, others⟩ := List.forall_mem_cons.mp each
    obtain ⟨own, later⟩ := List.forall_mem_append.mp sound
    obtain ⟨succeed, plain, escape⟩ := ih others later
    rw [List.map_cons, Exec.run_attemptEach_cons]
    rw [Exec.runFrom_bind, Exec.runFrom_checkpoint] at succeed plain escape ⊢
    cases stopping : before.isStopping with
    | true =>
      rw [stopping] at succeed plain escape
      refine ⟨fun results found => ?_, fun found among => ?_, fun origin fault among => ?_⟩
      · obtain ⟨_, _, _, first, _⟩ := List.map_eq_cons_iff.mp found.symm
        cases first
      · exact plain found ((List.mem_cons.mp among).resolve_left nofun)
      · exact escape origin fault ((List.mem_cons.mp among).resolve_left nofun)
    | false =>
      rw [stopping] at own succeed plain escape
      have records := here.records before own
      refine ⟨fun results found => ?_, fun found among => ?_, fun origin fault among => ?_⟩
      · obtain ⟨result, more, rfl, first, following⟩ := List.map_eq_cons_iff.mp found.symm
        obtain ⟨noted, errors, held, _⟩ := records result _ (Prod.ext first.symm rfl)
        obtain ⟨after, errorsOn, jointly⟩ := succeed more following.symm
        refine ⟨noted ++ after, ?_, noted, after, result, more, rfl, rfl, held, jointly⟩
        rw [← List.append_assoc, ← errors]
        exact errorsOn
      · rcases List.mem_cons.mp among with first | among
        · obtain ⟨_, _, _, isPlain⟩ := records found _ (Prod.ext first.symm rfl)
          exact isPlain
        · exact plain found among
      · rcases List.mem_cons.mp among with first | among
        · exact here.escapes before origin fault first.symm
        · exact escape origin fault among

/-- Parts that belong together do not fail together where all that they try is sound, and have the
errors of all of them. -/
theorem together_records
    (each : ∀ entry ∈ entries, (part entry).Settles positionOf (trials entry) (yields entry))
    {before : Executor σ}
    (sound : (Trials.inTurn (entries.map fun entry => (part entry, trials entry))).Sound before) :
    (together positionOf (entries.map part)).Records before (Jointly (entries.map yields)) := by
  obtain ⟨succeed, plain, escape⟩ := attemptEach_records each sound
  intro outcome after ran
  rw [runFrom_together, Exec.runFrom_siblings,
    Exec.run_attemptEach_map (runFrom_checked positionOf)] at ran
  dsimp only at ran
  split at ran
  · cases ran
  · rcases joined : Exec.join (((Exec.attemptEach (entries.map part)).run before).1.map
      (·.bind (unlessFault positionOf))) with (_ | _ | ⟨origin, fault⟩ | _) | results
    · rw [joined] at ran
      cases ran
    · rw [joined] at ran
      cases ran
    · have ordinary : fault.kind.isFieldError = false := by
        obtain ⟨first, member, same⟩ := List.mem_map.mp (Exec.mem_of_join_eq_error joined)
        rcases first with why | found
        · cases same
          exact escape origin fault member
        · have isPlain := plain found member
          unfold Position.isPlain at isPlain
          have raised : unlessFault positionOf found = .error (.escaped origin fault) := same
          unfold unlessFault at raised
          split at raised
          · next other found =>
            cases raised
            rw [found] at isPlain
            exact Bool.not_eq_true' _ ▸ isPlain
          · cases raised
      rw [joined, settleTogether, Attempt.runFrom_raise, ordinary] at ran
      split at ran
      · cases ran
      · cases ran
    · rw [joined] at ran
      cases ran
    · rw [joined] at ran
      cases ran
      exact succeed results (map_unlessFault_eq_ok_iff.mp (Exec.eq_map_ok_of_join joined)).1

end Environment

end GraphQL
