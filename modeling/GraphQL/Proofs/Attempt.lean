import GraphQL.Proofs.Part

/-!
# Attempts

An attempt is a part of an execution that may fail at its position. The rules for parts carry over;
what comes on top is how a fault, a coercion that stops and the end of an attempt become a failure
of the position.
-/

namespace GraphQL

variable {σ α β : Type}

namespace Environment

variable {env : Environment σ} {root : ObjectType} {waits : Prop} {path : Path}

variable (env root waits) in
/-- What an attempt at a path does: as a part it gives a result or a cause of failure. -/
def Attempts (path : Path) (attempt : Attempt σ α) (yields : List FieldError → α → Prop) : Prop :=
  env.Meets root waits path attempt.run fun noted outcome =>
    match outcome with
    | .ok result => yields noted result
    | .error cause => env.Warrants root cause

namespace Attempts

variable {attempt : Attempt σ α} {next : α → Attempt σ β} {yields more : List FieldError → α → Prop}
  {later : List FieldError → β → Prop} {gives : α → Prop}

theorem mono (met : env.Attempts root waits path attempt yields)
    (weaker : ∀ noted result, yields noted result → more noted result) :
    env.Attempts root waits path attempt more := by
  refine Meets.mono met fun noted outcome held => ?_
  cases outcome with
  | ok result => exact weaker noted result held
  | error cause => exact held

protected theorem pure {result : α} (held : yields [] result) :
    env.Attempts root waits path (pure result) yields :=
  Meets.pure held

protected theorem bind (met : env.Attempts root waits path attempt yields)
    (goesOn : ∀ noted result, yields noted result →
      env.Attempts root waits path (next result) fun others => later (noted ++ others)) :
    env.Attempts root waits path (attempt >>= next) later := by
  unfold Attempts
  rw [ExceptT.run_bind]
  refine Meets.bind met fun noted outcome held => ?_
  cases outcome with
  | ok result => exact goesOn noted result held
  | error cause => exact .pure held

/-- An attempt that notes no error before another one goes on. -/
theorem bind_quiet
    (met : env.Attempts root waits path attempt fun noted result => noted = [] ∧ gives result)
    (goesOn : ∀ result, gives result → env.Attempts root waits path (next result) later) :
    env.Attempts root waits path (attempt >>= next) later := by
  refine met.bind ?_
  rintro noted result ⟨rfl, given⟩
  exact goesOn result given

theorem map {change : α → β}
    (met : env.Attempts root waits path attempt fun noted result => later noted (change result)) :
    env.Attempts root waits path (change <$> attempt) later := by
  rw [map_eq_pure_bind]
  refine met.bind fun noted result held => .pure ?_
  rwa [List.append_nil]

/-- What a part does, it does as an attempt that does not fail. -/
theorem lift {part : Exec σ α} (met : env.Meets root waits path part yields) :
    env.Attempts root waits path (liftM part) yields :=
  Meets.map met

theorem refuse_warranted {cause : FailureCause} (warranted : env.Warrants root cause) :
    env.Attempts root waits path (Attempt.refuse cause) yields :=
  Meets.pure warranted

theorem refuse {cause : FailureCause} (ordinary : cause.isOrdinary = true) :
    env.Attempts root waits path (Attempt.refuse cause) yields :=
  refuse_warranted (.ordinary ordinary)

protected theorem halt {why : Halt} (reason : env.MayHalt root waits why) :
    env.Attempts root waits path (Attempt.halt why) yields :=
  lift (.halt reason)

protected theorem get :
    env.Attempts root waits path (get : Attempt σ (Executor σ)) fun noted _ => noted = [] ∧ True :=
  lift .get

protected theorem modify {change : Executor σ → Executor σ}
    (errors : ∀ executor, (change executor).errors = executor.errors)
    (promises : ∀ executor, (change executor).world.promises = executor.world.promises) :
    env.Attempts root waits path (modify change : Attempt σ PUnit) fun noted _ =>
      noted = [] ∧ True :=
  lift (.modify errors promises)

theorem report (records : List LogRecord) :
    env.Attempts root waits path (Attempt.report records : Attempt σ Unit) fun noted _ =>
      noted = [] ∧ True :=
  .modify (fun _ => rfl) fun _ => rfl

/-- A fault that is raised fails the position if it is made for fields. -/
theorem raise {origin : FaultOrigin} {fault : Fault} (mine : origin ≠ .registry) :
    env.Attempts root waits path (Attempt.raise origin fault : Attempt σ α) yields := by
  unfold Attempt.raise
  split
  · exact .halt .cancelled
  · next running =>
    split
    · exact .refuse rfl
    · next ordinary =>
      exact .halt <| .escaped mine (by simpa using running) (by simpa using ordinary)

/-- The value of a coercion, provided that its failure is a reason to fail and that what stops it
otherwise is a reason to halt. -/
theorem ofCoercion {coercion : Coercion α}
    (warranted : ∀ failure, coercion.outcome = .error (.failed failure) →
      env.Warrants root (.coercion failure))
    (reason : ∀ stop why, coercion.outcome = .error stop → stop.halt? = some why →
      env.MayHalt root waits why) :
    env.Attempts root waits path (Attempt.ofCoercion coercion : Attempt σ α) fun noted result =>
      noted = [] ∧ coercion.outcome = .ok result := by
  unfold Attempt.ofCoercion
  refine (report _).bind_quiet fun _ _ => ?_
  split
  · next value found => exact .pure ⟨rfl, found⟩
  · next failed => exact .refuse_warranted (warranted _ failed)
  · next stopped => exact .halt (reason _ _ stopped rfl)
  · next stopped => exact .halt (reason _ _ stopped rfl)
  · next stopped => exact .halt (reason _ _ stopped rfl)

end Attempts

/-- A position fails with an error of its own, after what was noted before. -/
theorem Meets.fail {cause : FailureCause} {required : Bool} {locations : List Location}
    (warranted : env.Warrants root cause) :
    env.Meets root waits path
      (do
        let error := (← (get : Exec σ (Executor σ))).world.locate cause path locations
        modify (Executor.recordError error)
        pure (Position.failed required error))
      fun noted position => ∃ error, position = Position.failed required error ∧
        noted = [error] ∧ error.IsAt path := by
  refine Meets.get.bind_quiet fun executor _ => ?_
  have placed := executor.world.isAt_locate cause path locations
  refine (Meets.record placed.isUnder (warranted.locate _ _ _)).bind fun noted _ recorded => ?_
  exact .pure ⟨_, rfl, by rw [recorded, List.append_nil], placed⟩

/-- A position is laid out as its type says and accounts for the errors noted on the way, if that is
so where the attempt at the position succeeds. -/
theorem Meets.position {ref : TypeRef} {selections : List (List Selection)}
    {locations : List Location} {attempt : Attempt σ Position}
    (met : env.Attempts root waits path attempt fun noted position =>
      env.Fits ref selections position ∧ position.Accounts path noted) :
    env.Meets root waits path (Attempt.position ref path locations attempt) fun noted position =>
      env.Fits ref selections position ∧ position.Accounts path noted := by
  unfold Attempt.position
  refine Meets.bind (Meets.under met) ?_
  rintro noted outcome ⟨held, under⟩
  cases outcome with
  | ok position => exact .pure (by rwa [List.append_nil])
  | error cause =>
    refine (Meets.fail held).mono ?_
    rintro last position ⟨error, rfl, rfl, placed⟩
    exact ⟨rfl, placed, noted, rfl, under⟩

end Environment

end GraphQL
