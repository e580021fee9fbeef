import GraphQL.Execution

/-!
# Running parts of an execution

What a part of an execution does to an executor, as a function: its result, or why it halted,
together with the executor that it leaves. Each way of building a part has its equation here, so
that later statements about parts never open the monad.
-/

namespace GraphQL

variable {σ α β : Type}

/-- What succeeds in two steps succeeds in each of them. -/
theorem exists_of_bind_eq_ok {ε : Type} {first : Except ε α} {next : α → Except ε β} {result : β}
    (done : first >>= next = .ok result) :
    ∃ value, first = .ok value ∧ next value = .ok result := by
  cases first with
  | error failure => cases done
  | ok value => exact ⟨value, rfl, done⟩

namespace Exec

/-- The outcome of a part that begins with an executor, and the executor that it leaves. -/
def runFrom (part : Exec σ α) (executor : Executor σ) : Except Halt α × Executor σ :=
  Id.run (part.run.run executor)

@[simp] theorem runFrom_pure (result : α) (executor : Executor σ) :
    (pure result : Exec σ α).runFrom executor = (.ok result, executor) :=
  rfl

theorem runFrom_bind (part : Exec σ α) (next : α → Exec σ β) (executor : Executor σ) :
    (part >>= next).runFrom executor =
      match part.runFrom executor with
      | (.ok result, after) => (next result).runFrom after
      | (.error why, after) => (.error why, after) := by
  unfold runFrom
  show Id.run ((ExceptT.bind part next).run.run executor) = _
  cases ran : Id.run (part.run.run executor) with
  | mk outcome after =>
    have ranStep : part executor = (outcome, after) := ran
    simp only [ExceptT.bind, ExceptT.bindCont, ExceptT.mk, ExceptT.run, StateT.run, bind,
      StateT.bind, Id.run, ranStep]
    cases outcome <;> rfl

/-- A part that halted ends what comes after it. -/
theorem runFrom_bind_error {part : Exec σ α} {next : α → Exec σ β} {before after : Executor σ}
    {why : Halt} (ran : part.runFrom before = (.error why, after)) :
    (part >>= next).runFrom before = (.error why, after) := by
  rw [runFrom_bind, ran]

/-- A part that gave a result hands it on. -/
theorem runFrom_bind_ok {part : Exec σ α} {next : α → Exec σ β} {before after : Executor σ}
    {result : α} (ran : part.runFrom before = (.ok result, after)) :
    (part >>= next).runFrom before = (next result).runFrom after := by
  rw [runFrom_bind, ran]

/-- What gives a result in two steps gives one in each of them. -/
theorem exists_of_runFrom_bind {part : Exec σ α} {next : α → Exec σ β} {before after : Executor σ}
    {result : β} (ran : (part >>= next).runFrom before = (.ok result, after)) :
    ∃ value middle, part.runFrom before = (.ok value, middle) ∧
      (next value).runFrom middle = (.ok result, after) := by
  rcases first : part.runFrom before with ⟨why | value, middle⟩
  · rw [runFrom_bind_error first] at ran
    cases ran
  · rw [runFrom_bind_ok first] at ran
    exact ⟨value, middle, rfl, ran⟩

@[simp] theorem runFrom_map (change : α → β) (part : Exec σ α) (executor : Executor σ) :
    (change <$> part).runFrom executor =
      ((part.runFrom executor).1.map change, (part.runFrom executor).2) := by
  rw [map_eq_pure_bind, runFrom_bind]
  rcases part.runFrom executor with ⟨_ | _, _⟩ <;> rfl

@[simp] theorem runFrom_get (executor : Executor σ) :
    (get : Exec σ (Executor σ)).runFrom executor = (.ok executor, executor) :=
  rfl

@[simp] theorem runFrom_modify (change : Executor σ → Executor σ) (executor : Executor σ) :
    (modify change : Exec σ PUnit).runFrom executor = (.ok ⟨⟩, change executor) :=
  rfl

@[simp] theorem runFrom_modifyGet (change : Executor σ → α × Executor σ)
    (executor : Executor σ) :
    (modifyGet change : Exec σ α).runFrom executor =
      (.ok (change executor).1, (change executor).2) :=
  rfl

@[simp] theorem runFrom_withWorld (change : World σ → α × World σ) (executor : Executor σ) :
    (withWorld change).runFrom executor =
      (.ok (change executor.world).1, { executor with world := (change executor.world).2 }) :=
  rfl

@[simp] theorem runFrom_halt (why : Halt) (executor : Executor σ) :
    (halt why : Exec σ α).runFrom executor = (.error why, executor) :=
  rfl

/-- What cannot halt gives a result. -/
@[simp] theorem runFrom_lift (part : StateM (Executor σ) α) (executor : Executor σ) :
    (liftM part : Exec σ α).runFrom executor =
      (.ok (part.run executor).1, (part.run executor).2) :=
  rfl

@[simp] theorem runFrom_outcome (part : Exec σ α) (executor : Executor σ) :
    part.outcome.runFrom executor = (.ok (part.runFrom executor).1, (part.runFrom executor).2) :=
  rfl

@[simp] theorem runFrom_mk (outcome : Except Halt α) (executor : Executor σ) :
    Exec.runFrom (ExceptT.mk (pure outcome) : Exec σ α) executor = (outcome, executor) :=
  rfl

@[simp] theorem runFrom_checkpoint (executor : Executor σ) :
    (checkpoint : Exec σ Unit).runFrom executor =
      (if executor.isStopping then .error .cancelled else .ok (), executor) := by
  unfold checkpoint
  rw [runFrom_bind_ok (runFrom_get executor)]
  split
  · rfl
  · rfl

/-- Unless a stop was asked for, a part goes on. -/
theorem runFrom_checkpoint_of_running {before : Executor σ} (running : before.isStopping = false) :
    (checkpoint : Exec σ Unit).runFrom before = (.ok (), before) := by
  rw [runFrom_checkpoint, running]
  rfl

/-- A part as an attempt does not fail. -/
theorem run_liftM (part : Exec σ α) : (liftM part : Attempt σ α).run = Except.ok <$> part :=
  rfl

end Exec

/-- What comes next after a part as an attempt comes after the part. -/
theorem Attempt.run_liftM_bind (part : Exec σ α) (next : α → Attempt σ β) :
    (liftM part >>= next : Attempt σ β).run = part >>= fun result => (next result).run := by
  rw [ExceptT.run_bind, Exec.run_liftM, bind_map_left]

/-- What a part gives, it gives as an attempt. -/
theorem Attempt.runFrom_liftM_ok {part : Exec σ α} {before middle : Executor σ} {value : α}
    (ran : part.runFrom before = (.ok value, middle)) :
    Exec.runFrom (liftM part : Attempt σ α).run before = (.ok (.ok value), middle) := by
  rw [Exec.run_liftM, Exec.runFrom_map, ran]
  rfl

/-- After an attempt that gives a value, what comes next goes on from there. -/
theorem Attempt.runFrom_bind_ok {attempt : Attempt σ α} {next : α → Attempt σ β}
    {before middle : Executor σ} {value : α}
    (ran : Exec.runFrom attempt.run before = (.ok (.ok value), middle)) :
    Exec.runFrom (attempt >>= next).run before = Exec.runFrom (next value).run middle := by
  rw [ExceptT.run_bind]
  exact Exec.runFrom_bind_ok ran

/-- What comes next goes on alike after attempts that come to the same. -/
theorem Attempt.runFrom_bind_congr {attempt other : Attempt σ α} {before middle : Executor σ}
    (same : Exec.runFrom attempt.run before = Exec.runFrom other.run middle)
    (next : α → Attempt σ β) :
    Exec.runFrom (attempt >>= next).run before = Exec.runFrom (other >>= next).run middle := by
  rw [ExceptT.run_bind, ExceptT.run_bind, Exec.runFrom_bind, Exec.runFrom_bind, same]

/-- A fault that is raised abandons the root field, fails the position or escapes. -/
theorem Attempt.runFrom_raise (origin : FaultOrigin) (fault : Fault) (executor : Executor σ) :
    Exec.runFrom (Attempt.raise origin fault : Attempt σ α).run executor =
      (if fault.kind.isCancellation then .error .cancelled
        else if fault.kind.isFieldError then .ok (.error (.given fault))
        else .error (.escaped origin fault), executor) := by
  unfold Attempt.raise
  split
  · rfl
  · split
    · rfl
    · rfl

/-- A coercion that gives a value reports what it passed over. -/
theorem Attempt.runFrom_ofCoercion {coercion : Coercion α} {value : α}
    (coerced : coercion.outcome = .ok value) (before : Executor σ) :
    Exec.runFrom (Attempt.ofCoercion coercion : Attempt σ α).run before =
      (.ok (.ok value), before.report (coercion.ignored.map IgnoredKey.record)) := by
  rcases coercion with ⟨outcome, ignored⟩
  cases coerced
  rfl

/-- A coercion records no error itself, whatever it comes to. -/
theorem Attempt.errors_ofCoercion {coercion : Coercion α} {next : α → Attempt σ β}
    {before : Executor σ}
    (same : ∀ value middle, (Exec.runFrom (next value).run middle).2.errors = middle.errors) :
    (Exec.runFrom (Attempt.ofCoercion coercion >>= next).run before).2.errors =
      before.errors := by
  rcases coercion with ⟨outcome, ignored⟩
  rcases outcome with (_ | _ | _ | _) | value
  · rfl
  · rfl
  · rfl
  · rfl
  · exact same value _

end GraphQL
