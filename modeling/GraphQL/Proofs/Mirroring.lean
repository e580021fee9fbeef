import GraphQL.Proofs.Siblings

/-!
# Parts that mirror each other

Two parts of executions mirror each other if, begun with executors that share all that is read
during an execution, they leave such executors again and end alike. The errors, the calls and the
reports of an executor are only written. So what a part gives does not depend on them, and a part
does not notice that another one before it failed instead of giving a value, as long as that left
the rest of the executor the same.
-/

namespace GraphQL

variable {σ α β γ δ : Type}

/-- A world without its reports. -/
def World.silent (world : World σ) : World σ :=
  { world with records := [] }

/-- The part of an executor that is read during an execution. -/
def Executor.shared (executor : Executor σ) : Executor σ :=
  { executor with world := executor.world.silent, errors := [], calls := [], history := [] }

namespace Executor

variable {one two : Executor σ}

theorem isStopping_of_shared (same : one.shared = two.shared) : one.isStopping = two.isStopping :=
  (congrArg isStopping same : one.shared.isStopping = two.shared.isStopping)

theorem user_of_shared (same : one.shared = two.shared) : one.world.user = two.world.user :=
  congrArg (·.world.user) same

theorem interruption_of_shared (same : one.shared = two.shared) (settings : Settings) :
    one.interruption settings = two.interruption settings :=
  (congrArg (interruption settings) same :
    one.shared.interruption settings = two.shared.interruption settings)

/-- What becomes of error objects in a value shows in what is shared. -/
theorem settleValue_of_shared (same : one.shared = two.shared) :
    one.world.settleValue = two.world.settleValue :=
  congrArg (·.world.settleValue) same

theorem locate_of_shared (same : one.shared = two.shared) :
    one.world.locate = two.world.locate :=
  congrArg (·.world.locate) same

/-- Recording an error changes what is shared by the place of an error object alone. -/
theorem shared_recordError (error : FieldError) (executor : Executor σ) :
    (executor.recordError error).shared = (executor.shared.recordError error).shared := by
  rcases executor with ⟨world, phase, reason, errors, started, calls, history⟩
  unfold recordError World.keepError
  dsimp only
  cases error.cause.given? with
  | none => rfl
  | some fault =>
    unfold World.keepPlace
    cases identified : fault.identity with
    | none => simp only [identified]; rfl
    | some identity => simp only [identified]; rfl

theorem shared_forceStop (reason : String) (executor : Executor σ) :
    (executor.forceStop reason).shared = (executor.shared.forceStop reason).shared := by
  unfold forceStop
  have same : executor.shared.isStopping = executor.isStopping := rfl
  rw [same]
  split <;> rfl

end Executor

namespace Exec

/-- Outcomes that are alike: related results, or one reason to halt. -/
inductive Alike {ε : Type} (related : α → β → Prop) : Except ε α → Except ε β → Prop where
  | ok {one : α} {two : β} : related one two → Alike related (.ok one) (.ok two)
  | error (why : ε) : Alike related (.error why) (.error why)

theorem Alike.mono {ε : Type} {related weaker : α → β → Prop} {one : Except ε α} {two : Except ε β}
    (alike : Alike related one two) (implies : ∀ one two, related one two → weaker one two) :
    Alike weaker one two := by
  cases alike with
  | ok held => exact .ok (implies _ _ held)
  | error why => exact .error why

/-- Parts that leave executors that share the same again and end alike. -/
def Mirrors (related : α → β → Prop) (part : Exec σ α) (other : Exec σ β) : Prop :=
  ∀ one two, one.shared = two.shared →
    (part.runFrom one).2.shared = (other.runFrom two).2.shared ∧
      Alike related (part.runFrom one).1 (other.runFrom two).1

/-- A part whose outcome depends on what is shared alone. -/
abbrev IsBlind (part : Exec σ α) : Prop :=
  Mirrors Eq part part

namespace Mirrors

variable {related : α → β → Prop} {later : γ → δ → Prop} {part : Exec σ α} {other : Exec σ β}
  {next : α → Exec σ γ} {otherNext : β → Exec σ δ}

theorem mono {weaker : α → β → Prop} (mirrored : Mirrors related part other)
    (implies : ∀ one two, related one two → weaker one two) : Mirrors weaker part other :=
  fun one two same => ⟨(mirrored one two same).1, (mirrored one two same).2.mono implies⟩

protected theorem pure {one : α} {two : β} (held : related one two) :
    Mirrors related (pure one : Exec σ α) (pure two) :=
  fun _ _ same => ⟨same, .ok held⟩

protected theorem halt (why : Halt) :
    Mirrors related (Exec.halt why : Exec σ α) (Exec.halt why) :=
  fun _ _ same => ⟨same, .error why⟩

protected theorem bind (mirrored : Mirrors related part other)
    (goesOn : ∀ one two, related one two → Mirrors later (next one) (otherNext two)) :
    Mirrors later (part >>= next) (other >>= otherNext) := by
  intro one two same
  obtain ⟨left, alike⟩ := mirrored one two same
  rcases ran : part.runFrom one with ⟨outcome, after⟩
  rcases otherRan : other.runFrom two with ⟨otherOutcome, otherAfter⟩
  rw [ran, otherRan] at left alike
  cases alike with
  | ok held =>
    rw [runFrom_bind_ok ran, runFrom_bind_ok otherRan]
    exact goesOn _ _ held after otherAfter left
  | error why =>
    rw [runFrom_bind_error ran, runFrom_bind_error otherRan]
    exact ⟨left, .error why⟩

/-- A blind part before parts that mirror each other whatever it gives. -/
theorem bind_blind {part : Exec σ α} {next : α → Exec σ γ} {otherNext : α → Exec σ δ}
    (blind : part.IsBlind) (goesOn : ∀ result, Mirrors later (next result) (otherNext result)) :
    Mirrors later (part >>= next) (part >>= otherNext) := by
  refine blind.bind ?_
  rintro result _ rfl
  exact goesOn result

theorem map {change : α → γ} {otherChange : β → δ}
    (mirrored : Mirrors (fun one two => later (change one) (otherChange two)) part other) :
    Mirrors later (change <$> part) (otherChange <$> other) := by
  rw [map_eq_pure_bind, map_eq_pure_bind]
  exact mirrored.bind fun _ _ held => .pure held

protected theorem get :
    Mirrors (fun one two => one.shared = two.shared) (get : Exec σ (Executor σ)) get :=
  fun _ _ same => ⟨same, .ok same⟩

protected theorem modify {change : Executor σ → Executor σ}
    (reads : ∀ executor, (change executor).shared = (change executor.shared).shared) :
    IsBlind (modify change : Exec σ PUnit) := by
  intro one two same
  refine ⟨?_, .ok rfl⟩
  rw [runFrom_modify, runFrom_modify, reads one, reads two, same]

/-- A change of the world that does not read reports. -/
protected theorem withWorld {change : World σ → α × World σ}
    (reads : ∀ world, (change world.silent).1 = (change world).1 ∧
      (change world.silent).2.silent = (change world).2.silent) :
    IsBlind (withWorld change) := by
  intro one two same
  have worlds : one.world.silent = two.world.silent := congrArg Executor.world same
  have left : (change one.world).2.silent = (change two.world).2.silent := by
    rw [← (reads one.world).2, ← (reads two.world).2, worlds]
  have result : (change one.world).1 = (change two.world).1 := by
    rw [← (reads one.world).1, ← (reads two.world).1, worlds]
  rw [runFrom_withWorld, runFrom_withWorld, result]
  refine ⟨?_, .ok rfl⟩
  show { one.shared with world := (change one.world).2.silent } =
    { two.shared with world := (change two.world).2.silent }
  rw [left, same]

theorem checkpoint : IsBlind (Exec.checkpoint : Exec σ Unit) := by
  intro one two same
  rw [runFrom_checkpoint, runFrom_checkpoint, Executor.isStopping_of_shared same]
  refine ⟨same, ?_⟩
  cases two.isStopping with
  | true => exact .error Halt.cancelled
  | false => exact .ok rfl

theorem outcome (mirrored : Mirrors related part other) :
    Mirrors (Alike related) part.outcome other.outcome := by
  intro one two same
  rw [runFrom_outcome, runFrom_outcome]
  exact ⟨(mirrored one two same).1, .ok (mirrored one two same).2⟩

end Mirrors

/-- Outcomes that are alike one by one are alike together. -/
theorem alike_mapM {related : α → β → Prop} {outcomes : List (Except Halt α)}
    {others : List (Except Halt β)} (alike : List.Forall₂ (Alike related) outcomes others) :
    Alike (List.Forall₂ related) (outcomes.mapM id) (others.mapM id) := by
  induction alike with
  | nil => exact .ok .nil
  | @cons outcome other rest others first _ ih =>
    rw [List.mapM_cons, List.mapM_cons]
    cases first with
    | error why => exact .error why
    | ok held =>
      generalize rest.mapM id = together at ih ⊢
      generalize others.mapM id = otherTogether at ih ⊢
      cases ih with
      | ok all => exact .ok (.cons held all)
      | error why => exact .error why

theorem any_eq_of_forall₂ {related : α → β → Prop} {accepts : α → Bool} {otherAccepts : β → Bool}
    {items : List α} {others : List β} (held : List.Forall₂ related items others)
    (agree : ∀ one two, related one two → accepts one = otherAccepts two) :
    items.any accepts = others.any otherAccepts := by
  induction held with
  | nil => rfl
  | cons first _ ih => rw [List.any_cons, List.any_cons, agree _ _ first, ih]

theorem isHung_eq_of_alike {related : α → β → Prop} {one : Except Halt α} {two : Except Halt β}
    (alike : Alike related one two) : isHung one = isHung two := by
  rcases alike with _ | (_ | _ | _ | _) <;> rfl

theorem isTooDeep_eq_of_alike {related : α → β → Prop} {one : Except Halt α}
    {two : Except Halt β} (alike : Alike related one two) : isTooDeep one = isTooDeep two := by
  rcases alike with _ | (_ | _ | _ | _) <;> rfl

theorem alike_join {related : α → β → Prop} {outcomes : List (Except Halt α)}
    {others : List (Except Halt β)} (alike : List.Forall₂ (Alike related) outcomes others) :
    Alike (List.Forall₂ related) (join outcomes) (join others) := by
  have hung : outcomes.any isHung = others.any isHung :=
    any_eq_of_forall₂ alike fun _ _ same => isHung_eq_of_alike same
  have deep : outcomes.any isTooDeep = others.any isTooDeep :=
    any_eq_of_forall₂ alike fun _ _ same => isTooDeep_eq_of_alike same
  unfold join
  rw [hung, deep]
  split
  · exact .error Halt.hung
  · split
    · exact .error Halt.tooDeep
    · exact alike_mapM alike

/-- Parts that mirror each other one by one end alike one by one. -/
theorem attemptEach_mirrors {related : α → β → Prop} {parts : List (Exec σ α)}
    {others : List (Exec σ β)} (mirrored : List.Forall₂ (Mirrors related) parts others)
    {one two : Executor σ} (same : one.shared = two.shared) :
    ((attemptEach parts).run one).2.shared = ((attemptEach others).run two).2.shared ∧
      List.Forall₂ (Alike related) ((attemptEach parts).run one).1
        ((attemptEach others).run two).1 := by
  induction mirrored generalizing one two with
  | nil => exact ⟨same, .nil⟩
  | cons first _ ih =>
    rw [run_attemptEach_cons, run_attemptEach_cons]
    have begins := Mirrors.bind_blind .checkpoint fun _ => first
    obtain ⟨left, alike⟩ := begins one two same
    obtain ⟨leftOn, alikeOn⟩ := ih left
    exact ⟨leftOn, .cons alike alikeOn⟩

theorem Mirrors.siblings {related : α → β → Prop} {parts : List (Exec σ α)}
    {others : List (Exec σ β)} (mirrored : List.Forall₂ (Mirrors related) parts others) :
    Mirrors (List.Forall₂ related) (Exec.siblings parts) (Exec.siblings others) := by
  intro one two same
  obtain ⟨left, alike⟩ := attemptEach_mirrors mirrored same
  have empty : parts.isEmpty = others.isEmpty := by cases mirrored <;> rfl
  rw [runFrom_siblings, runFrom_siblings, empty, Executor.isStopping_of_shared left]
  refine ⟨left, ?_⟩
  split
  · exact .error Halt.cancelled
  · exact alike_join alike

end Exec

namespace Attempt

/-- Attempts that mirror each other as parts: they give related results, fail for one cause or have
one reason to halt. -/
def Mirrors (related : α → β → Prop) (attempt : Attempt σ α) (other : Attempt σ β) : Prop :=
  Exec.Mirrors (Exec.Alike related) attempt.run other.run

/-- An attempt whose outcome depends on what is shared alone. -/
abbrev IsBlind (attempt : Attempt σ α) : Prop :=
  Mirrors Eq attempt attempt

namespace Mirrors

variable {related : α → β → Prop} {later : γ → δ → Prop} {attempt : Attempt σ α}
  {other : Attempt σ β} {next : α → Attempt σ γ} {otherNext : β → Attempt σ δ}

protected theorem pure {one : α} {two : β} (held : related one two) :
    Mirrors related (pure one : Attempt σ α) (pure two) :=
  Exec.Mirrors.pure (.ok held)

theorem refuse (cause : FailureCause) :
    Mirrors related (Attempt.refuse cause : Attempt σ α) (Attempt.refuse cause) :=
  Exec.Mirrors.pure (.error cause)

theorem mono {weaker : α → β → Prop} (mirrored : Mirrors related attempt other)
    (implies : ∀ one two, related one two → weaker one two) : Mirrors weaker attempt other :=
  Exec.Mirrors.mono mirrored fun _ _ alike => alike.mono implies

protected theorem bind (mirrored : Mirrors related attempt other)
    (goesOn : ∀ one two, related one two → Mirrors later (next one) (otherNext two)) :
    Mirrors later (attempt >>= next) (other >>= otherNext) := by
  unfold Mirrors
  rw [ExceptT.run_bind, ExceptT.run_bind]
  refine Exec.Mirrors.bind mirrored fun one two alike => ?_
  cases alike with
  | ok held => exact goesOn _ _ held
  | error cause => exact .pure (.error cause)

/-- A blind attempt before attempts that mirror each other whatever it gives. -/
theorem bind_blind {attempt : Attempt σ α} {next : α → Attempt σ γ} {otherNext : α → Attempt σ δ}
    (blind : attempt.IsBlind)
    (goesOn : ∀ result, Mirrors later (next result) (otherNext result)) :
    Mirrors later (attempt >>= next) (attempt >>= otherNext) := by
  refine blind.bind ?_
  rintro result _ rfl
  exact goesOn result

theorem map {change : α → γ} {otherChange : β → δ}
    (mirrored : Mirrors (fun one two => later (change one) (otherChange two)) attempt other) :
    Mirrors later (change <$> attempt) (otherChange <$> other) := by
  rw [map_eq_pure_bind, map_eq_pure_bind]
  exact mirrored.bind fun _ _ held => .pure held

/-- Parts that mirror each other do so as attempts that do not fail. -/
theorem lift {part : Exec σ α} {otherPart : Exec σ β}
    (mirrored : Exec.Mirrors related part otherPart) :
    Mirrors related (liftM part : Attempt σ α) (liftM otherPart) :=
  Exec.Mirrors.map (mirrored.mono fun _ _ held => .ok held)

protected theorem halt (why : Halt) :
    Mirrors related (Attempt.halt why : Attempt σ α) (Attempt.halt why) :=
  lift (.halt why)

protected theorem get :
    Mirrors (fun one two => one.shared = two.shared) (get : Attempt σ (Executor σ)) get :=
  lift .get

protected theorem modify {change : Executor σ → Executor σ}
    (reads : ∀ executor, (change executor).shared = (change executor.shared).shared) :
    IsBlind (modify change : Attempt σ PUnit) :=
  lift (.modify reads)

theorem report (records : List LogRecord) : IsBlind (Attempt.report records : Attempt σ Unit) :=
  .modify fun _ => rfl

theorem raise (origin : FaultOrigin) (fault : Fault) :
    Mirrors related (Attempt.raise origin fault : Attempt σ α) (Attempt.raise origin fault) := by
  unfold Attempt.raise
  split
  · exact .halt .cancelled
  · split
    · exact refuse _
    · exact .halt _

theorem ofCoercion (coercion : Coercion α) :
    IsBlind (Attempt.ofCoercion coercion : Attempt σ α) := by
  unfold Attempt.ofCoercion
  refine bind_blind (report _) fun _ => ?_
  split
  · exact .pure rfl
  · exact refuse _
  · exact .halt _
  · exact .halt _
  · exact .halt _

end Mirrors

end Attempt

end GraphQL
