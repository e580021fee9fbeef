import GraphQL.Proofs.Gathering
import GraphQL.Proofs.Retracing
import Mathlib.Algebra.Order.Group.Multiset

/-!
# Parts that come to the same

Two parts of an execution agree if they come to the same from whichever executors they begin, as
long as those are not stopped and their worlds are as usual: they give related results and note the
same errors, of which the order does not count. What is usual is left open; it may say that a store
of user code is what it was, or that no error object has got its place.
-/

namespace GraphQL

variable {σ α β γ δ : Type}

/-- An error as a response shows it. -/
structure ShownError where
  kind : FaultKind
  message : String
  path : Option Path
  locations : List Location
  underlying : Option FaultKind
  leaves : Option (List (FaultKind × String × Path))

/-- What a response shows of an error. -/
def FieldError.shown (error : FieldError) : ShownError where
  kind := error.cause.kind
  message := error.cause.message
  path := error.path
  locations := error.locations
  underlying := error.cause.underlying?
  leaves := error.cause.leaves?

namespace Executor

variable {before middle after : Executor σ} {errors more : Multiset ShownError}
  {usual : World σ → Prop}

/-- The errors that an executor has recorded since, as they show. -/
def Notes (before : Executor σ) (errors : Multiset ShownError) (after : Executor σ) : Prop :=
  ∃ noted, after.errors = before.errors ++ noted ∧
    (noted.map FieldError.shown : Multiset ShownError) = errors

theorem Notes.of_eq (same : after.errors = before.errors) : Notes before 0 after :=
  ⟨[], by rw [same, List.append_nil], rfl⟩

theorem Notes.trans (first : Notes before errors middle) (second : Notes middle more after) :
    Notes before (errors + more) after := by
  obtain ⟨noted, all, rfl⟩ := first
  obtain ⟨later, allLater, rfl⟩ := second
  refine ⟨noted ++ later, by rw [allLater, all, List.append_assoc], ?_⟩
  rw [List.map_append, Multiset.coe_add]

theorem Notes.unique (first : Notes before errors after) (second : Notes before more after) :
    errors = more := by
  obtain ⟨noted, all, rfl⟩ := first
  obtain ⟨others, same, rfl⟩ := second
  rw [all] at same
  rw [List.append_cancel_left same]

/-- An executor that is not stopped, in a world as usual. What is reported does not count. -/
structure Ready (usual : World σ → Prop) (executor : Executor σ) : Prop where
  running : executor.isStopping = false
  world : usual executor.world.silent

theorem Ready.of_eq (ready : before.Ready usual) (phase : after.phase = before.phase)
    (world : after.world.silent = before.world.silent) : after.Ready usual where
  running := by
    unfold isStopping
    rw [phase]
    exact ready.running
  world := world ▸ ready.world

/-- Recording an error that is no error object of user code leaves an executor ready. -/
theorem Ready.recordError (ready : before.Ready usual) {error : FieldError}
    (own : error.cause.given? = none) : (before.recordError error).Ready usual := by
  refine ready.of_eq rfl ?_
  unfold Executor.recordError World.keepError
  dsimp only
  rw [own]
  rfl

end Executor

open Executor (Notes Ready)

namespace Exec

/-- A part gives a result and leaves an executor that is ready, with some errors noted. -/
structure Ends (usual : World σ → Prop) (part : Exec σ α) (before : Executor σ)
    (errors : Multiset ShownError) (result : α) (after : Executor σ) : Prop where
  ran : part.runFrom before = (.ok result, after)
  ready : after.Ready usual
  notes : Notes before errors after

/-- Parts that begin with two executors agree: both give a result, the results are related, and the
same errors are noted. -/
def AgreeFrom (usual : World σ → Prop) (related : α → Executor σ → β → Executor σ → Prop)
    (part : Exec σ α) (one : Executor σ) (other : Exec σ β) (two : Executor σ) : Prop :=
  ∃ errors result after otherResult otherAfter,
    Ends usual part one errors result after ∧ Ends usual other two errors otherResult otherAfter ∧
      related result after otherResult otherAfter

/-- Parts that agree whichever executors they begin with. -/
def Agree (usual : World σ → Prop) (related : α → β → Prop) (part : Exec σ α) (other : Exec σ β) :
    Prop :=
  ∀ one two, one.Ready usual → two.Ready usual →
    AgreeFrom usual (fun result _ otherResult _ => related result otherResult) part one other two

variable {usual : World σ → Prop} {related : α → Executor σ → β → Executor σ → Prop}
  {later : γ → Executor σ → δ → Executor σ → Prop} {part : Exec σ α} {other : Exec σ β}
  {next : α → Exec σ γ} {otherNext : β → Exec σ δ} {one two : Executor σ}

namespace Ends

variable {before middle after : Executor σ} {errors more : Multiset ShownError} {result : α}
  {value : γ}

protected theorem pure (ready : before.Ready usual) :
    Ends usual (pure result : Exec σ α) before 0 result before :=
  ⟨rfl, ready, .of_eq rfl⟩

/-- What is ready passes checkpoints. -/
theorem checkpoint (ready : before.Ready usual) :
    Ends usual (Exec.checkpoint : Exec σ Unit) before 0 () before :=
  ⟨runFrom_checkpoint_of_running ready.running, ready, .of_eq rfl⟩

protected theorem bind (first : Ends usual part before errors result middle)
    (second : Ends usual (next result) middle more value after) :
    Ends usual (part >>= next) before (errors + more) value after where
  ran := by rw [runFrom_bind_ok first.ran, second.ran]
  ready := second.ready
  notes := first.notes.trans second.notes

/-- A part that notes nothing, before another one. -/
theorem step (ran : part.runFrom before = (.ok result, middle))
    (same : middle.errors = before.errors)
    (second : Ends usual (next result) middle errors value after) :
    Ends usual (part >>= next) before errors value after where
  ran := by rw [runFrom_bind_ok ran, second.ran]
  ready := second.ready
  notes := by
    have joined := (Notes.of_eq same).trans second.notes
    rwa [zero_add] at joined

theorem map {change : α → γ} (ended : Ends usual part before errors result after) :
    Ends usual (change <$> part) before errors (change result) after where
  ran := by rw [runFrom_map, ended.ran]; rfl
  ready := ended.ready
  notes := ended.notes

/-- What a part comes to is determined by where it begins. -/
theorem unique {otherResult : α} {otherAfter : Executor σ}
    (ended : Ends usual part before errors result after)
    (likewise : Ends usual part before more otherResult otherAfter) :
    errors = more ∧ result = otherResult ∧ after = otherAfter := by
  have same := ended.ran.symm.trans likewise.ran
  cases same
  exact ⟨ended.notes.unique likewise.notes, rfl, rfl⟩

end Ends

namespace AgreeFrom

theorem mono {weaker : α → Executor σ → β → Executor σ → Prop}
    (agree : AgreeFrom usual related part one other two)
    (implies : ∀ result after otherResult otherAfter,
      related result after otherResult otherAfter → weaker result after otherResult otherAfter) :
    AgreeFrom usual weaker part one other two := by
  obtain ⟨errors, result, after, otherResult, otherAfter, ends, otherEnds, held⟩ := agree
  exact ⟨errors, result, after, otherResult, otherAfter, ends, otherEnds, implies _ _ _ _ held⟩

protected theorem pure {result : α} {otherResult : β} (ready : one.Ready usual)
    (otherReady : two.Ready usual) (held : related result one otherResult two) :
    AgreeFrom usual related (pure result) one (pure otherResult) two :=
  ⟨0, result, one, otherResult, two, .pure ready, .pure otherReady, held⟩

protected theorem bind (agree : AgreeFrom usual related part one other two)
    (goesOn : ∀ result after otherResult otherAfter, after.Ready usual → otherAfter.Ready usual →
      related result after otherResult otherAfter →
        AgreeFrom usual later (next result) after (otherNext otherResult) otherAfter) :
    AgreeFrom usual later (part >>= next) one (other >>= otherNext) two := by
  obtain ⟨errors, result, middle, otherResult, otherMiddle, ends, otherEnds, held⟩ := agree
  obtain ⟨more, value, after, otherValue, otherAfter, endsOn, otherEndsOn, heldOn⟩ :=
    goesOn _ _ _ _ ends.ready otherEnds.ready held
  exact ⟨errors + more, value, after, otherValue, otherAfter, ends.bind endsOn,
    otherEnds.bind otherEndsOn, heldOn⟩

/-- Parts that note nothing, before others that agree. -/
theorem step {result : α} {otherResult : β} {middle otherMiddle : Executor σ}
    (ran : part.runFrom one = (.ok result, middle)) (same : middle.errors = one.errors)
    (otherRan : other.runFrom two = (.ok otherResult, otherMiddle))
    (otherSame : otherMiddle.errors = two.errors)
    (goesOn : AgreeFrom usual later (next result) middle (otherNext otherResult) otherMiddle) :
    AgreeFrom usual later (part >>= next) one (other >>= otherNext) two := by
  obtain ⟨more, value, after, otherValue, otherAfter, endsOn, otherEndsOn, heldOn⟩ := goesOn
  exact ⟨more, value, after, otherValue, otherAfter, endsOn.step ran same,
    otherEndsOn.step otherRan otherSame, heldOn⟩

end AgreeFrom

end Exec

/-- Two causes fail a position in the same way: the errors that are recorded for them show the same,
and nothing else changes by recording them. -/
def FailAlike (usual : World σ → Prop) (cause : FailureCause) (after : Executor σ)
    (otherCause : FailureCause) (otherAfter : Executor σ) : Prop :=
  ∀ path locations,
    (after.world.locate cause path locations).shown =
        (otherAfter.world.locate otherCause path locations).shown ∧
      (after.recordError (after.world.locate cause path locations)).Ready usual ∧
      (otherAfter.recordError (otherAfter.world.locate otherCause path locations)).Ready usual

/-- A cause that is no error object of user code fails positions alike everywhere. -/
theorem FailAlike.of_own {usual : World σ → Prop} {cause : FailureCause}
    (own : cause.given? = none) {after otherAfter : Executor σ} (ready : after.Ready usual)
    (otherReady : otherAfter.Ready usual) : FailAlike usual cause after cause otherAfter := by
  have located : ∀ (world : World σ) path locations,
      world.locate cause path locations = { cause, path := some path, locations } := by
    intro world path locations
    cases cause with
    | given fault => cases own
    | _ => rfl
  intro path locations
  rw [located, located]
  exact ⟨rfl, ready.recordError own, otherReady.recordError own⟩

namespace Attempt

/-- How attempts end alike: with related results, or with causes that fail a position in the same
way. -/
inductive EndAlike (usual : World σ → Prop) (related : α → Executor σ → β → Executor σ → Prop) :
    Except FailureCause α → Executor σ → Except FailureCause β → Executor σ → Prop where
  | ok {result : α} {after : Executor σ} {otherResult : β} {otherAfter : Executor σ} :
      related result after otherResult otherAfter →
        EndAlike usual related (.ok result) after (.ok otherResult) otherAfter
  | error {cause otherCause : FailureCause} {after otherAfter : Executor σ} :
      FailAlike usual cause after otherCause otherAfter →
        EndAlike usual related (.error cause) after (.error otherCause) otherAfter

/-- Attempts that begin with two executors agree: both end, and alike. -/
def AgreeFrom (usual : World σ → Prop) (related : α → Executor σ → β → Executor σ → Prop)
    (attempt : Attempt σ α) (one : Executor σ) (other : Attempt σ β) (two : Executor σ) : Prop :=
  Exec.AgreeFrom usual (EndAlike usual related) attempt.run one other.run two

/-- Attempts that agree whichever executors they begin with. -/
def Agree (usual : World σ → Prop) (related : α → Executor σ → β → Executor σ → Prop)
    (attempt : Attempt σ α) (other : Attempt σ β) : Prop :=
  ∀ one two, one.Ready usual → two.Ready usual → AgreeFrom usual related attempt one other two

namespace AgreeFrom

variable {usual : World σ → Prop} {related : α → Executor σ → β → Executor σ → Prop}
  {later : γ → Executor σ → δ → Executor σ → Prop} {attempt : Attempt σ α} {other : Attempt σ β}
  {next : α → Attempt σ γ} {otherNext : β → Attempt σ δ} {one two : Executor σ}

theorem mono {weaker : α → Executor σ → β → Executor σ → Prop}
    (agree : AgreeFrom usual related attempt one other two)
    (implies : ∀ result after otherResult otherAfter,
      related result after otherResult otherAfter → weaker result after otherResult otherAfter) :
    AgreeFrom usual weaker attempt one other two := by
  refine Exec.AgreeFrom.mono agree fun _ _ _ _ alike => ?_
  cases alike with
  | ok held => exact .ok (implies _ _ _ _ held)
  | error fail => exact .error fail

protected theorem pure {result : α} {otherResult : β} (ready : one.Ready usual)
    (otherReady : two.Ready usual) (held : related result one otherResult two) :
    AgreeFrom usual related (pure result) one (pure otherResult) two :=
  Exec.AgreeFrom.pure ready otherReady (.ok held)

/-- Refusing for a cause that is no error object of user code. -/
theorem refuse {cause : FailureCause} (own : cause.given? = none) (ready : one.Ready usual)
    (otherReady : two.Ready usual) :
    AgreeFrom usual related (Attempt.refuse cause) one (Attempt.refuse cause) two :=
  Exec.AgreeFrom.pure ready otherReady (.error (.of_own own ready otherReady))

protected theorem bind (agree : AgreeFrom usual related attempt one other two)
    (goesOn : ∀ result after otherResult otherAfter, after.Ready usual → otherAfter.Ready usual →
      related result after otherResult otherAfter →
        AgreeFrom usual later (next result) after (otherNext otherResult) otherAfter) :
    AgreeFrom usual later (attempt >>= next) one (other >>= otherNext) two := by
  unfold AgreeFrom
  rw [ExceptT.run_bind, ExceptT.run_bind]
  refine Exec.AgreeFrom.bind agree fun _ _ _ _ ready otherReady alike => ?_
  cases alike with
  | ok held => exact goesOn _ _ _ _ ready otherReady held
  | error fail => exact .pure ready otherReady (.error fail)

theorem map {change : α → γ} {otherChange : β → δ}
    (agree : AgreeFrom usual (fun result after otherResult otherAfter =>
      later (change result) after (otherChange otherResult) otherAfter) attempt one other two) :
    AgreeFrom usual later (change <$> attempt) one (otherChange <$> other) two := by
  rw [map_eq_pure_bind, map_eq_pure_bind]
  exact agree.bind fun _ _ _ _ ready otherReady held => .pure ready otherReady held

/-- Attempts that look at executors first. -/
theorem get_bind {next : Executor σ → Attempt σ γ} {otherNext : Executor σ → Attempt σ δ}
    (goesOn : AgreeFrom usual later (next one) one (otherNext two) two) :
    AgreeFrom usual later (get >>= next) one (get >>= otherNext) two := by
  unfold AgreeFrom
  exact Exec.AgreeFrom.step (Exec.runFrom_get one) rfl (Exec.runFrom_get two) rfl goesOn

/-- Reports do not count. -/
theorem report_bind {records : List LogRecord} {next : Unit → Attempt σ γ}
    {otherNext : Unit → Attempt σ δ} (ready : one.Ready usual) (otherReady : two.Ready usual)
    (goesOn : ∀ after otherAfter, after.Ready usual → otherAfter.Ready usual →
      AgreeFrom usual later (next ()) after (otherNext ()) otherAfter) :
    AgreeFrom usual later (Attempt.report records >>= next) one
      (Attempt.report records >>= otherNext) two := by
  unfold AgreeFrom
  rw [ExceptT.run_bind, ExceptT.run_bind]
  have reported : ∀ before : Executor σ, Exec.runFrom (Attempt.report records).run before =
      (.ok (.ok ()), before.report records) := fun _ => rfl
  refine Exec.AgreeFrom.step (reported one) rfl (reported two) rfl ?_
  exact goesOn _ _ (ready.of_eq rfl rfl) (otherReady.of_eq rfl rfl)

/-- A coercion that does not end more than the position it belongs to. -/
theorem ofCoercion {coercion : Coercion α} (ready : one.Ready usual) (otherReady : two.Ready usual)
    (fails : ∀ stop, coercion.outcome = .error stop → stop.halt? = none) :
    AgreeFrom usual
      (fun result _ otherResult _ => coercion.outcome = .ok result ∧ otherResult = result)
      (Attempt.ofCoercion coercion) one (Attempt.ofCoercion coercion) two := by
  unfold Attempt.ofCoercion
  refine report_bind ready otherReady fun after otherAfter ready otherReady => ?_
  split
  · next value found => exact .pure ready otherReady ⟨found, rfl⟩
  · exact refuse rfl ready otherReady
  · next stopped => cases fails _ stopped
  · next stopped => cases fails _ stopped
  · next stopped => cases fails _ stopped

end AgreeFrom

end Attempt

/-! ## Positions -/

namespace Position

/-- Two positions have the same data, and neither is an error object. -/
structure Same (one two : Position) : Prop where
  data : one.response? = two.response?
  plain : one.fault? = none
  otherPlain : two.fault? = none

end Position

open Position

/-- Positions agree where the attempts at them do. -/
theorem Exec.AgreeFrom.position {usual : World σ → Prop} {ref : TypeRef} {path : Path}
    {locations : List Location} {attempt other : Attempt σ Position} {one two : Executor σ}
    (agree : Attempt.AgreeFrom usual (fun position _ otherPosition _ => Same position otherPosition)
      attempt one other two) :
    Exec.AgreeFrom usual (fun position _ otherPosition _ => Same position otherPosition)
      (Attempt.position ref path locations attempt) one
      (Attempt.position ref path locations other) two := by
  have recorded : ∀ (before : Executor σ) (error : FieldError),
      (before.recordError error).Ready usual →
      Exec.Ends usual (do
        modify (Executor.recordError error)
        pure (.failed ref.isNonNull error) : Exec σ Position) before {error.shown}
        (.failed ref.isNonNull error) (before.recordError error) := by
    intro before error ready
    exact ⟨rfl, ready, [error], rfl, rfl⟩
  unfold Attempt.position
  refine Exec.AgreeFrom.bind agree fun _ after _ otherAfter ready otherReady alike => ?_
  cases alike with
  | ok same => exact .pure ready otherReady same
  | @error cause otherCause _ _ fail =>
    obtain ⟨same, ready, otherReady⟩ := fail path locations
    refine Exec.AgreeFrom.step (Exec.runFrom_get after) rfl (Exec.runFrom_get otherAfter) rfl ?_
    have ends := recorded after _ ready
    have otherEnds := recorded otherAfter _ otherReady
    rw [← same] at otherEnds
    exact ⟨_, _, _, _, _, ends, otherEnds, rfl, rfl, rfl⟩

/-! ## Parts that always give the same -/

/-- What shows of several positions or of one: their data, unless null takes its place further
outside, and the errors. -/
structure Shown (α : Type) where
  data : Option α
  errors : Multiset ShownError

/-- A position has some data and is no error object. -/
structure Position.Has (data : Option Response) (position : Position) : Prop where
  data : position.response? = data
  plain : position.fault? = none

namespace Exec

variable {usual : World σ → Prop} {before : Executor σ}

/-- Whichever executor a part begins with, it gives a result of which something holds, and notes the
same errors. -/
def Gives (usual : World σ → Prop) (errors : Multiset ShownError) (holds : α → Prop)
    (part : Exec σ α) : Prop :=
  ∀ before, before.Ready usual →
    ∃ result after, Ends usual part before errors result after ∧ holds result

theorem Gives.map {errors : Multiset ShownError} {holds : γ → Prop} {change : α → γ}
    {part : Exec σ α} (gives : Gives usual errors (fun result => holds (change result)) part) :
    Gives usual errors holds (change <$> part) := by
  intro before ready
  obtain ⟨result, after, ends, held⟩ := gives before ready
  exact ⟨change result, after, ends.map, held⟩

/-- What agrees with what always gives the same gives that too. -/
theorem Agree.gives {part other : Exec σ Position} {errors : Multiset ShownError}
    {data : Option Response} (agree : Agree usual Same part other)
    (gives : Gives usual errors (Has data) other) : Gives usual errors (Has data) part := by
  intro start begins
  obtain ⟨_, position, after, _, _, ends, otherEnds, same⟩ := agree start start begins begins
  obtain ⟨found, later, given, held⟩ := gives start begins
  obtain ⟨rfl, rfl, rfl⟩ := otherEnds.unique given
  exact ⟨position, after, ends, same.data.trans held.data, same.plain⟩

/-- What agrees with itself always gives the same. Running it once shows what. -/
theorem Agree.exists_gives {part : Exec σ Position} (agree : Agree usual Same part part) :
    ∃ shown : Shown Response, Gives usual shown.errors (Has shown.data) part := by
  by_cases some : ∃ before : Executor σ, before.Ready usual
  · obtain ⟨before, ready⟩ := some
    obtain ⟨errors, _, _, position, _, _, ends, _⟩ := agree before before ready ready
    refine ⟨⟨position.response?, errors⟩, fun start begins => ?_⟩
    obtain ⟨_, found, after, _, _, endsHere, endsThere, same⟩ := agree start before begins ready
    obtain ⟨rfl, rfl, rfl⟩ := ends.unique endsThere
    exact ⟨found, after, endsHere, same.data, same.plain⟩
  · exact ⟨⟨none, 0⟩, fun before ready => absurd ⟨before, ready⟩ some⟩

/-- What agrees with something agrees with itself. -/
theorem Agree.refl {part other : Exec σ Position} (agree : Agree usual Same part other) :
    Agree usual Same other other := by
  intro one two ready otherReady
  obtain ⟨_, _, _, first, after, ends, firstEnds, same⟩ := agree one one ready ready
  obtain ⟨_, _, _, second, later, endsToo, secondEnds, likewise⟩ := agree one two ready otherReady
  obtain ⟨rfl, rfl, rfl⟩ := ends.unique endsToo
  exact ⟨_, first, after, second, later, firstEnds, secondEnds, same.data.symm.trans likewise.data,
    same.otherPlain, likewise.otherPlain⟩

variable {ι : Type} {errors : ι → Multiset ShownError} {holds : ι → α → Prop}

/-- Parts that always give the same do so one after another. The induction is on the parts still to
run; whatever the earlier ones did, the executor is ready for the later ones. -/
theorem attemptEach_gives {parts : List (Exec σ α)} {specs : List ι}
    (gives : List.Forall₂ (fun part spec => Gives usual (errors spec) (holds spec) part)
      parts specs)
    (ready : before.Ready usual) :
    ∃ results after, (attemptEach parts).run before = (results.map .ok, after) ∧
      after.Ready usual ∧ Notes before (specs.map errors).sum after ∧
      List.Forall₂ (fun result spec => holds spec result) results specs := by
  induction gives generalizing before with
  | nil => exact ⟨[], before, rfl, ready, .of_eq rfl, .nil⟩
  | @cons part spec parts specs first _ ih =>
    obtain ⟨result, middle, ends, held⟩ := first before ready
    obtain ⟨results, after, ran, readyAfter, notes, rest⟩ := ih ends.ready
    have begun : (checkpoint >>= fun () => part).runFrom before = (.ok result, middle) := by
      rw [runFrom_bind_ok (Ends.checkpoint ready).ran]
      exact ends.ran
    refine ⟨result :: results, after, ?_, readyAfter, ?_, .cons held rest⟩
    · rw [run_attemptEach_cons, begun]
      dsimp only
      rw [ran, List.map_cons]
    · rw [List.map_cons, List.sum_cons]
      exact ends.notes.trans notes

end Exec

namespace Environment

variable {usual : World σ → Prop} {positionOf : α → Position} {before : Executor σ}

theorem checked_gives {errors : Multiset ShownError} {holds : α → Prop} {part : Exec σ α}
    (gives : part.Gives usual errors holds)
    (plain : ∀ result, holds result → (positionOf result).fault? = none) :
    (checked positionOf part).Gives usual errors holds := by
  intro before ready
  obtain ⟨result, after, ends, held⟩ := gives before ready
  refine ⟨result, after, ⟨?_, ends.ready, ends.notes⟩, held⟩
  rw [runFrom_checked, ends.ran]
  show (unlessFault positionOf result, after) = _
  unfold unlessFault
  rw [plain result held]

/-- Parts that always give the same, of which none is an error object, do so together. -/
theorem together_gives {ι : Type} {errors : ι → Multiset ShownError} {holds : ι → α → Prop}
    {parts : List (Exec σ α)} {specs : List ι}
    (gives : List.Forall₂ (fun part spec => part.Gives usual (errors spec) (holds spec))
      parts specs)
    (plain : ∀ spec ∈ specs, ∀ result, holds spec result → (positionOf result).fault? = none)
    (ready : before.Ready usual) :
    ∃ results after,
      Exec.Ends usual (together positionOf parts).run before (specs.map errors).sum
        (.ok results) after ∧
      List.Forall₂ (fun result spec => holds spec result) results specs := by
  have each : List.Forall₂ (fun part spec => Exec.Gives usual (errors spec) (holds spec) part)
      (parts.map (checked positionOf)) specs := by
    rw [List.forall₂_map_left_iff]
    exact forall₂_imp_of_mem gives fun part _ spec among given =>
      checked_gives given (plain spec among)
  obtain ⟨results, after, ran, readyAfter, notes, held⟩ := Exec.attemptEach_gives each ready
  refine ⟨results, after, ⟨?_, readyAfter, notes⟩, held⟩
  rw [runFrom_together, Exec.runFrom_siblings, ran, readyAfter.running, Bool.and_false,
    Exec.join_map_ok]
  rfl

end Environment

end GraphQL
