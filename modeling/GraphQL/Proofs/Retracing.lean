import GraphQL.Proofs.Gathering
import GraphQL.Proofs.Quiet
import GraphQL.Proofs.Spoiling

/-!
# Executions that retrace each other

Two executions may record the same errors with other places in the source text, or at other paths.
No part of an execution notices that, unless an error object that user code keeps gets its place on
the way; so as long as none is recorded, the executions call the same resolvers and come to the same
data.
-/

namespace GraphQL

variable {σ α β γ δ : Type}

/-- A fault without its places in the source text. -/
def Fault.unplaced (fault : Fault) : Fault :=
  { fault with locations := [] }

namespace FieldError

/-- Whether an error is an error object that user code keeps. -/
def isKept (error : FieldError) : Bool :=
  (error.cause.given?.bind Fault.identity).isSome

/-- An error without its places in the source text. -/
def unplaced (error : FieldError) : FieldError where
  cause :=
    match error.cause with
    | .given fault => .given fault.unplaced
    | cause => cause
  path := error.path

theorem kind_unplaced (error : FieldError) : error.unplaced.cause.kind = error.cause.kind := by
  unfold unplaced
  cases error.cause <;> rfl

theorem isKept_unplaced (error : FieldError) : error.unplaced.isKept = error.isKept := by
  unfold unplaced isKept
  cases error.cause <;> rfl

theorem message_unplaced (error : FieldError) :
    error.unplaced.cause.message = error.cause.message := by
  unfold unplaced
  cases error.cause <;> rfl

end FieldError

/-- How an execution may write again what another one does: the errors that it records, of which it
takes those for error objects that user code keeps that are, and the calls that it notes. -/
structure Recount where
  error : FieldError → FieldError → Prop
  call : ResolverCall → ResolverCall → Prop
  isKept : ∀ {one two : FieldError}, error one two → one.isKept = two.isKept

/-- The same calls, and the same errors but for their places in the source text. -/
def Recount.unplaced : Recount where
  error one two := one.unplaced = two.unplaced
  call := Eq
  isKept same := by rw [← FieldError.isKept_unplaced, same, FieldError.isKept_unplaced]

namespace World

variable (world : World σ)

/-- The error of a cause at a path is the same wherever the selections stand. -/
theorem unplaced_locate (cause : FailureCause) (path : Path) (locations places : List Location) :
    (world.locate cause path locations).unplaced = (world.locate cause path places).unplaced := by
  cases cause <;> rfl

/-- An error object that nobody keeps shows nothing but what it has itself. -/
theorem settleFault_of_identity {fault : Fault} (fresh : fault.identity = none) :
    world.settleFault fault = fault := by
  unfold settleFault located?
  rw [fresh]
  rfl

/-- An error that is recorded again shows the same at the end, but for its places. -/
theorem unplaced_settle {error other : FieldError} (same : error.unplaced = other.unplaced)
    (fresh : error.isKept = false) :
    (world.settle error).unplaced = (world.settle other).unplaced := by
  obtain ⟨cause, path, locations⟩ := error
  obtain ⟨otherCause, otherPath, places⟩ := other
  obtain ⟨causes, rfl⟩ : _ ∧ path = otherPath :=
    ⟨congrArg FieldError.cause same, congrArg FieldError.path same⟩
  cases cause with
  | given fault =>
    cases otherCause with
    | given otherFault =>
      have faults : fault.unplaced = otherFault.unplaced := FailureCause.given.inj causes
      have identity : fault.unplaced.identity = none :=
        Option.isNone_iff_eq_none.mp (Option.isSome_eq_false_iff.mp fresh)
      have otherIdentity : otherFault.unplaced.identity = none := faults ▸ identity
      have paths : fault.unplaced.path = otherFault.unplaced.path := by rw [faults]
      unfold settle FieldError.unplaced
      dsimp only
      rw [world.settleFault_of_identity (show fault.identity = none from identity),
        world.settleFault_of_identity (show otherFault.identity = none from otherIdentity), faults]
      exact congrArg (fun shown : Option Path => FieldError.mk _ (shown <|> path) []) paths
    | _ => cases causes
  | _ =>
    cases otherCause with
    | given _ => cases causes
    | _ => exact congrArg (FieldError.mk · path []) causes

end World

namespace Executor

/-- None of the errors that an executor has recorded since is an error object that user code
keeps. -/
def RecordsOwn (before after : Executor σ) : Prop :=
  ∃ noted, after.errors = before.errors ++ noted ∧ ∀ error ∈ noted, error.isKept = false

/-- What holds of a whole execution holds of its beginning and of its end. -/
theorem RecordsOwn.split {before middle after : Executor σ} (own : RecordsOwn before after)
    (first : before.errors <+: middle.errors) (second : middle.errors <+: after.errors) :
    RecordsOwn before middle ∧ RecordsOwn middle after := by
  obtain ⟨here, hereEq⟩ := first
  obtain ⟨later, laterEq⟩ := second
  obtain ⟨noted, all, own⟩ := own
  rw [← laterEq, ← hereEq, List.append_assoc] at all
  cases List.append_cancel_left all
  exact ⟨⟨here, hereEq.symm, fun error among => own error (List.mem_append_left _ among)⟩,
    ⟨later, laterEq.symm, fun error among => own error (List.mem_append_right _ among)⟩⟩

/-- Recording an error that is no error object of user code changes nothing that is read. -/
theorem shared_recordError_of_isKept {error : FieldError} (fresh : error.isKept = false)
    (executor : Executor σ) : (executor.recordError error).shared = executor.shared := by
  have kept : (executor.world.report [error.record]).keepError error =
      executor.world.report [error.record] := by
    unfold World.keepError
    unfold FieldError.isKept at fresh
    cases given : error.cause.given? with
    | none => rfl
    | some fault =>
      rw [given] at fresh
      have identity : fault.identity = none :=
        Option.isNone_iff_eq_none.mp (Option.isSome_eq_false_iff.mp fresh)
      dsimp only
      unfold World.keepPlace
      rw [identity]
  unfold recordError
  dsimp only
  rw [kept]
  rfl

/-- What the second of two executors has written since it began is what the first has, written
again. -/
structure Rewrites (recount : Recount) (one after two later : Executor σ) : Prop where
  calls : ∃ made others, after.calls = one.calls ++ made ∧ later.calls = two.calls ++ others ∧
    List.Forall₂ recount.call made others
  errors : ∃ noted others, after.errors = one.errors ++ noted ∧
    later.errors = two.errors ++ others ∧ List.Forall₂ recount.error noted others

/-- Two executors go on alike: what they write is the same, written again, and they share all that
is read during an execution. -/
structure Twins (recount : Recount) (one after two later : Executor σ) : Prop
    extends Rewrites recount one after two later where
  shared : after.shared = later.shared

namespace Rewrites

variable {recount : Recount} {one middle after two between later : Executor σ}

/-- Nothing was written on either side. -/
theorem of_eq (calls : after.calls = one.calls) (otherCalls : later.calls = two.calls)
    (errors : after.errors = one.errors) (otherErrors : later.errors = two.errors) :
    Rewrites recount one after two later where
  calls := ⟨[], [], by rw [calls, List.append_nil], by rw [otherCalls, List.append_nil], .nil⟩
  errors := ⟨[], [], by rw [errors, List.append_nil], by rw [otherErrors, List.append_nil], .nil⟩

theorem trans (first : Rewrites recount one middle two between)
    (second : Rewrites recount middle after between later) :
    Rewrites recount one after two later where
  calls := by
    obtain ⟨here, likewise, hereEq, likewiseEq, held⟩ := first.calls
    obtain ⟨more, others, moreEq, othersEq, heldOn⟩ := second.calls
    exact ⟨here ++ more, likewise ++ others, by rw [moreEq, hereEq, List.append_assoc],
      by rw [othersEq, likewiseEq, List.append_assoc], List.rel_append held heldOn⟩
  errors := by
    obtain ⟨here, likewise, hereEq, likewiseEq, held⟩ := first.errors
    obtain ⟨more, others, moreEq, othersEq, heldOn⟩ := second.errors
    exact ⟨here ++ more, likewise ++ others, by rw [moreEq, hereEq, List.append_assoc],
      by rw [othersEq, likewiseEq, List.append_assoc], List.rel_append held heldOn⟩

/-- An error is recorded again. -/
theorem recordError {error other : FieldError} (same : recount.error error other) :
    Rewrites recount one (one.recordError error) two (two.recordError other) where
  calls := ⟨[], [], (List.append_nil _).symm, (List.append_nil _).symm, .nil⟩
  errors := ⟨[error], [other], rfl, rfl, .cons same .nil⟩

end Rewrites

namespace Twins

variable {recount : Recount} {before one middle after two between later : Executor σ}

theorem refl (shared : one.shared = two.shared) : Twins recount one one two two :=
  ⟨.of_eq rfl rfl rfl rfl, shared⟩

theorem trans (first : Twins recount one middle two between)
    (second : Twins recount middle after between later) : Twins recount one after two later :=
  ⟨first.toRewrites.trans second.toRewrites, second.shared⟩

theorem finish (twins : Twins recount one after two later) :
    Twins recount one after.finish two later.finish where
  shared := (congrArg (·.finish.shared) twins.shared : after.shared.finish.shared = _)
  calls := twins.calls
  errors := twins.errors

/-- A call of a resolver is noted again. -/
theorem noteCall (shared : one.shared = two.shared) {call other : ResolverCall}
    (same : recount.call call other) :
    Twins recount one (one.noteCall call) two (two.noteCall other) where
  shared := shared
  calls := ⟨[call], [other], rfl, rfl, .cons same .nil⟩
  errors := ⟨[], [], (List.append_nil _).symm, (List.append_nil _).symm, .nil⟩

/-- An error is recorded again. -/
theorem recordError (shared : one.shared = two.shared) {error other : FieldError}
    (same : recount.error error other) (fresh : error.isKept = false) :
    Twins recount one (one.recordError error) two (two.recordError other) where
  toRewrites := .recordError same
  shared := by
    rw [shared_recordError_of_isKept fresh,
      shared_recordError_of_isKept ((recount.isKept same).symm.trans fresh), shared]

/-- Executors that began as one have made the same calls. -/
theorem calls_eq (twins : Twins .unplaced before after before later) :
    after.calls = later.calls := by
  obtain ⟨made, others, madeEq, othersEq, same⟩ := twins.calls
  have equal : made = others := List.forall₂_eq_eq_eq ▸ same
  rw [madeEq, othersEq, equal]

/-- The errors of executors that began as one show the same at the end, but for their places. -/
theorem settled (twins : Twins .unplaced before after before later)
    (own : RecordsOwn before after) :
    (after.errors.map after.world.settle).map FieldError.unplaced =
      (later.errors.map later.world.settle).map FieldError.unplaced := by
  have settle : after.world.settle = later.world.settle := congrArg (·.world.settle) twins.shared
  obtain ⟨noted, others, notedEq, othersEq, same⟩ := twins.errors
  obtain ⟨recorded, recordedEq, fresh⟩ := own
  cases List.append_cancel_left (notedEq.symm.trans recordedEq)
  rw [settle, notedEq, othersEq]
  simp only [List.map_append]
  congr 1
  rw [List.map_map, List.map_map]
  refine List.forall₂_eq_eq_eq ▸ ?_
  rw [List.forall₂_map_left_iff, List.forall₂_map_right_iff]
  refine forall₂_imp_of_mem same fun error among other _ same => ?_
  exact later.world.unplaced_settle same (fresh error among)

end Twins

end Executor

open Executor (Twins RecordsOwn)

namespace Exec

/-- A part only adds to the errors that were recorded before. -/
def Grows (part : Exec σ α) : Prop :=
  ∀ before, before.errors <+: (part.runFrom before).2.errors

theorem IsQuiet.grows {part : Exec σ α} (quiet : part.IsQuiet) : part.Grows :=
  fun before => (quiet before).1 ▸ List.prefix_refl _

theorem Grows.bind {part : Exec σ α} {next : α → Exec σ γ} (first : part.Grows)
    (grows : ∀ result, (next result).Grows) : (part >>= next).Grows := by
  intro before
  have here := first before
  rcases ran : part.runFrom before with ⟨why | result, middle⟩
  · rw [ran] at here
    rw [runFrom_bind_error ran]
    exact here
  · rw [ran] at here
    rw [runFrom_bind_ok ran]
    exact here.trans (grows result middle)

/-- A part retraces another: begun with executors that share all that is read, they go on alike and
end alike, unless an error object that user code keeps was recorded. -/
structure RetracesBy (recount : Recount) (related : α → β → Prop) (part : Exec σ α)
    (other : Exec σ β) : Prop where
  grows : part.Grows
  follows : ∀ one two, one.shared = two.shared → RecordsOwn one (part.runFrom one).2 →
    Twins recount one (part.runFrom one).2 two (other.runFrom two).2 ∧
      Alike related (part.runFrom one).1 (other.runFrom two).1

/-- A part retraces another with the same errors but for their places in the source text. -/
abbrev Retraces (related : α → β → Prop) (part : Exec σ α) (other : Exec σ β) : Prop :=
  RetracesBy .unplaced related part other

namespace RetracesBy

variable {recount : Recount} {related : α → β → Prop} {later : γ → δ → Prop} {part : Exec σ α}
  {other : Exec σ β} {next : α → Exec σ γ} {otherNext : β → Exec σ δ}

theorem mono {weaker : α → β → Prop} (retraced : RetracesBy recount related part other)
    (implies : ∀ one two, related one two → weaker one two) :
    RetracesBy recount weaker part other where
  grows := retraced.grows
  follows := fun one two same own =>
    ⟨(retraced.follows one two same own).1, (retraced.follows one two same own).2.mono implies⟩

/-- Parts that record nothing retrace each other where they mirror each other. -/
theorem of_quiet (mirrored : Mirrors related part other) (quiet : part.IsQuiet)
    (otherQuiet : other.IsQuiet) : RetracesBy recount related part other where
  grows := quiet.grows
  follows := by
    intro one two same _
    obtain ⟨shared, alike⟩ := mirrored one two same
    refine ⟨⟨?_, shared⟩, alike⟩
    exact .of_eq (quiet one).2 (otherQuiet two).2 (quiet one).1 (otherQuiet two).1

protected theorem pure {one : α} {two : β} (held : related one two) :
    RetracesBy recount related (pure one : Exec σ α) (pure two) :=
  of_quiet (.pure held) (.pure one) (.pure two)

protected theorem halt (why : Halt) :
    RetracesBy recount related (Exec.halt why : Exec σ α) (Exec.halt why) :=
  of_quiet (.halt why) (.halt why) (.halt why)

/-- Errors that the first of two parts recorded are still there after the second, which only adds to
them after any result of the first. -/
theorem bind_of_grows (retraced : RetracesBy recount related part other)
    (grows : ∀ before result, (part.runFrom before).1 = .ok result → (next result).Grows)
    (goesOn : ∀ one two, related one two → RetracesBy recount later (next one) (otherNext two)) :
    RetracesBy recount later (part >>= next) (other >>= otherNext) where
  grows := by
    intro before
    have first := retraced.grows before
    rcases ran : part.runFrom before with ⟨why | result, middle⟩
    · rw [ran] at first
      rw [runFrom_bind_error ran]
      exact first
    · rw [ran] at first
      rw [runFrom_bind_ok ran]
      exact first.trans (grows before result (congrArg Prod.fst ran) middle)
  follows := by
    intro one two same own
    have first := retraced.grows one
    have follows := retraced.follows one two same
    rcases ran : part.runFrom one with ⟨why | result, middle⟩
    · rw [ran] at follows
      rw [runFrom_bind_error ran] at own ⊢
      obtain ⟨left, alike⟩ := follows own
      rcases otherRan : other.runFrom two with ⟨outcome, otherMiddle⟩
      rw [otherRan] at left alike
      cases alike with
      | error why =>
        rw [runFrom_bind_error otherRan]
        exact ⟨left, .error why⟩
    · rw [ran] at first follows
      rw [runFrom_bind_ok ran] at own ⊢
      obtain ⟨ownHere, ownLater⟩ :=
        own.split first (grows one result (congrArg Prod.fst ran) middle)
      obtain ⟨left, alike⟩ := follows ownHere
      rcases otherRan : other.runFrom two with ⟨outcome, otherMiddle⟩
      rw [otherRan] at left alike
      cases alike with
      | ok held =>
        rw [runFrom_bind_ok otherRan]
        obtain ⟨leftOn, alike⟩ :=
          (goesOn _ _ held).follows middle otherMiddle left.shared ownLater
        exact ⟨left.trans leftOn, alike⟩

protected theorem bind (retraced : RetracesBy recount related part other)
    (grows : ∀ result, (next result).Grows)
    (goesOn : ∀ one two, related one two → RetracesBy recount later (next one) (otherNext two)) :
    RetracesBy recount later (part >>= next) (other >>= otherNext) :=
  retraced.bind_of_grows (fun _ result _ => grows result) goesOn

/-- Parts that record nothing, before others that retrace each other after results of those. -/
theorem bind_of_quiet (mirrored : Mirrors related part other) (quiet : part.IsQuiet)
    (otherQuiet : other.IsQuiet)
    (goesOn : ∀ one two, related one two → RetracesBy recount later (next one) (otherNext two)) :
    RetracesBy recount later (part >>= next) (other >>= otherNext) := by
  refine (of_quiet mirrored quiet otherQuiet).bind_of_grows (fun before result ran => ?_) goesOn
  -- Every result of the first part is related to one of the second.
  have alike := (mirrored before before rfl).2
  rw [ran] at alike
  generalize (other.runFrom before).1 = outcome at alike
  cases alike with
  | ok held => exact (goesOn _ _ held).grows

/-- A part whose result both go on with. -/
theorem bind_same {part : Exec σ α} {next : α → Exec σ γ} {otherNext : α → Exec σ δ}
    (retraced : RetracesBy recount Eq part part)
    (goesOn : ∀ result, RetracesBy recount later (next result) (otherNext result)) :
    RetracesBy recount later (part >>= next) (part >>= otherNext) := by
  refine retraced.bind (fun result => (goesOn result).grows) ?_
  rintro result _ rfl
  exact goesOn result

theorem map {change : α → γ} {otherChange : β → δ}
    (retraced : RetracesBy recount (fun one two => later (change one) (otherChange two)) part
      other) :
    RetracesBy recount later (change <$> part) (otherChange <$> other) := by
  rw [map_eq_pure_bind, map_eq_pure_bind]
  exact retraced.bind (fun _ => (IsQuiet.pure _).grows) fun _ _ held => .pure held

/-- What parts do that look at executors first. -/
theorem get_bind {next : Executor σ → Exec σ γ} {otherNext : Executor σ → Exec σ δ}
    (goesOn : ∀ one two : Executor σ, one.shared = two.shared →
      RetracesBy recount later (next one) (otherNext two)) :
    RetracesBy recount later (get >>= next) (get >>= otherNext) :=
  bind_of_quiet .get .get .get goesOn

/-- What became of a part is known, whatever it was. -/
theorem outcome (retraced : RetracesBy recount related part other) :
    RetracesBy recount (Alike related) part.outcome other.outcome where
  grows := retraced.grows
  follows := fun one two same own =>
    ⟨(retraced.follows one two same own).1, .ok (retraced.follows one two same own).2⟩

end RetracesBy

/-- Parts that retrace each other one by one do so together. -/
theorem RetracesBy.attemptEach {recount : Recount} {related : α → β → Prop}
    {parts : List (Exec σ α)} {others : List (Exec σ β)}
    (retraced : List.Forall₂ (RetracesBy recount related) parts others) :
    RetracesBy recount (List.Forall₂ (Alike related))
      (liftM (Exec.attemptEach parts) : Exec σ (List (Except Halt α)))
      (liftM (Exec.attemptEach others)) := by
  induction retraced with
  | nil => exact .pure .nil
  | @cons part other parts others first _ ih =>
    have begins : RetracesBy recount (Alike related) (checkpoint >>= fun () => part).outcome
        (checkpoint >>= fun () => other).outcome :=
      .outcome (.bind_same (.of_quiet .checkpoint .checkpoint .checkpoint) fun _ => first)
    have all : RetracesBy recount (List.Forall₂ (Alike related))
        ((checkpoint >>= fun () => part).outcome >>= fun outcome =>
          (outcome :: ·) <$> (liftM (Exec.attemptEach parts) : Exec σ _))
        ((checkpoint >>= fun () => other).outcome >>= fun outcome =>
          (outcome :: ·) <$> (liftM (Exec.attemptEach others) : Exec σ _)) := by
      refine begins.bind (fun outcome before => ?_) fun _ _ alike => ?_
      · rw [runFrom_map]
        exact ih.grows before
      · exact .map (ih.mono fun _ _ held => .cons alike held)
    exact all

theorem RetracesBy.siblings {recount : Recount} {related : α → β → Prop} {parts : List (Exec σ α)}
    {others : List (Exec σ β)} (retraced : List.Forall₂ (RetracesBy recount related) parts others) :
    RetracesBy recount (List.Forall₂ related) (Exec.siblings parts) (Exec.siblings others) := by
  obtain ⟨grows, follows⟩ := RetracesBy.attemptEach retraced
  have empty : parts.isEmpty = others.isEmpty := by cases retraced <;> rfl
  constructor
  · intro before
    rw [runFrom_siblings]
    exact grows before
  · intro one two same own
    rw [runFrom_siblings] at own ⊢
    obtain ⟨left, alike⟩ := follows one two same own
    rw [runFrom_lift, runFrom_lift] at left alike
    rw [runFrom_siblings, empty, Executor.isStopping_of_shared left.shared]
    refine ⟨left, ?_⟩
    cases alike with
    | ok alike =>
      split
      · exact .error Halt.cancelled
      · exact alike_join alike

end Exec

namespace Attempt

/-- Attempts that retrace each other as parts: they give related results, fail for one cause or have
one reason to halt. -/
def RetracesBy (recount : Recount) (related : α → β → Prop) (attempt : Attempt σ α)
    (other : Attempt σ β) : Prop :=
  Exec.RetracesBy recount (Exec.Alike related) attempt.run other.run

/-- An attempt retraces another with the same errors but for their places in the source text. -/
abbrev Retraces (related : α → β → Prop) (attempt : Attempt σ α) (other : Attempt σ β) : Prop :=
  RetracesBy .unplaced related attempt other

namespace RetracesBy

variable {recount : Recount} {related : α → β → Prop} {later : γ → δ → Prop} {attempt : Attempt σ α}
  {other : Attempt σ β} {next : α → Attempt σ γ} {otherNext : β → Attempt σ δ}

theorem mono {weaker : α → β → Prop} (retraced : RetracesBy recount related attempt other)
    (implies : ∀ one two, related one two → weaker one two) :
    RetracesBy recount weaker attempt other :=
  Exec.RetracesBy.mono retraced fun _ _ alike => alike.mono implies

/-- Attempts that record nothing retrace each other where they mirror each other. -/
theorem of_quiet (mirrored : Attempt.Mirrors related attempt other) (quiet : attempt.IsQuiet)
    (otherQuiet : other.IsQuiet) : RetracesBy recount related attempt other :=
  Exec.RetracesBy.of_quiet mirrored quiet otherQuiet

protected theorem pure {one : α} {two : β} (held : related one two) :
    RetracesBy recount related (pure one : Attempt σ α) (pure two) :=
  Exec.RetracesBy.pure (.ok held)

theorem refuse (cause : FailureCause) :
    RetracesBy recount related (Attempt.refuse cause : Attempt σ α) (Attempt.refuse cause) :=
  Exec.RetracesBy.pure (.error cause)

protected theorem halt (why : Halt) :
    RetracesBy recount related (Attempt.halt why : Attempt σ α) (Attempt.halt why) :=
  of_quiet (.halt why) (.halt why) (.halt why)

theorem raise (origin : FaultOrigin) (fault : Fault) :
    RetracesBy recount related (Attempt.raise origin fault : Attempt σ α)
      (Attempt.raise origin fault) :=
  of_quiet (.raise origin fault) (.raise origin fault) (.raise origin fault)

/-- Parts that retrace each other do so as attempts that do not fail. -/
theorem lift {part : Exec σ α} {otherPart : Exec σ β}
    (retraced : Exec.RetracesBy recount related part otherPart) :
    RetracesBy recount related (liftM part : Attempt σ α) (liftM otherPart) :=
  Exec.RetracesBy.map (retraced.mono fun _ _ held => .ok held)

protected theorem bind (retraced : RetracesBy recount related attempt other)
    (grows : ∀ result, Exec.Grows (next result).run)
    (goesOn : ∀ one two, related one two → RetracesBy recount later (next one) (otherNext two)) :
    RetracesBy recount later (attempt >>= next) (other >>= otherNext) := by
  unfold RetracesBy
  rw [ExceptT.run_bind, ExceptT.run_bind]
  refine Exec.RetracesBy.bind retraced (fun outcome => ?_) fun one two alike => ?_
  · cases outcome with
    | ok result => exact grows result
    | error cause => exact (Exec.IsQuiet.pure _).grows
  · cases alike with
    | ok held => exact goesOn _ _ held
    | error cause => exact .pure (.error cause)

/-- Attempts that record nothing, before others that retrace each other after results of those. -/
theorem bind_of_quiet (mirrored : Attempt.Mirrors related attempt other) (quiet : attempt.IsQuiet)
    (otherQuiet : other.IsQuiet)
    (goesOn : ∀ one two, related one two → RetracesBy recount later (next one) (otherNext two)) :
    RetracesBy recount later (attempt >>= next) (other >>= otherNext) := by
  unfold RetracesBy
  rw [ExceptT.run_bind, ExceptT.run_bind]
  refine Exec.RetracesBy.bind_of_quiet mirrored quiet otherQuiet fun one two alike => ?_
  cases alike with
  | ok held => exact goesOn _ _ held
  | error cause => exact .pure (.error cause)

/-- An attempt whose result both go on with. -/
theorem bind_same {attempt : Attempt σ α} {next : α → Attempt σ γ}
    {otherNext : α → Attempt σ δ} (retraced : RetracesBy recount Eq attempt attempt)
    (goesOn : ∀ result, RetracesBy recount later (next result) (otherNext result)) :
    RetracesBy recount later (attempt >>= next) (attempt >>= otherNext) := by
  refine retraced.bind (fun result => (goesOn result).grows) ?_
  rintro result _ rfl
  exact goesOn result

/-- An attempt that records nothing, whose result both go on with. -/
theorem bind_quiet {attempt : Attempt σ α} {next : α → Attempt σ γ}
    {otherNext : α → Attempt σ δ} (blind : attempt.IsBlind) (quiet : attempt.IsQuiet)
    (goesOn : ∀ result, RetracesBy recount later (next result) (otherNext result)) :
    RetracesBy recount later (attempt >>= next) (attempt >>= otherNext) :=
  bind_same (of_quiet blind quiet quiet) goesOn

/-- What attempts do that look at executors first. -/
theorem get_bind {next : Executor σ → Attempt σ γ} {otherNext : Executor σ → Attempt σ δ}
    (goesOn : ∀ one two : Executor σ, one.shared = two.shared →
      RetracesBy recount later (next one) (otherNext two)) :
    RetracesBy recount later (get >>= next) (get >>= otherNext) :=
  Exec.RetracesBy.get_bind goesOn

theorem map {change : α → γ} {otherChange : β → δ}
    (retraced : RetracesBy recount (fun one two => later (change one) (otherChange two)) attempt
      other) :
    RetracesBy recount later (change <$> attempt) (otherChange <$> other) := by
  rw [map_eq_pure_bind, map_eq_pure_bind]
  exact retraced.bind (fun _ => (Exec.IsQuiet.pure _).grows) fun _ _ held => .pure held

end RetracesBy

end Attempt

namespace Position

/-- Two positions have the same data, and are the same error object or none. -/
structure Shows (one two : Position) : Prop where
  data : one.response? = two.response?
  fault : one.fault? = two.fault?

theorem Shows.refl (position : Position) : Shows position position :=
  ⟨rfl, rfl⟩

/-- Entries of an object under one key with the same data. -/
def EntryShows (entry other : String × Position) : Prop :=
  entry.1 = other.1 ∧ Shows entry.2 other.2

theorem itemResponses?_of_shows {items others : List Position}
    (shows : List.Forall₂ Shows items others) : itemResponses? items = itemResponses? others := by
  induction shows with
  | nil => rfl
  | cons first _ ih =>
    unfold itemResponses?
    rw [first.data, ih]

theorem fieldResponses?_of_shows {fields others : List (String × Position)}
    (shows : List.Forall₂ EntryShows fields others) :
    fieldResponses? fields = fieldResponses? others := by
  induction shows with
  | nil => rfl
  | @cons entry other _ _ first _ ih =>
    obtain ⟨key, field⟩ := entry
    obtain ⟨otherKey, otherField⟩ := other
    obtain ⟨rfl, same⟩ := first
    unfold fieldResponses?
    rw [same.data, ih]

theorem Shows.list {required : Bool} {items others : List Position}
    (shows : List.Forall₂ Shows items others) :
    Shows (.list required items) (.list required others) := by
  refine ⟨?_, rfl⟩
  unfold response?
  rw [itemResponses?_of_shows shows]

theorem Shows.object {required : Bool} {fields others : List (String × Position)}
    (shows : List.Forall₂ EntryShows fields others) :
    Shows (.object required fields) (.object required others) := by
  refine ⟨?_, rfl⟩
  unfold response?
  rw [fieldResponses?_of_shows shows]

end Position

open Position

/-- An error is recorded again. -/
theorem Exec.RetracesBy.record {recount : Recount} {error other : FieldError}
    (same : recount.error error other) :
    Exec.RetracesBy recount Eq (modify (Executor.recordError error) : Exec σ PUnit)
      (modify (Executor.recordError other)) where
  grows := fun before => List.prefix_append before.errors [error]
  follows := by
    intro one two shared own
    obtain ⟨noted, appended, own⟩ := own
    have found : [error] = noted := List.append_cancel_left appended
    subst found
    exact ⟨.recordError shared same (own error List.mem_cons_self), .ok rfl⟩

/-- A call is noted again. -/
theorem Exec.RetracesBy.noteCall {recount : Recount} {call other : ResolverCall}
    (same : recount.call call other) :
    Exec.RetracesBy recount Eq (modify (Executor.noteCall call) : Exec σ PUnit)
      (modify (Executor.noteCall other)) where
  grows := fun _ => List.prefix_refl _
  follows := fun _ _ shared _ => ⟨.noteCall shared same, .ok rfl⟩

/-- A position fails again for the same cause. -/
theorem Exec.RetracesBy.position {recount : Recount} {ref : TypeRef} {path otherPath : Path}
    {locations places : List Location} {attempt other : Attempt σ Position}
    (located : ∀ (world : World σ) cause,
      recount.error (world.locate cause path locations) (world.locate cause otherPath places))
    (retraced : Attempt.RetracesBy recount Shows attempt other) :
    Exec.RetracesBy recount Shows (Attempt.position ref path locations attempt)
      (Attempt.position ref otherPath places other) := by
  have fails : ∀ cause, Exec.RetracesBy recount Shows
      (do
        let error := (← get).world.locate cause path locations
        modify (Executor.recordError error)
        pure (.failed ref.isNonNull error) : Exec σ Position)
      (do
        let error := (← get).world.locate cause otherPath places
        modify (Executor.recordError error)
        pure (.failed ref.isNonNull error)) := by
    refine fun cause => .get_bind fun one two shared => ?_
    rw [← Executor.locate_of_shared shared]
    exact (record (located one.world cause)).bind
      (fun _ => (Exec.IsQuiet.pure _).grows) fun _ _ _ => .pure ⟨rfl, rfl⟩
  refine Exec.RetracesBy.bind retraced (fun outcome => ?_) fun one two alike => ?_
  · cases outcome with
    | ok position => exact (Exec.IsQuiet.pure _).grows
    | error cause => exact (fails cause).grows
  · cases alike with
    | ok shows => exact .pure shows
    | error cause => exact fails cause

/-- A position fails again with the same error but for its places. -/
theorem Exec.Retraces.position {ref : TypeRef} {path : Path} {locations places : List Location}
    {attempt other : Attempt σ Position} (retraced : Attempt.Retraces Shows attempt other) :
    Exec.Retraces Shows (Attempt.position ref path locations attempt)
      (Attempt.position ref path places other) :=
  RetracesBy.position (fun world cause => world.unplaced_locate cause path locations places)
    retraced

namespace Environment

variable {env : Environment σ} {recount : Recount}

/-- The value of a field is resolved again by a call that may be noted otherwise. -/
theorem resolve_retraces {target : Target} {path otherPath : Path} {args : Entries Value}
    (called : recount.call { label := target.label, path, arguments := args }
      { label := target.label, path := otherPath, arguments := args }) (parent : Value) :
    Attempt.RetracesBy recount Eq (env.resolve target path parent args)
      (env.resolve target otherPath parent args) := by
  unfold resolve
  refine .bind_quiet (.lift .checkpoint) (.lift .checkpoint) fun _ => ?_
  have goesOn : Attempt.RetracesBy recount Eq
      ((liftM (env.call target parent args) : Attempt σ (Except Fault Value)) >>= accept target)
      ((liftM (env.call target parent args) : Attempt σ (Except Fault Value)) >>=
        accept target) := by
    refine .bind_quiet (.lift (env.call_blind _ _ _)) (.lift (env.call_quiet _ _ _))
      fun outcome => ?_
    exact .of_quiet (accept_blind _ _) (accept_quiet _ _) (accept_quiet _ _)
  exact .bind (.lift (.noteCall called)) (fun _ => goesOn.grows) fun _ _ _ => goesOn

theorem checked_retraces {related : α → β → Prop} {positionOf : α → Position}
    {otherOf : β → Position} {part : Exec σ α} {other : Exec σ β}
    (retraced : Exec.RetracesBy recount related part other)
    (faults : ∀ one two, related one two → (positionOf one).fault? = (otherOf two).fault?) :
    Exec.RetracesBy recount related (checked positionOf part) (checked otherOf other) := by
  unfold checked
  refine retraced.bind (fun found => ?_) fun one two held => ?_
  · split
    · exact (Exec.IsQuiet.halt _).grows
    · exact (Exec.IsQuiet.pure _).grows
  · rw [faults one two held]
    split
    · exact .halt _
    · exact .pure held

/-- Positions that belong together retrace each other one by one. -/
theorem together_retraces {related : α → β → Prop} {positionOf : α → Position}
    {otherOf : β → Position} {parts : List (Exec σ α)} {others : List (Exec σ β)}
    (retraced : List.Forall₂ (Exec.RetracesBy recount related) parts others)
    (faults : ∀ one two, related one two → (positionOf one).fault? = (otherOf two).fault?) :
    Attempt.RetracesBy recount (List.Forall₂ related) (together positionOf parts)
      (together otherOf others) := by
  have each : List.Forall₂ (Exec.RetracesBy recount related) (parts.map (checked positionOf))
      (others.map (checked otherOf)) := by
    rw [List.forall₂_map_left_iff, List.forall₂_map_right_iff]
    exact retraced.imp fun _ _ held => checked_retraces held faults
  unfold together
  refine Attempt.RetracesBy.bind (.lift (Exec.RetracesBy.siblings each).outcome)
    (fun outcome => ?_) fun one two alike => ?_
  · refine Exec.IsQuiet.grows ?_
    rcases outcome with (_ | _ | ⟨origin, fault⟩ | _) | found
    · exact Attempt.IsQuiet.halt _
    · exact Attempt.IsQuiet.halt _
    · exact Attempt.IsQuiet.raise origin fault
    · exact Attempt.IsQuiet.halt _
    · exact Attempt.IsQuiet.pure found
  · cases alike with
    | ok held => exact .pure held
    | error why =>
      cases why with
      | escaped origin fault => exact .raise origin fault
      | cancelled => exact .halt .cancelled
      | hung => exact .halt .hung
      | tooDeep => exact .halt .tooDeep

end Environment

end GraphQL
