import GraphQL.Proofs.Gathering
import GraphQL.Proofs.Settling
import Mathlib.Data.List.Forall2

/-!
# What coercions come to

A coercion gives a value, fails, or stops for a reason that stops all coercions around it. Which
leaves a failure has is another matter: they say where the input is at fault. Coercions that come to
the same, leaves apart, make up coercions that come to the same.
-/

namespace GraphQL

variable {α β : Type}

/-- A reason to stop that is not gathered with others. -/
def CoercionStop.fatal? : CoercionStop → Option CoercionStop
  | .failed _ => none
  | stop => some stop

namespace Coercion

/-- What a coercion comes to, whichever leaves it fails with. -/
def verdict (part : Coercion α) : Except (Option CoercionStop) α :=
  part.outcome.mapError CoercionStop.fatal?

/-- What parts come to together: the first fatal reason to stop, or else a failure if there is
one. -/
def joined : List (Except (Option CoercionStop) α) → Except (Option CoercionStop) (List α)
  | [] => .ok []
  | .ok value :: rest => (joined rest).map (value :: ·)
  | .error (some stop) :: _ => .error (some stop)
  | .error none :: rest =>
    match joined rest with
    | .error (some stop) => .error (some stop)
    | _ => .error none

@[simp] theorem verdict_pure (value : α) : (pure value : Coercion α).verdict = .ok value := rfl

@[simp] theorem verdict_fail (cause : CoercionCause) (path : Path) :
    (fail cause path : Coercion α).verdict = .error none := rfl

@[simp] theorem verdict_failed (failure : CoercionFailure) :
    (stop (.failed failure) : Coercion α).verdict = .error none := rfl

@[simp] theorem verdict_bind (first : Coercion α) (next : α → Coercion β) :
    (first >>= next).verdict = first.verdict.bind fun value => (next value).verdict := by
  unfold verdict
  rw [outcome_bind]
  cases first.outcome <;> rfl

@[simp] theorem verdict_map (change : α → β) (part : Coercion α) :
    (change <$> part).verdict = part.verdict.map change := by
  have steps : change <$> part = part >>= fun value => pure (change value) := rfl
  rw [steps, verdict_bind]
  cases part.verdict <;> rfl

theorem verdict_eq_ok_iff {part : Coercion α} {value : α} :
    part.verdict = .ok value ↔ part.outcome = .ok value := by
  unfold verdict
  cases part.outcome <;> simp [Except.mapError]

theorem verdict_eq_fatal_iff {part : Coercion α} {why : CoercionStop}
    (fatal : why.fatal? = some why) :
    part.verdict = .error (some why) ↔ part.outcome = .error why := by
  unfold verdict
  cases part.outcome with
  | ok value => simp [Except.mapError]
  | error stop =>
    cases stop with
    | failed failure =>
      have other : CoercionStop.failed failure ≠ why := by
        rintro rfl
        cases fatal
      simp [Except.mapError, CoercionStop.fatal?, other]
    | unknownType name | interrupted fault | tooDeep =>
      simp [Except.mapError, CoercionStop.fatal?]

/-- What is gathered with others is no fatal reason to stop. -/
theorem outcome_of_verdict {part : Coercion α} {why : CoercionStop}
    (fatal : part.verdict = .error (some why)) :
    part.outcome = .error why ∧ ∀ failure, .failed failure ≠ why := by
  unfold verdict at fatal
  cases ended : part.outcome with
  | ok value =>
    rw [ended] at fatal
    cases fatal
  | error stop =>
    rw [ended] at fatal
    cases stop <;> cases fatal
    all_goals exact ⟨rfl, nofun⟩

/-- Parts that are attempted in turn come to what they come to together. -/
theorem joined_verdicts (parts : List (Coercion α)) :
    ((attemptAll parts).outcome.mapError CoercionStop.fatal?).bind (fun gathered =>
      if gathered.2 = [] then .ok gathered.1 else .error none) = joined (parts.map verdict) := by
  induction parts with
  | nil => rfl
  | cons part rest ih =>
    rcases part with ⟨outcome, ignored⟩
    rw [List.map_cons, attemptAll]
    cases outcome with
    | ok value =>
      have head : (⟨.ok value, ignored⟩ : Coercion α).verdict = .ok value := rfl
      rw [head, joined, ← ih]
      simp only [outcome_bind]
      cases (attemptAll rest).outcome with
      | error stop => rfl
      | ok gathered =>
        by_cases failed : gathered.2 = [] <;>
          simp [Except.bind, Except.mapError, Except.map, pure, failed]
    | error stop =>
      cases stop with
      | failed failure =>
        have head : (⟨.error (.failed failure), ignored⟩ : Coercion α).verdict = .error none := rfl
        have leaves : failure.leaves ≠ [] := List.cons_ne_nil _ _
        rw [head, joined, ← ih]
        simp only [outcome_bind]
        cases (attemptAll rest).outcome with
        | error stop => cases stop <;> rfl
        | ok gathered =>
          by_cases failed : gathered.2 = [] <;>
            simp [Except.bind, Except.mapError, pure, failed, leaves]
      | unknownType name => rfl
      | interrupted fault => rfl
      | tooDeep => rfl

/-- Parts that are gathered come to what they come to together. -/
@[simp] theorem verdict_gather (path : Path) (parts : List (Coercion α)) :
    (gather path parts).verdict = joined (parts.map verdict) := by
  have ends : ∀ gathered : List α × List CoercionLeaf,
      (unlessFailed path gathered).verdict =
        if gathered.2 = [] then .ok gathered.1 else .error none := by
    intro gathered
    obtain ⟨values, leaves⟩ := gathered
    cases leaves <;> rfl
  rw [gather_eq, verdict_bind, ← joined_verdicts]
  simp only [ends]
  rfl

section Joined

variable {verdicts : List (Except (Option CoercionStop) α)} {why : CoercionStop}

/-- Where parts stop for one fatal reason at most, they stop for it together if one of them does. -/
theorem joined_eq_fatal_of_mem (stops : .error (some why) ∈ verdicts)
    (only : ∀ stop, .error (some stop) ∈ verdicts → stop = why) :
    joined verdicts = .error (some why) := by
  induction verdicts with
  | nil => cases stops
  | cons verdict rest ih =>
    have later : .error (some why) ∈ rest → joined rest = .error (some why) := fun among =>
      ih among fun stop stopped => only stop (List.mem_cons_of_mem _ stopped)
    rcases verdict with (_ | stop) | value
    · rcases List.mem_cons.mp stops with same | among
      · cases same
      · rw [joined, later among]
    · have same := only stop List.mem_cons_self
      rw [joined, same]
    · rcases List.mem_cons.mp stops with same | among
      · cases same
      · rw [joined, later among]
        rfl

end Joined

/-- Two coercions come to the same, leaves apart. -/
def Alike (part other : Coercion α) : Prop :=
  part.verdict = other.verdict

namespace Alike

variable {part other : Coercion α}

theorem refl (part : Coercion α) : Alike part part := rfl

theorem symm (alike : Alike part other) : Alike other part := Eq.symm alike

theorem trans {last : Coercion α} (first : Alike part other) (second : Alike other last) :
    Alike part last := Eq.trans first second

theorem fail (cause otherCause : CoercionCause) (path otherPath : Path) :
    Alike (.fail cause path : Coercion α) (.fail otherCause otherPath) := rfl

protected theorem bind {next goesOn : α → Coercion β} (first : Alike part other)
    (following : ∀ value, Alike (next value) (goesOn value)) :
    Alike (part >>= next) (other >>= goesOn) := by
  unfold Alike at *
  simp only [verdict_bind, first, following]

protected theorem map (change : α → β) (alike : Alike part other) :
    Alike (change <$> part) (change <$> other) :=
  alike.bind fun _ => .refl _

theorem gather {parts others : List (Coercion α)} (alike : List.Forall₂ Alike parts others)
    (path otherPath : Path) :
    Alike (Coercion.gather path parts) (Coercion.gather otherPath others) := by
  have verdicts : parts.map verdict = others.map verdict := by
    induction alike with
    | nil => rfl
    | cons first _ ih => rw [List.map_cons, List.map_cons, ih, first]
  unfold Alike
  rw [verdict_gather, verdict_gather, verdicts]

end Alike

end Coercion

end GraphQL
