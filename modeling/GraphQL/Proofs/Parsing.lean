import GraphQL.Proofs.Gathering
import GraphQL.Proofs.Siblings

/-!
# Faults of parse functions

A parse function of user code that raises a fault is never passed over: either a coercion comes to
the same without it, or the coercion fails with the fault among its leaves, or it stops for a reason
that ends all coercions around it.
-/

namespace GraphQL

variable {α β : Type}

/-- Some leaf of a failure shows a fault. -/
def CoercionFailure.Shows (fault : Fault) (failure : CoercionFailure) : Prop :=
  ∃ leaf ∈ failure.leaves, ∃ type raw, leaf.cause = .refusedByScalar type raw fault

namespace Coercion

/-- A coercion in which a fault is raised, beside what it would be without the fault. -/
inductive Exposes (fault : Fault) (part other : Coercion α) : Prop where
  | same : part.outcome = other.outcome → Exposes fault part other
  | failed {failure : CoercionFailure} :
      part.outcome = .error (.failed failure) → failure.Shows fault → Exposes fault part other
  | stopped {stop : CoercionStop} :
      part.outcome = .error stop → (∀ failure, stop ≠ .failed failure) → Exposes fault part other

namespace Exposes

variable {fault : Fault} {part other : Coercion α} {next goesOn : α → Coercion β}

theorem refl (part : Coercion α) : Exposes fault part part :=
  .same rfl

protected theorem bind (exposed : Exposes fault part other)
    (following : ∀ value, Exposes fault (next value) (goesOn value)) :
    Exposes fault (part >>= next) (other >>= goesOn) := by
  cases exposed with
  | failed failed shows =>
    refine .failed ?_ shows
    rw [outcome_bind, failed]
    rfl
  | stopped stopped ends =>
    refine .stopped ?_ ends
    rw [outcome_bind, stopped]
    rfl
  | same same =>
    cases outcome : part.outcome with
    | error stop =>
      refine .same ?_
      rw [outcome_bind, outcome_bind, ← same, outcome]
      rfl
    | ok value =>
      have first : (part >>= next).outcome = (next value).outcome := by
        rw [outcome_bind, outcome]
        rfl
      have second : (other >>= goesOn).outcome = (goesOn value).outcome := by
        rw [outcome_bind, ← same, outcome]
        rfl
      cases following value with
      | same agrees => exact .same (by rw [first, second, agrees])
      | failed failed shows => exact .failed (first.trans failed) shows
      | stopped stopped ends => exact .stopped (first.trans stopped) ends

protected theorem map (change : α → β) (exposed : Exposes fault part other) :
    Exposes fault (change <$> part) (change <$> other) :=
  exposed.bind fun value => .refl (pure (change value))

end Exposes

/-- Some of the leaves that were gathered shows a fault. -/
def Shown (fault : Fault) (leaves : List CoercionLeaf) : Prop :=
  ∃ leaf ∈ leaves, ∃ type raw, leaf.cause = .refusedByScalar type raw fault

theorem Shown.of_subset {fault : Fault} {some all : List CoercionLeaf} (shown : Shown fault some)
    (subset : some ⊆ all) : Shown fault all := by
  obtain ⟨leaf, member, shows⟩ := shown
  exact ⟨leaf, subset member, shows⟩

/-- The first of some parts that are attempted adds to what the others give, or stops all of
them. -/
theorem attemptAll_cons (part : Coercion α) (rest : List (Coercion α)) :
    (∃ add : List α × List CoercionLeaf → List α × List CoercionLeaf,
        (attemptAll (part :: rest)).outcome = (attemptAll rest).outcome.map add ∧
        (∀ stop, part.outcome = .error stop → ∃ failure, stop = .failed failure) ∧
        (∀ gathered, gathered.2 ⊆ (add gathered).2) ∧
        ∀ failure, part.outcome = .error (.failed failure) →
          ∀ gathered, failure.leaves ⊆ (add gathered).2) ∨
      ∃ stop, part.outcome = .error stop ∧ (∀ failure, stop ≠ .failed failure) ∧
        (attemptAll (part :: rest)).outcome = .error stop := by
  rcases part with ⟨outcome, ignored⟩
  rw [attemptAll]
  cases outcome with
  | ok value =>
    refine Or.inl ⟨fun gathered => (value :: gathered.1, gathered.2), ?_, ?_, ?_, ?_⟩
    · dsimp only
      rw [outcome_bind, outcome_bind]
      cases (attemptAll rest).outcome <;> rfl
    · rintro _ ⟨⟩
    · exact fun _ => List.Subset.refl _
    · rintro _ ⟨⟩
  | error stop =>
    cases stop with
    | failed failure =>
      refine Or.inl ⟨fun gathered => (gathered.1, failure.leaves ++ gathered.2), ?_, ?_, ?_, ?_⟩
      · dsimp only
        rw [outcome_bind, outcome_bind]
        cases (attemptAll rest).outcome <;> rfl
      · rintro _ ⟨rfl⟩
        exact ⟨failure, rfl⟩
      · exact fun _ => List.subset_append_right _ _
      · rintro _ ⟨rfl⟩ gathered
        exact List.subset_append_left _ _
    | unknownType name | interrupted fault | tooDeep =>
      refine Or.inr ⟨_, rfl, ?_, rfl⟩
      rintro _ ⟨⟩

/-- What attempting parts in turn comes to depends on what each of them comes to. -/
theorem outcome_attemptAll_cons {part other : Coercion α} {rest others : List (Coercion α)}
    (same : part.outcome = other.outcome)
    (sameRest : (attemptAll rest).outcome = (attemptAll others).outcome) :
    (attemptAll (part :: rest)).outcome = (attemptAll (other :: others)).outcome := by
  rcases part with ⟨outcome, ignored⟩
  rcases other with ⟨_, otherIgnored⟩
  cases same
  rw [attemptAll, attemptAll]
  cases outcome with
  | ok value =>
    dsimp only
    rw [outcome_bind, outcome_bind, outcome_bind, outcome_bind, sameRest]
  | error stop =>
    cases stop with
    | failed failure =>
      dsimp only
      rw [outcome_bind, outcome_bind, outcome_bind, outcome_bind, sameRest]
    | unknownType name => rfl
    | interrupted fault => rfl
    | tooDeep => rfl

/-- Attempting parts in turn gathers failures and does not fail itself. -/
theorem attemptAll_ne_failed (parts : List (Coercion α)) (failure : CoercionFailure) :
    (attemptAll parts).outcome ≠ .error (.failed failure) := by
  induction parts with
  | nil => exact nofun
  | cons part rest ih =>
    rcases attemptAll_cons part rest with ⟨add, outcome, _⟩ | ⟨stop, _, ends, outcome⟩
    · rw [outcome]
      cases gathered : (attemptAll rest).outcome with
      | ok result => exact nofun
      | error stop =>
        rw [gathered] at ih
        exact fun same => ih same
    · rw [outcome]
      rintro ⟨rfl⟩
      exact ends failure rfl

/-- Parts that are attempted in turn either come to the same without a fault, or show it among their
leaves, or stop. -/
inductive AllExpose (fault : Fault) (parts others : Coercion (List α × List CoercionLeaf)) :
    Prop where
  | same : parts.outcome = others.outcome → AllExpose fault parts others
  | shown {gathered : List α × List CoercionLeaf} :
      parts.outcome = .ok gathered → Shown fault gathered.2 → AllExpose fault parts others
  | stopped {stop : CoercionStop} :
      parts.outcome = .error stop → (∀ failure, stop ≠ .failed failure) →
      AllExpose fault parts others

theorem AllExpose.cons {fault : Fault} {part other : Coercion α} {rest others : List (Coercion α)}
    (first : Exposes fault part other)
    (later : AllExpose fault (attemptAll rest) (attemptAll others)) :
    AllExpose fault (attemptAll (part :: rest)) (attemptAll (other :: others)) := by
  rcases attemptAll_cons part rest with
    ⟨add, outcome, fails, keeps, adds⟩ | ⟨stop, _, ends, outcome⟩
  · cases gathered : (attemptAll rest).outcome with
    | error stop =>
      rw [gathered] at outcome
      refine .stopped outcome ?_
      rintro failure rfl
      exact attemptAll_ne_failed rest failure gathered
    | ok result =>
      rw [gathered] at outcome
      cases later with
      | stopped stopped _ =>
        rw [gathered] at stopped
        cases stopped
      | shown shown shows =>
        rw [gathered] at shown
        cases shown
        exact .shown outcome (shows.of_subset (keeps _))
      | same sameRest =>
        cases first with
        | failed failed shows => exact .shown outcome (Shown.of_subset shows (adds _ failed _))
        | stopped stopped ends =>
          obtain ⟨failure, rfl⟩ := fails _ stopped
          exact absurd rfl (ends failure)
        | same same => exact .same (outcome_attemptAll_cons same sameRest)
  · exact .stopped outcome ends

theorem allExpose_attemptAll {fault : Fault} {parts others : List (Coercion α)}
    (exposed : List.Forall₂ (Exposes fault) parts others) :
    AllExpose fault (attemptAll parts) (attemptAll others) := by
  induction exposed with
  | nil => exact .same rfl
  | cons first _ ih => exact .cons first ih

/-- Parts that are gathered expose a fault together if each of them does. -/
theorem Exposes.gather {fault : Fault} {parts others : List (Coercion α)}
    (exposed : List.Forall₂ (Exposes fault) parts others) (path : Path) :
    Exposes fault (Coercion.gather path parts) (Coercion.gather path others) := by
  have ends : ∀ (parts : List (Coercion α)) outcome, (attemptAll parts).outcome = outcome →
      (Coercion.gather path parts).outcome =
        outcome.bind fun gathered => (unlessFailed path gathered).outcome := by
    rintro parts _ rfl
    rw [gather_eq, outcome_bind]
  cases allExpose_attemptAll exposed with
  | same same => exact .same ((ends _ _ same).trans (ends _ _ rfl).symm)
  | stopped stopped others => exact .stopped (ends _ _ stopped) others
  | @shown gathered found shown =>
    obtain ⟨values, leaves⟩ := gathered
    cases leaves with
    | nil =>
      obtain ⟨leaf, member, _⟩ := shown
      cases member
    | cons first others => exact .failed (ends _ _ found) shown

end Coercion

namespace CoercionContext

open Coercion (Exposes)

/-- The context with other parse functions. -/
def parsing (context : CoercionContext)
    (convert : Handle → Value → Except Fault Value) : CoercionContext :=
  { context with convert }

variable {context : CoercionContext} {convert : Handle → Value → Except Fault Value}
  {fault : Fault} {recur goesOn : TypeRef → Value → Path → Coercion Value}

variable (context convert fault) in
/-- Some parse functions raise a fault where otherwise they would not. -/
def Raises : Prop :=
  ∀ handle value, context.convert handle value = convert handle value ∨
    context.convert handle value = .error fault

section

variable (raises : context.Raises convert fault)

include raises

variable (parts : ∀ ref raw path, Exposes fault (recur ref raw path) (goesOn ref raw path))

include parts

end

end CoercionContext

end GraphQL
