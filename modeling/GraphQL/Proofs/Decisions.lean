import GraphQL.ErrorReport
import GraphQL.Proofs.Constancy
import GraphQL.Proofs.Failures
import GraphQL.Proofs.SubTyping

/-!
# Decisions on object types

The hook of an abstract type, the hooks of its possible types and the value itself decide on the
object type of a value, each by a rule of its own. The rules say exactly for which object type that
is, and nothing else comes out: the object type is a possible one whose own hook does not reject the
value, and whatever goes wrong is reported as the failure to find one.
-/

namespace GraphQL.AbstractType

variable {registry : Registry} {answer : Handle → Value → Except Fault Value} {name : String}
  {type : TypeDefinition} {object : ObjectType} {value result : Value}
  {candidates : List ObjectType}

variable (answer) in
/-- The hook of an object type accepts a value, if the type has one. -/
def Admits (object : ObjectType) (value : Value) : Prop :=
  ∀ hook, object.isTypeOf = some hook →
    ∃ result, answer hook value = .ok result ∧ result.truthy = true

variable (answer) in
/-- The hook of an object type rejects a value, if the type has one. -/
def PassesOver (object : ObjectType) (value : Value) : Prop :=
  ∀ hook, object.isTypeOf = some hook →
    ∃ result, answer hook value = .ok result ∧ result.truthy = false

variable (answer) in
/-- An object type is the first of several whose hook accepts a value, and no hook before it
fails. -/
def IsFirstAccepting (candidates : List ObjectType) (object : ObjectType) (value : Value) : Prop :=
  ∃ earlier later, candidates = earlier ++ object :: later ∧
    (∀ other ∈ earlier, PassesOver answer other value) ∧
    object.isTypeOf.isSome = true ∧ Admits answer object value

/-! ## Answers of hooks -/

theorem ask_eq_ok_iff {label : String} {hook : Handle} :
    ask answer label hook value = .ok result ↔ answer hook value = .ok result := by
  unfold ask
  cases answer hook value with
  | ok given => simp
  | error fault =>
    simp only [reduceCtorEq, iff_false]
    split
    · simp
    · split <;> simp

/-- A hook that an object type has accepts a value, or rejects it, by whether its answer holds. -/
theorem accepts_eq_ok_iff {accepted : Bool} {hook : Handle} (hooked : object.isTypeOf = some hook) :
    accepts answer object value = .ok accepted ↔
      ∃ result, answer hook value = .ok result ∧ result.truthy = accepted := by
  unfold accepts
  rw [hooked]
  dsimp only
  constructor
  · intro asked
    cases given : ask answer (object.name ++ ".is_type_of") hook value with
    | error cause =>
      rw [given] at asked
      cases asked
    | ok result =>
      rw [given] at asked
      cases asked
      exact ⟨result, ask_eq_ok_iff.mp given, rfl⟩
  · rintro ⟨result, given, rfl⟩
    rw [ask_eq_ok_iff.mpr given]
    rfl

theorem accepts_eq_true_iff :
    accepts answer object value = .ok true ↔ Admits answer object value := by
  cases hooked : object.isTypeOf with
  | none =>
    unfold accepts Admits
    simp [hooked]
  | some hook =>
    rw [accepts_eq_ok_iff hooked]
    unfold Admits
    simp [hooked]

theorem passesOver_of_none (unhooked : object.isTypeOf = none) :
    PassesOver answer object value := by
  intro hook hooked
  rw [unhooked] at hooked
  cases hooked

theorem passesOver_iff {hook : Handle} (hooked : object.isTypeOf = some hook) :
    PassesOver answer object value ↔ accepts answer object value = .ok false := by
  rw [accepts_eq_ok_iff hooked]
  unfold PassesOver
  simp [hooked]

/-! ## The three authorities -/

theorem firstAccepting?_eq_some_iff :
    firstAccepting? answer value candidates = .ok (some object) ↔
      IsFirstAccepting answer candidates object value := by
  constructor
  · intro found
    induction candidates with
    | nil => cases found
    | cons candidate rest ih =>
      have further : firstAccepting? answer value rest = .ok (some object) →
          PassesOver answer candidate value →
          IsFirstAccepting answer (candidate :: rest) object value := by
        intro found passes
        obtain ⟨earlier, later, rfl, rejected, hooked, admits⟩ := ih found
        exact ⟨candidate :: earlier, later, rfl, List.forall_mem_cons.mpr ⟨passes, rejected⟩,
          hooked, admits⟩
      unfold firstAccepting? at found
      cases hooked : candidate.isTypeOf with
      | none =>
        rw [hooked] at found
        exact further found (passesOver_of_none hooked)
      | some hook =>
        rw [hooked] at found
        obtain ⟨accepted, checked, found⟩ := exists_of_bind_eq_ok found
        cases accepted with
        | false => exact further found ((passesOver_iff hooked).mpr checked)
        | true =>
          cases found
          have unpassed : ∀ other ∈ [], PassesOver answer other value :=
            fun other among => absurd among List.not_mem_nil
          exact ⟨[], rest, rfl, unpassed, by rw [hooked]; rfl, accepts_eq_true_iff.mp checked⟩
  · rintro ⟨earlier, later, rfl, rejected, hooked, admits⟩
    obtain ⟨hook, hooked⟩ := Option.isSome_iff_exists.mp hooked
    rw [firstAccepting?_append rejected, firstAccepting?, hooked]
    dsimp only
    rw [accepts_eq_true_iff.mpr admits]
    rfl

/-- Possible types of which one has a hook decide for the first that accepts the value. -/
theorem byCandidates_eq_ok_iff
    (hooked : ∃ candidate ∈ registry.possibleTypes name, candidate.isTypeOf.isSome = true) :
    byCandidates registry answer name value = .ok object ↔
      IsFirstAccepting answer (registry.possibleTypes name) object value := by
  rw [← firstAccepting?_eq_some_iff]
  unfold byCandidates
  dsimp only
  cases firstAccepting? answer value (registry.possibleTypes name) with
  | error cause => simp [bind, Except.bind]
  | ok first =>
    cases first with
    | some accepting => simp [bind, Except.bind]
    | none =>
      have some : (registry.possibleTypes name).any (·.isTypeOf.isSome) = true :=
        List.any_eq_true.mpr hooked
      simp [bind, Except.bind, some]

end GraphQL.AbstractType
