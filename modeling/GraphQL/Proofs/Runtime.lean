import GraphQL.Proofs.Layout
import GraphQL.Proofs.Run

/-!
# Object types of values of abstract types

Whichever way the object type of a value of an abstract type is found, by a hook, by asking the
possible types or by the value itself, it is a registered object type and a possible one. Where none
is found, the cause is one of those that the ways have.
-/

namespace GraphQL

variable {registry : Registry} {answer : Handle → Value → Except Fault Value} {name : String}
  {type : TypeDefinition} {object : ObjectType} {value result : Value}

namespace Registry

/-- The name under which a definition is registered is its own. -/
theorem name_of_type? (found : registry.type? name = some type) : type.name = name :=
  name_of_lookupType? found

theorem mem_of_type? (found : registry.type? name = some type) : type ∈ registry.types :=
  mem_of_lookupType? found

theorem type?_of_objectType? (found : registry.objectType? name = some object) :
    registry.type? name = some (.object object) := by
  unfold objectType? at found
  split at found
  · next type registered =>
    cases found
    exact registered
  · cases found

theorem objectType?_of_type? (found : registry.type? name = some (.object object)) :
    registry.objectType? name = some object := by
  unfold objectType?
  rw [found]

/-- An object type that is registered is registered under its name. -/
theorem type?_self (found : registry.type? name = some (.object object)) :
    registry.type? object.name = some (.object object) := by
  have same : object.name = name := name_of_type? found
  rwa [same]

/-- The possible types of an abstract type are registered, and possible. -/
theorem of_mem_possibleTypes (member : object ∈ registry.possibleTypes name) :
    registry.type? object.name = some (.object object) ∧
      registry.isPossible name object.name = true := by
  obtain ⟨possible, listed, found⟩ := List.mem_filterMap.mp member
  have registered := type?_of_objectType? found
  have same : object.name = possible := name_of_type? registered
  refine ⟨type?_self registered, ?_⟩
  rw [same]
  exact List.contains_iff_mem.mpr listed

/-- The object types that a value of a name may have are registered. -/
theorem CanBe.registered (possible : registry.CanBe name object) :
    registry.type? object.name = some (.object object) := by
  rcases possible with itself | ⟨_, _, _, registered, _⟩
  · exact type?_self itself
  · exact registered

end Registry

/-- The root type of an operation is registered. -/
theorem Environment.registered_of_rootType? {σ : Type} {env : Environment σ}
    (found : env.rootType? = some object) :
    env.registry.type? object.name = some (.object object) := by
  obtain ⟨root, _, named⟩ := Option.bind_eq_some_iff.mp found
  exact Registry.type?_self (Registry.type?_of_objectType? named)

namespace AbstractType

theorem of_named_eq_ok (found : named registry name result = .ok object) :
    registry.type? object.name = some (.object object) ∧
      registry.isPossible name object.name = true := by
  unfold named at found
  split at found
  · cases found
  · split at found
    · cases found
    · next registered =>
      split at found
      · next possible =>
        cases found
        exact ⟨Registry.type?_self registered, possible⟩
      · cases found
    · cases found

/-- The hook of an abstract type decides for a possible type. -/
theorem of_byOwnHook_eq_ok {hook : Handle}
    (found : byOwnHook registry answer name hook value = .ok object) :
    registry.type? object.name = some (.object object) ∧
      registry.isPossible name object.name = true := by
  unfold byOwnHook at found
  obtain ⟨result, _, found⟩ := exists_of_bind_eq_ok found
  obtain ⟨chosen, decided, found⟩ := exists_of_bind_eq_ok found
  obtain ⟨accepted, _, found⟩ := exists_of_bind_eq_ok found
  cases accepted with
  | false => cases found
  | true =>
    cases found
    exact of_named_eq_ok decided

/-- The first type whose hook accepts a value is one of those that were asked. -/
theorem mem_of_firstAccepting? {candidates : List ObjectType}
    (found : firstAccepting? answer value candidates = .ok (some object)) :
    object ∈ candidates := by
  induction candidates with
  | nil => cases found
  | cons candidate rest ih =>
    unfold firstAccepting? at found
    split at found
    · exact List.mem_cons_of_mem _ (ih found)
    · obtain ⟨accepted, _, found⟩ := exists_of_bind_eq_ok found
      cases accepted with
      | true =>
        cases found
        exact List.mem_cons_self
      | false => exact List.mem_cons_of_mem _ (ih found)

/-- The possible types, or the value itself, decide for a possible type. -/
theorem of_byCandidates_eq_ok
    (found : byCandidates registry answer name value = .ok object) :
    registry.type? object.name = some (.object object) ∧
      registry.isPossible name object.name = true := by
  unfold byCandidates at found
  obtain ⟨accepting?, asked, found⟩ := exists_of_bind_eq_ok found
  cases accepting? with
  | some accepting =>
    cases found
    exact Registry.of_mem_possibleTypes (mem_of_firstAccepting? asked)
  | none =>
    dsimp only at found
    split at found
    · cases found
    · split at found
      · exact of_named_eq_ok found
      · cases found

/-- Rewording failures changes no result. -/
theorem mapError_eq_ok_iff {ε δ α : Type} {outcome : Except ε α} {reword : ε → δ} {found : α} :
    outcome.mapError reword = .ok found ↔ outcome = .ok found := by
  constructor
  · intro same
    cases outcome with
    | error why => cases same
    | ok value =>
      cases same
      rfl
  · rintro rfl
    rfl

/-- The object type of a value of an abstract type is one that the type admits. -/
theorem canBe_of_resolve_eq_ok (registered : registry.type? name = some type)
    (abstract : type.isAbstract = true) (found : resolve registry answer type value = .ok object) :
    registry.CanBe name object := by
  have same : type.name = name := Registry.name_of_type? registered
  have possible : registry.type? object.name = some (.object object) ∧
      registry.isPossible type.name object.name = true := by
    unfold resolve at found
    split at found
    · exact of_byOwnHook_eq_ok (mapError_eq_ok_iff.mp found)
    · exact of_byCandidates_eq_ok (mapError_eq_ok_iff.mp found)
  rw [same] at possible
  exact Or.inr ⟨type, registered, abstract, possible⟩

end AbstractType

/-! ## Causes of failure -/

/-- Whether a cause is that an answer leads to no possible type that accepts the value. -/
def AbstractCause.isRefusal : AbstractCause → Bool
  | .rejected _ | .notAName _ | .unknownType _ | .notAnObject _ | .notPossible _ => true
  | _ => false

namespace AbstractType

/-- What fails does so for a cause that is due. -/
def FailsFor {α : Type} (due : AbstractCause → Prop) (outcome : Except AbstractCause α) : Prop :=
  ∀ cause, outcome = .error cause → due cause

variable (registry answer name value) in
/-- The causes for which no object type is found are due. -/
structure Covers (due : AbstractCause → Prop) : Prop where
  asks : ∀ label hook, FailsFor due (ask answer label hook value)
  refusals : ∀ cause : AbstractCause, cause.isRefusal = true → due cause
  noneAccepts : due (.noneAccepts ((registry.possibleTypes name).map ObjectType.name) value)
  undecided : due (.undecided ((registry.possibleTypes name).map ObjectType.name) value)

variable {due : AbstractCause → Prop}

namespace FailsFor

variable {α β : Type}

theorem ok (found : α) : FailsFor due (.ok found) :=
  fun _ failed => nomatch failed

theorem error {cause : AbstractCause} (isDue : due cause) :
    FailsFor due (.error cause : Except AbstractCause α) := by
  rintro _ ⟨⟩
  exact isDue

theorem bind {part : Except AbstractCause α} {next : α → Except AbstractCause β}
    (first : FailsFor due part) (later : ∀ found, FailsFor due (next found)) :
    FailsFor due (part >>= next) := by
  cases part with
  | ok found => exact later found
  | error cause => exact error (first cause rfl)

theorem map {part : Except AbstractCause α} {change : α → β} (fails : FailsFor due part) :
    FailsFor due (part.map change) := by
  cases part with
  | ok found => exact ok _
  | error cause => exact error (fails cause rfl)

end FailsFor

namespace Covers

variable (covers : Covers registry answer name value due)

include covers

theorem accepts (object : ObjectType) : FailsFor due (accepts answer object value) := by
  unfold AbstractType.accepts
  split
  · exact .ok true
  · exact (covers.asks _ _).map

theorem named (result : Value) : FailsFor due (named registry name result) := by
  unfold AbstractType.named
  split
  · exact .error (covers.refusals _ rfl)
  · split
    · exact .error (covers.refusals _ rfl)
    · split
      · exact .ok _
      · exact .error (covers.refusals _ rfl)
    · exact .error (covers.refusals _ rfl)

theorem firstAccepting? (candidates : List ObjectType) :
    FailsFor due (firstAccepting? answer value candidates) := by
  induction candidates with
  | nil => exact .ok none
  | cons object rest ih =>
    unfold AbstractType.firstAccepting?
    split
    · exact ih
    · refine (covers.accepts object).bind fun accepted => ?_
      split
      · exact .ok _
      · exact ih

theorem byOwnHook (hook : Handle) : FailsFor due (byOwnHook registry answer name hook value) := by
  refine (covers.asks _ hook).bind fun result => (covers.named result).bind fun object =>
    (covers.accepts object).bind fun accepted => ?_
  split
  · exact .ok object
  · exact .error (covers.refusals _ rfl)

theorem byCandidates : FailsFor due (byCandidates registry answer name value) := by
  refine (covers.firstAccepting? _).bind fun first => ?_
  split
  · exact .ok _
  · split
    · exact .error covers.noneAccepts
    · split
      · exact covers.named _
      · exact .error covers.undecided

end Covers

/-- Where no object type is found for a value, the cause is due. -/
theorem due_of_resolve_eq_error {failure : AbstractFailure}
    (covers : Covers registry answer type.name value due)
    (failed : resolve registry answer type value = .error failure) : due failure.cause := by
  have blamed : ∀ outcome : Except AbstractCause ObjectType, FailsFor due outcome →
      outcome.mapError (⟨type.name, ·⟩) = .error failure → due failure.cause := by
    rintro (cause | object) fails failed
    · cases failed
      exact fails cause rfl
    · cases failed
  unfold resolve at failed
  dsimp only at failed
  split at failed
  · exact blamed _ (covers.byOwnHook _) failed
  · exact blamed _ covers.byCandidates failed

end AbstractType

end GraphQL
