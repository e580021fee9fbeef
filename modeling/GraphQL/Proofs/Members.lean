import GraphQL.Proofs.Resemblance

/-!
# Members of input objects and of selections

The fields of an input object and the arguments of a selection are coerced in two ways that come to
the same. Where all keys of a mapping are declared, it is coerced to an input object if and only if
its entries are coerced as arguments that are declared like the fields, and to the same values under
the same keys. Otherwise the same members fail.
-/

namespace GraphQL

namespace Coercion

variable {α : Type} {part other : Coercion α}

/-- A coercion fails with leaves, which are gathered with those of others. -/
def Fails (part : Coercion α) : Prop :=
  ∃ failure, part.outcome = .error (.failed failure)

theorem fails_iff_verdict : part.Fails ↔ part.verdict = .error none := by
  unfold Fails verdict
  rcases part.outcome with (failure | _ | _ | _) | value <;>
    simp [Except.mapError, CoercionStop.fatal?]

theorem Alike.fails_iff (alike : Alike part other) : part.Fails ↔ other.Fails := by
  rw [fails_iff_verdict, fails_iff_verdict, alike]

theorem Alike.stops_iff (alike : Alike part other) {why : CoercionStop}
    (sudden : ∀ failure, .failed failure ≠ why) :
    part.outcome = .error why ↔ other.outcome = .error why := by
  have fatal : why.fatal? = some why := by
    cases why with
    | failed failure => exact absurd rfl (sudden failure)
    | _ => rfl
  rw [← verdict_eq_fatal_iff fatal, ← verdict_eq_fatal_iff fatal, alike]

theorem Alike.ok_iff (alike : Alike part other) (value : α) :
    part.outcome = .ok value ↔ other.outcome = .ok value := by
  rw [← verdict_eq_ok_iff, ← verdict_eq_ok_iff, alike]

end Coercion

namespace CoercionContext

open Coercion (Alike leavesOf)

variable {context : CoercionContext} {depth : Nat}

/-- A field of an input object and an argument that is declared like it come to the same. -/
theorem Follows.alike_argumentPart (follows : context.Follows depth) (type : InputType)
    (literals : Entries Value) (path : Path) (field : Argument) :
    Alike (context.argumentPart depth literals field)
      (context.fieldPart (context.coerce depth) type literals path field) := by
  have nothing : Alike
      (absent (context.coerce depth) field [.key field.name]
        (argumentPart.missing field [.key field.name]))
      (absent (context.coerce depth) field (path ++ [.key field.name])
        (.fail (.missingField type.name field.name field.type) path)) :=
    follows.alike_absent _ _ field (.fail _ _ _ _)
  unfold fieldPart rawField
  cases given : Entries.get? literals field.name with
  | none =>
    rw [argumentPart_of_none given]
    exact nothing
  | some raw =>
    rw [Option.getD_some]
    dsimp only
    cases unsupplied : context.isUnsupplied raw with
    | true => exact (alike_argumentPart_of_isUnsupplied depth given unsupplied).trans nothing
    | false =>
      rw [argumentPart_of_supplied given unsupplied, if_neg Bool.false_ne_true]
      exact follows.alike_member _ _ (.same _ raw) rfl (.fail _ _ _ _)

/-- What the fields of an input object come to, before it is a value. -/
def gatherFields (context : CoercionContext) (depth : Nat) (type : InputType)
    (entries : Entries Value) (path : Path) : Coercion (Entries Value) :=
  membersOf <$> Coercion.gather path
    (type.fields.map (context.fieldPart (context.coerce depth) type entries path))

/-- The arguments of a selection and the fields of an input object come to the same. -/
theorem Follows.alike_coerceArguments (follows : context.Follows depth) (type : InputType)
    (literals : Entries Value) (path : Path) :
    Alike (context.coerceArguments depth type.fields literals)
      (context.gatherFields depth type literals path) := by
  refine Alike.map membersOf (.gather ?_ [] path)
  rw [List.forall₂_map_left_iff, List.forall₂_map_right_iff, List.forall₂_same]
  exact fun field _ => follows.alike_argumentPart type literals path field

/-- A failure of what is gathered has the leaves of its parts. -/
theorem leaves_of_gather {α β : Type} {parts : List α} {coerced : α → Coercion β} {path : Path}
    {change : List β → Entries Value} {failure : CoercionFailure}
    (failed : (change <$> Coercion.gather path (parts.map coerced)).outcome =
      .error (.failed failure)) :
    failure.leaves = parts.flatMap fun part => leavesOf (coerced part).outcome := by
  have reports := (Coercion.reports_gather path (parts.map coerced)).map change
  rw [Coercion.outcome_map] at failed
  rw [reports.leaves failure failed, List.flatMap_map, List.flatMap_map]

/-- Where all keys are declared, an input object is made of what its fields come to. -/
theorem outcome_coerce_map (settles : context.Settles) {name : String} {type : InputType}
    (found : context.registry.type? name = some (.input type)) {entries : Entries Value}
    (declared : ∀ key ∈ Entries.keys entries, ∃ field ∈ type.fields, field.name = key)
    (depth : Nat) (nonNull : Bool) (path : Path) :
    (context.coerce (depth + 1) (.named name nonNull) (.map entries) path).outcome =
      (context.gatherFields depth type entries path).outcome.map Value.map := by
  have known : unknownKeys type entries = [] := by
    rw [unknownKeys_eq, List.filter_eq_nil_iff]
    intro key among
    obtain ⟨field, member, rfl⟩ := declared key among
    rw [decide_eq_true_iff, not_not]
    exact List.mem_map_of_mem member
  rw [coerce_map settles found, known, List.map_nil, List.append_nil, gatherFields,
    Coercion.outcome_map, Coercion.outcome_map]
  cases (Coercion.gather path
    (type.fields.map (context.fieldPart (context.coerce depth) type entries path))).outcome <;> rfl

theorem outcome_coerce_map_iff (settles : context.Settles) {name : String} {type : InputType}
    (found : context.registry.type? name = some (.input type)) {entries : Entries Value}
    (declared : ∀ key ∈ Entries.keys entries, ∃ field ∈ type.fields, field.name = key)
    (depth : Nat) (nonNull : Bool) (path : Path) :
    let object := (context.coerce (depth + 1) (.named name nonNull) (.map entries) path).outcome
    let gathered := (context.gatherFields depth type entries path).outcome
    (∀ value, object = .ok value ↔ ∃ mapping, gathered = .ok mapping ∧ value = .map mapping) ∧
      ∀ why, object = .error why ↔ gathered = .error why := by
  intro object gathered
  have made : object = gathered.map Value.map :=
    outcome_coerce_map settles found declared depth nonNull path
  rw [made]
  cases gathered <;> simp [Except.map, eq_comm]

/-- Arguments that are declared like the fields of an input object are coerced as it is, where all
keys are declared: to the same mapping, or to none for the same reason, where the same members fail.
What failed is reported member by member. -/
theorem coerceArguments_iff_coerce (settles : context.Settles) {name : String} {type : InputType}
    (found : context.registry.type? name = some (.input type)) {literals : Entries Value}
    (declared : ∀ key ∈ Entries.keys literals, ∃ field ∈ type.fields, field.name = key)
    (depth : Nat) (nonNull : Bool) (path : Path) :
    let arguments := (context.coerceArguments depth type.fields literals).outcome
    let object := (context.coerce (depth + 1) (.named name nonNull) (.map literals) path).outcome
    (∀ mapping, arguments = .ok mapping ↔ object = .ok (.map mapping)) ∧
    (∀ value, object = .ok value → ∃ mapping, value = .map mapping) ∧
    (∀ why, (∀ failure, .failed failure ≠ why) →
      (arguments = .error why ↔ object = .error why)) ∧
    ((∃ failure, arguments = .error (.failed failure)) ↔
      ∃ failure, object = .error (.failed failure)) ∧
    ∀ failure other, arguments = .error (.failed failure) → object = .error (.failed other) →
      (failure.leaves = type.fields.flatMap fun field =>
        leavesOf (context.argumentPart depth literals field).outcome) ∧
      (other.leaves = type.fields.flatMap fun field =>
        leavesOf (context.fieldPart (context.coerce depth) type literals path field).outcome) ∧
      ∀ field ∈ type.fields, (context.argumentPart depth literals field).Fails ↔
        (context.fieldPart (context.coerce depth) type literals path field).Fails := by
  intro arguments object
  have follows : context.Follows depth := follows_coerce settles depth
  have alike := follows.alike_coerceArguments type literals path
  obtain ⟨succeeds, stops⟩ : (∀ value, object = .ok value ↔ _) ∧ ∀ why, object = .error why ↔ _ :=
    outcome_coerce_map_iff settles found declared depth nonNull path
  refine ⟨fun mapping => ?_, fun value succeeded => ?_, fun why sudden => ?_, ?_, ?_⟩
  · rw [alike.ok_iff mapping, succeeds]
    constructor
    · exact fun gathered => ⟨mapping, gathered, rfl⟩
    · rintro ⟨_, gathered, ⟨⟩⟩
      exact gathered
  · obtain ⟨mapping, _, same⟩ := (succeeds value).mp succeeded
    exact ⟨mapping, same⟩
  · rw [stops]
    exact alike.stops_iff sudden
  · simp only [stops]
    exact alike.fails_iff
  · intro failure other failed refused
    exact ⟨leaves_of_gather failed, leaves_of_gather ((stops _).mp refused),
      fun field _ => (follows.alike_argumentPart type literals path field).fails_iff⟩

/-- What is given for a limit of pages: a variable that was not supplied, and a filter whose limit
is null. -/
def givenLimit : Entries Value :=
  [("within", .map [("limit", .null)]), ("count", .var "unset")]

/-- Given as arguments or as an input object, it is a limit with the default count, in the order of
declaration. -/
theorem coerceArguments_iff_coerce_limit :
    ∃ mapping, (pageContext.coerceArguments 8 limitInput.fields givenLimit).outcome = .ok mapping ∧
      (pageContext.coerce 9 (.named "Limit" true) (.map givenLimit) [.key "limit"]).outcome =
        .ok (.map mapping) ∧
      mapping = [("count", .int 5), ("within", .map [("limit", .null)])] := by
  have declared : ∀ key ∈ Entries.keys givenLimit, ∃ field ∈ limitInput.fields,
      field.name = key := by decide
  have found : pageContext.registry.type? "Limit" = some (.input limitInput) := rfl
  obtain ⟨same, _⟩ :=
    coerceArguments_iff_coerce (settles_of_id rfl) found declared 8 true [.key "limit"]
  exact ⟨_, rfl, (same _).mp rfl, rfl⟩

end CoercionContext

end GraphQL
