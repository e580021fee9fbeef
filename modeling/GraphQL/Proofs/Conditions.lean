import GraphQL.Proofs.Accepted
import GraphQL.Proofs.Collection
import GraphQL.Proofs.Layout

/-!
# Conditions of selections

Whether a selection takes part depends on Booleans alone. A Boolean stays the same whatever becomes
of the error objects among the values of variables; so the groups that are collected for an object
are the same throughout an execution.
-/

namespace GraphQL

variable {σ α β : Type}

/-- The Boolean that a value counts as. -/
def Value.bool? (value : Value) : Option Bool :=
  match value.plain with
  | .bool b => some b
  | _ => none

theorem Value.bool?_mapFaults (change : Fault → Fault) :
    ∀ value : Value, (value.mapFaults change).bool? = value.bool?
  | .chosen _ _ value => bool?_mapFaults change value
  | .null | .undefined | .bool _ | .int _ | .float _ | .str _ | .bytes _ | .list _ | .tuple _
  | .map _ | .var _ | .member .. | .keyword .. | .fault _ | .stream .. | .pending _ | .failing _
  | .promise _ | .object .. | .location _ | .typeRef _ | .definition _ | .schema => rfl

/-- No Boolean shows what has become of error objects. -/
theorem World.bool?_settleValue (world : World σ) (value : Value) :
    (world.settleValue value).bool? = value.bool? := by
  unfold World.settleValue
  split
  · rfl
  · exact Value.bool?_mapFaults _ value

/-- Two outcomes of coercions are the same value, or failures both of them. -/
inductive Agrees : Except CoercionStop α → Except CoercionStop α → Prop where
  | ok (value : α) : Agrees (.ok value) (.ok value)
  | failed (one other : CoercionFailure) : Agrees (.error (.failed one)) (.error (.failed other))

namespace Agrees

variable {one other : Except CoercionStop α}

protected theorem bind {next goesOn : α → Except CoercionStop β} (agree : Agrees one other)
    (following : ∀ value, Agrees (next value) (goesOn value)) :
    Agrees (one.bind next) (other.bind goesOn) := by
  cases agree with
  | ok value => exact following value
  | failed first second => exact .failed first second

/-- Outcomes that agree with the same one agree with each other. -/
theorem failed_of_error {stop : CoercionStop} (agree : Agrees (.error stop) other) :
    ∃ failure, stop = .failed failure := by
  cases agree with
  | failed first _ => exact ⟨first, rfl⟩

theorem ok_iff (agree : Agrees one other) (value : α) : one = .ok value ↔ other = .ok value := by
  cases agree with
  | ok value => exact Iff.rfl
  | failed first second => exact ⟨nofun, nofun⟩

/-- Gathering a single part fails if that part does. -/
theorem gather {part likewise : Coercion α} (agree : Agrees part.outcome likewise.outcome)
    (path : Path) :
    Agrees (Coercion.gather path [part]).outcome (Coercion.gather path [likewise]).outcome := by
  obtain ⟨outcome, ignored⟩ := part
  obtain ⟨otherOutcome, otherIgnored⟩ := likewise
  cases agree with
  | ok value => exact .ok [value]
  | failed first second => exact .failed _ _

end Agrees

namespace CoercionContext

variable {context : CoercionContext} {recur likewise : TypeRef → Value → Path → Coercion Value}

/-- The context in which values show nothing of what has become of error objects. -/
def unsettled (context : CoercionContext) : CoercionContext :=
  { context with settle := id }

variable (context) in
/-- A context in which the conditions of selections can be coerced, however values are settled. -/
structure Conditional : Prop where
  known : context.registry.type? "Boolean" = some (.scalar BuiltinScalar.boolean.type)
  blind : ∀ value, (context.settle value).bool? = value.bool?

/-- A Boolean is coerced to itself, and all else is refused. -/
theorem agrees_parseScalar_boolean {raw shown : Value} (same : raw.bool? = shown.bool?)
    (other : CoercionContext) (path : Path) :
    Agrees (context.parseScalar BuiltinScalar.boolean.type raw path).outcome
      (other.parseScalar BuiltinScalar.boolean.type shown path).outcome := by
  have outcome : ∀ (context : CoercionContext) (value : Value),
      (∃ b, value.bool? = some b ∧
        (context.parseScalar BuiltinScalar.boolean.type value path).outcome = .ok (.bool b)) ∨
      value.bool? = none ∧ ∃ failure,
        (context.parseScalar BuiltinScalar.boolean.type value path).outcome =
          .error (.failed failure) := by
    intro context value
    have parsed : BuiltinScalar.boolean.type.parse.apply context.convert value =
      BuiltinScalar.boolean.convert .parse value.plain := rfl
    unfold parseScalar Value.bool?
    rw [parsed]
    cases value.plain with
    | bool b => exact Or.inl ⟨b, rfl, rfl⟩
    | _ => exact Or.inr ⟨rfl, _, rfl⟩
  rcases outcome context raw with ⟨b, isBool, gives⟩ | ⟨isNone, failure, fails⟩
  · rcases outcome other shown with ⟨c, isBool', gives'⟩ | ⟨isNone, _⟩
    · rw [same, isBool'] at isBool
      cases isBool
      rw [gives, gives']
      exact .ok _
    · rw [same, isNone] at isBool
      cases isBool
  · rcases outcome other shown with ⟨c, isBool, _⟩ | ⟨_, otherFailure, fails'⟩
    · rw [same, isBool] at isNone
      cases isNone
    · rw [fails, fails']
      exact .failed failure otherFailure

namespace Conditional

variable (conditional : context.Conditional)

include conditional

theorem parseNamed (raw : Value) (path : Path) :
    Agrees (context.parseNamed recur "Boolean" raw path).outcome
      (context.unsettled.parseNamed likewise "Boolean" raw path).outcome := by
  have known : context.unsettled.registry.type? "Boolean" =
    some (.scalar BuiltinScalar.boolean.type) := conditional.known
  unfold CoercionContext.parseNamed
  rw [conditional.known, known]
  exact agrees_parseScalar_boolean (conditional.blind raw) _ path

theorem coerceNullable (required : Bool) (raw : Value) (path : Path) :
    Agrees (context.coerceNullable recur (.named "Boolean" required) raw path).outcome
      (context.unsettled.coerceNullable likewise (.named "Boolean" required) raw path).outcome := by
  have substituted : context.unsettled.substitute raw = context.substitute raw := rfl
  have unsupplied : context.unsettled.isUnsupplied raw = context.isUnsupplied raw := rfl
  unfold CoercionContext.coerceNullable
  rw [substituted, unsupplied]
  split
  · exact .ok Value.undefined
  · cases context.substitute raw with
    | null => exact .ok Value.null
    | _ => exact conditional.parseNamed _ path

theorem coerceWith (raw : Value) (path : Path) :
    Agrees (context.coerceWith recur (.named "Boolean" true) raw path).outcome
      (context.unsettled.coerceWith likewise (.named "Boolean" true) raw path).outcome := by
  have required : ∀ raw : Value,
      Agrees
        (CoercionContext.coerceWith.required context recur (.named "Boolean" true) path raw).outcome
        (CoercionContext.coerceWith.required context.unsettled likewise (.named "Boolean" true) path
          raw).outcome := by
    intro raw
    unfold CoercionContext.coerceWith.required
    split
    · exact .failed _ _
    · exact conditional.coerceNullable true raw path
  unfold CoercionContext.coerceWith
  rw [if_pos (by rfl), if_pos (by rfl)]
  cases raw with
  | var name =>
    have unsupplied :
        context.unsettled.isUnsupplied (.var name) = context.isUnsupplied (.var name) := rfl
    dsimp only
    rw [unsupplied]
    split
    · exact .failed _ _
    · exact required _
  | _ => exact required _

theorem argumentPart (depth : Nat) (literals : Entries Value) (description : String) :
    Agrees
      (context.argumentPart (depth + 1) literals (Directive.condition description)).outcome
      (context.unsettled.argumentPart (depth + 1) literals
        (Directive.condition description)).outcome := by
  have supplied : ∀ raw : Value, ∀ path : Path,
      Agrees (member (context.coerce (depth + 1)) (Directive.condition description) raw path
          (argumentPart.missing (Directive.condition description) path)).outcome
        (member (context.unsettled.coerce (depth + 1)) (Directive.condition description) raw path
          (argumentPart.missing (Directive.condition description) path)).outcome := by
    intro raw path
    have absent : ∀ recur, (absent recur (Directive.condition description) path
        (argumentPart.missing (Directive.condition description) path)).outcome =
        .error (.failed { path, first := ⟨.missingArgument "if" (.named "Boolean" true), path⟩ }) :=
      fun _ => rfl
    unfold member
    split
    · rw [absent, absent]
      exact .failed _ _
    · rw [Coercion.outcome_bind, Coercion.outcome_bind]
      refine (conditional.coerceWith raw path).bind fun value => ?_
      split
      · rw [absent, absent]
        exact .failed _ _
      · exact .ok _
  have unsupplied : ∀ raw, context.unsettled.isUnsupplied raw = context.isUnsupplied raw :=
    fun _ => rfl
  unfold CoercionContext.argumentPart
  dsimp only
  cases Entries.get? literals (Directive.condition description).name with
  | none => exact supplied _ _
  | some raw =>
    cases raw with
    | var name =>
      dsimp only
      rw [unsupplied]
      split
      · exact .failed _ _
      · exact supplied _ _
    | _ => exact supplied _ _

/-- The condition of a selection is coerced alike, or is refused alike. -/
theorem coerceArguments (literals : Entries Value) (description : String) :
    Agrees
      (context.coerceArguments defaultCoercionDepth [Directive.condition description]
        literals).outcome
      (context.unsettled.coerceArguments defaultCoercionDepth [Directive.condition description]
        literals).outcome := by
  unfold CoercionContext.coerceArguments
  rw [Coercion.outcome_bind, Coercion.outcome_bind]
  exact ((conditional.argumentPart 999 literals description).gather []).bind fun parts => .ok _

end Conditional

end CoercionContext

namespace CollectionContext

variable {context : CollectionContext}

/-- The context in which values show nothing of what has become of error objects. -/
def unsettled (context : CollectionContext) : CollectionContext :=
  { context with settle := id }

variable (context) in
/-- A context whose registry has the directives for conditions, however values are settled. -/
structure Conditional : Prop where
  coerced : context.coercion.Conditional
  skipped : context.registry.directive? Directive.skipIf.name = some Directive.skipIf
  included : context.registry.directive? Directive.includeIf.name = some Directive.includeIf

namespace Conditional

variable (conditional : context.Conditional)

include conditional

/-- A directive lets its selection take part alike. -/
theorem admits (use : DirectiveUse) :
    Agrees (context.admits use) (context.unsettled.admits use) := by
  have same : context.unsettled.registry = context.registry := rfl
  have likewise : context.unsettled.coercion = context.coercion.unsettled := rfl
  unfold CollectionContext.admits
  rw [same, likewise]
  split
  · exact .ok true
  · next conditions =>
    have found : ∃ description directive, context.registry.directive? use.name = some directive ∧
        directive.args = [Directive.condition description] := by
      rw [not_and_or, not_not, not_not] at conditions
      rcases conditions with skips | includes
      · exact ⟨_, _, skips ▸ conditional.skipped, rfl⟩
      · exact ⟨_, _, includes ▸ conditional.included, rfl⟩
    obtain ⟨description, directive, found, args⟩ := found
    have coerced := conditional.coerced.coerceArguments use.arguments description
    rw [found]
    dsimp only
    rw [args]
    generalize (context.coercion.coerceArguments _ _ _).outcome = one at coerced ⊢
    generalize (context.coercion.unsettled.coerceArguments _ _ _).outcome = other at coerced ⊢
    cases coerced with
    | ok args => exact .ok _
    | failed first second => exact .failed first second

theorem includes (uses : List DirectiveUse) :
    Agrees (context.includes uses) (context.unsettled.includes uses) := by
  induction uses with
  | nil => exact .ok true
  | cons use rest ih =>
    have admitted := conditional.admits use
    unfold CollectionContext.includes
    generalize context.admits use = one at admitted ⊢
    generalize context.unsettled.admits use = other at admitted ⊢
    cases admitted with
    | ok admitted =>
      cases admitted with
      | true => exact ih
      | false => exact .ok false
    | failed first second => exact .failed first second

end Conditional

end CollectionContext

namespace Collector

/-- Two steps of collecting that agree: they collect the same, and have the same result or both
fail. -/
def Alike (part likewise : Collector α) : Prop :=
  ∀ before, Agrees (part.runFrom before).1 (likewise.runFrom before).1 ∧
    (part.runFrom before).2 = (likewise.runFrom before).2

namespace Alike

variable {part likewise : Collector α} {next goesOn : α → Collector β}

protected theorem pure (result : α) : Alike (pure result : Collector α) (pure result) :=
  fun _ => ⟨.ok result, rfl⟩

protected theorem bind (first : Alike part likewise)
    (following : ∀ result, Alike (next result) (goesOn result)) :
    Alike (part >>= next) (likewise >>= goesOn) := by
  intro before
  obtain ⟨agree, same⟩ := first before
  rw [runFrom_bind, runFrom_bind]
  rcases ran : part.runFrom before with ⟨outcome, after⟩
  rcases likewiseRan : likewise.runFrom before with ⟨otherOutcome, otherAfter⟩
  rw [ran, likewiseRan] at agree same
  cases (same : after = otherAfter)
  cases agree with
  | ok result => exact following result after
  | failed one other => exact ⟨.failed one other, rfl⟩

protected theorem get : Alike (get : Collector Collected) get :=
  fun before => ⟨.ok before, rfl⟩

protected theorem modify (change : Collected → Collected) :
    Alike (modify change : Collector PUnit) (modify change) :=
  fun _ => ⟨.ok PUnit.unit, rfl⟩

theorem of_outcome {one other : Except CoercionStop α} (agree : Agrees one other) :
    Alike (ExceptT.mk (pure one) : Collector α) (ExceptT.mk (pure other)) :=
  fun _ => ⟨agree, rfl⟩

end Alike

end Collector

namespace CollectionContext

variable {context : CollectionContext} {expand likewise : List Selection → Collector Unit}

theorem alike_collectSpread (alike : ∀ selections, (expand selections).Alike (likewise selections))
    (name : String) :
    (context.collectSpread expand name).Alike (context.unsettled.collectSpread likewise name) := by
  have fragments : context.unsettled.fragments = context.fragments := rfl
  have covers : ∀ condition, context.unsettled.covers condition = context.covers condition :=
    fun _ => rfl
  unfold CollectionContext.collectSpread
  refine Collector.Alike.get.bind fun collected => ?_
  split
  · exact .pure ()
  · refine (Collector.Alike.modify _).bind fun _ => ?_
    rw [fragments]
    cases Entries.get? context.fragments name with
    | none => exact .modify _
    | some fragment =>
      dsimp only
      rw [covers]
      split
      · exact alike _
      · exact .pure ()

namespace Conditional

mutual

theorem collectOne (conditional : context.Conditional)
    (alike : ∀ selections, (expand selections).Alike (likewise selections))
    (selection : Selection) :
    (context.collectOne expand selection).Alike
      (context.unsettled.collectOne likewise selection) := by
  cases selection with
  | field name otherKey arguments directives location inner =>
    unfold CollectionContext.collectOne
    refine (Collector.Alike.of_outcome (conditional.includes directives)).bind fun included => ?_
    split
    · exact .modify _
    · exact .pure ()
  | inline condition directives inner =>
    unfold CollectionContext.collectOne
    have covers : context.unsettled.covers condition = context.covers condition := rfl
    refine (Collector.Alike.of_outcome (conditional.includes directives)).bind fun included => ?_
    rw [covers]
    split
    · split
      · exact conditional.collectEach alike inner
      · exact .pure ()
    · exact .pure ()
  | spread name directives =>
    unfold CollectionContext.collectOne
    refine (Collector.Alike.of_outcome (conditional.includes directives)).bind fun included => ?_
    split
    · exact alike_collectSpread alike name
    · exact .pure ()

theorem collectEach (conditional : context.Conditional)
    (alike : ∀ selections, (expand selections).Alike (likewise selections))
    (selections : List Selection) :
    (context.collectEach expand selections).Alike
      (context.unsettled.collectEach likewise selections) := by
  cases selections with
  | nil => exact .pure ()
  | cons selection rest =>
    unfold CollectionContext.collectEach
    exact (conditional.collectOne alike selection).bind fun _ =>
      conditional.collectEach alike rest

end

variable (conditional : context.Conditional)

include conditional

theorem collectWithin (budget : Nat) (selections : List Selection) :
    (context.collectWithin budget selections).Alike
      (context.unsettled.collectWithin budget selections) := by
  induction budget generalizing selections with
  | zero => exact conditional.collectEach (fun _ => .pure ()) selections
  | succ budget ih => exact conditional.collectEach ih selections

/-- Some selections are collected alike, or cannot be collected either way. -/
theorem collectAll (selections : List (List Selection)) :
    Agrees (context.collectAll selections).1 (context.unsettled.collectAll selections).1 ∧
      (context.collectAll selections).2 = (context.unsettled.collectAll selections).2 := by
  have alike : (selections.forM context.collect).Alike
      (selections.forM context.unsettled.collect) := by
    induction selections with
    | nil => exact .pure ()
    | cons first rest ih => exact (conditional.collectWithin _ first).bind fun _ => ih
  exact alike {}

end Conditional

end CollectionContext

namespace Environment

variable (env : Environment σ)

/-- The groups of fields that some selections ask for on an object type, in the order in which their
keys occur first. -/
def groups? (object : ObjectType) (selections : List (List Selection)) :
    Option (List FieldGroup) :=
  let context : CollectionContext :=
    { registry := env.registry
      convert := env.behaviour.convert
      variableValues := env.request.variableValues
      fragments := env.request.fragments
      object := object }
  match context.collectAll selections with
  | (.ok (), collected) => some collected.groups
  | (.error _, _) => none

variable {env} {object : ObjectType} {selections : List (List Selection)}

theorem conditional_collection (accepted : env.registry.Accepted) (world : World σ)
    (object : ObjectType) : (env.collection world object).Conditional where
  coerced :=
    { known := accepted.type?_scalar .boolean
      blind := world.bool?_settleValue }
  skipped := accepted.directive?_of_specified rfl
  included := accepted.directive?_of_specified rfl

/-- What is collected for an object does not depend on what has become of error objects. -/
theorem Collects.groups? {groups : List FieldGroup}
    (collected : env.Collects object selections groups) (accepted : env.registry.Accepted) :
    env.groups? object selections = some groups := by
  obtain ⟨world, complete, rfl⟩ := collected
  obtain ⟨agree, same⟩ :=
    ((conditional_collection accepted world object).collectAll selections)
  have unsettled := (agree.ok_iff ()).mp complete
  rw [same]
  rcases collecting : (env.collection world object).unsettled.collectAll selections with
    ⟨outcome, gathered⟩
  rw [collecting] at unsettled
  cases (unsettled : outcome = .ok ())
  have plainly : env.groups? object selections =
      match (env.collection world object).unsettled.collectAll selections with
      | (.ok (), collected) => some collected.groups
      | (.error _, _) => none := rfl
  rw [plainly, collecting]

/-- The groups that some selections ask for are collected whatever has become of error objects. -/
theorem exists_collectAll_of_groups? {groups : List FieldGroup}
    (found : env.groups? object selections = some groups) (accepted : env.registry.Accepted)
    (world : World σ) :
    ∃ collected, (env.collection world object).collectAll selections = (.ok (), collected) ∧
      collected.groups = groups := by
  obtain ⟨agree, same⟩ := (conditional_collection accepted world object).collectAll selections
  have plainly : env.groups? object selections =
      match (env.collection world object).unsettled.collectAll selections with
      | (.ok (), collected) => some collected.groups
      | (.error _, _) => none := rfl
  rw [plainly] at found
  rcases collecting : (env.collection world object).unsettled.collectAll selections with
    ⟨stop | _, collected⟩
  · rw [collecting] at found
    cases found
  · rw [collecting] at found agree same
    exact ⟨collected, Prod.ext ((agree.ok_iff ()).mpr rfl) same, Option.some.inj found⟩

/-- Collecting only fails where the condition of a selection is refused. -/
theorem exists_failed_of_collectAll (accepted : env.registry.Accepted) {world : World σ}
    {stop : CoercionStop}
    (stopped : ((env.collection world object).collectAll selections).1 = .error stop) :
    ∃ failure, stop = .failed failure := by
  have agree := ((conditional_collection accepted world object).collectAll selections).1
  rw [stopped] at agree
  exact agree.failed_of_error

end Environment

end GraphQL
