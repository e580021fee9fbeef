import GraphQL.Proofs.Coercion
import GraphQL.Proofs.Collection
import GraphQL.Proofs.Gathering
import GraphQL.Proofs.Interfaces

/-!
# Coercion meets input types only

The branches of coercion for a name that is not registered and for a type that is no input type are
there to be on the safe side. In an accepted registry every declared argument and input field is of
an input type, and coercion only goes on to such types: to the item of a list and to the fields of
an input object. So none of these branches is ever taken, neither for the arguments of a field nor
for those of a directive.
-/

namespace GraphQL

variable {α β : Type}

/-- Whether a value does not fit because its type is no input type. -/
def CoercionCause.isMistyped : CoercionCause → Bool
  | notAnInputType _ => true
  | _ => false

/-- What stops a coercion is neither a missing type nor one that is no input type. -/
def CoercionStop.IsTyped : CoercionStop → Prop
  | unknownType _ => False
  | failed failure => ∀ leaf ∈ failure.leaves, leaf.cause.isMistyped = false
  | _ => True

namespace Coercion

/-- A coercion comes neither to a missing type nor to one that is no input type. -/
def Typed (part : Coercion α) : Prop :=
  ∀ stop, part.outcome = .error stop → stop.IsTyped

namespace Typed

/-- A part that ends well is typed. -/
theorem of_ok {part : Coercion α} {value : α} (ended : part.outcome = .ok value) : Typed part := by
  intro stop stopped
  rw [ended] at stopped
  cases stopped

protected theorem pure (value : α) : Typed (pure value) :=
  of_ok rfl

theorem of_stop {why : CoercionStop} (typed : why.IsTyped) : Typed (.stop why : Coercion α) := by
  rintro _ ⟨⟩
  exact typed

theorem fail {cause : CoercionCause} (typed : cause.isMistyped = false) (path : Path) :
    Typed (.fail cause path : Coercion α) := by
  refine of_stop fun leaf among => ?_
  cases List.mem_singleton.mp among
  exact typed

protected theorem bind {part : Coercion α} {next : α → Coercion β} (first : Typed part)
    (following : ∀ value, Typed (next value)) : Typed (part >>= next) := by
  intro why stopped
  rw [outcome_bind] at stopped
  cases ran : part.outcome with
  | ok value =>
    rw [ran] at stopped
    exact following value why stopped
  | error other =>
    rw [ran] at stopped
    cases stopped
    exact first _ ran

protected theorem map {part : Coercion α} (change : α → β) (typed : Typed part) :
    Typed (change <$> part) :=
  typed.bind fun value => .pure (change value)

/-- Parts that are attempted in turn are typed, and so are the leaves of those that fail. -/
theorem attemptAll {parts : List (Coercion α)} (each : ∀ part ∈ parts, Typed part) :
    Typed (Coercion.attemptAll parts) ∧ ∀ values leaves,
      (Coercion.attemptAll parts).outcome = .ok (values, leaves) →
        ∀ leaf ∈ leaves, leaf.cause.isMistyped = false := by
  induction parts with
  | nil =>
    refine ⟨.pure _, ?_⟩
    rintro _ _ ⟨⟩ leaf among
    cases among
  | cons part rest ih =>
    obtain ⟨others, restLeaves⟩ := ih fun other member => each other (List.mem_cons_of_mem _ member)
    have noted : Typed (⟨.ok (), part.ignored⟩ : Coercion Unit) := of_ok rfl
    rw [Coercion.attemptAll]
    split
    · refine ⟨(noted.bind fun _ => others).bind fun _ => .pure _, fun values leaves ended => ?_⟩
      obtain ⟨⟨found, gathered⟩, attempted, joined⟩ := exists_of_outcome_bind ended
      obtain ⟨_, _, attempted⟩ := exists_of_outcome_bind attempted
      cases joined
      exact restLeaves _ _ attempted
    · next failure failed =>
      refine ⟨(noted.bind fun _ => others).bind fun _ => .pure _, fun values leaves ended => ?_⟩
      obtain ⟨⟨found, gathered⟩, attempted, joined⟩ := exists_of_outcome_bind ended
      obtain ⟨_, _, attempted⟩ := exists_of_outcome_bind attempted
      cases joined
      intro leaf among
      rcases List.mem_append.mp among with own | later
      · exact each part List.mem_cons_self _ failed leaf own
      · exact restLeaves _ _ attempted leaf later
    · next why _ stopped =>
      constructor
      · rintro _ ⟨⟩
        exact each part List.mem_cons_self _ stopped
      · intro values leaves ended
        cases ended

/-- Parts that are gathered are typed. -/
theorem gather {parts : List (Coercion α)} (each : ∀ part ∈ parts, Typed part) (path : Path) :
    Typed (Coercion.gather path parts) := by
  obtain ⟨attempted, typedLeaves⟩ := attemptAll each
  intro why stopped
  rw [gather_eq, outcome_bind] at stopped
  cases ran : (Coercion.attemptAll parts).outcome with
  | error other =>
    rw [ran] at stopped
    cases stopped
    exact attempted _ ran
  | ok gathered =>
    obtain ⟨values, leaves⟩ := gathered
    rw [ran] at stopped
    cases leaves with
    | nil => cases stopped
    | cons first others =>
      cases stopped
      exact typedLeaves values _ ran

end Typed

end Coercion

namespace Registry

/-- A reference leads to an input type. -/
abbrev TakesInput (registry : Registry) (ref : TypeRef) : Prop :=
  ref.LeadsTo registry.type? TypeDefinition.isInput

/-- A reference leads to an output type. -/
abbrev GivesOutput (registry : Registry) (ref : TypeRef) : Prop :=
  ref.LeadsTo registry.type? TypeDefinition.isOutput

namespace Accepted

variable {registry : Registry} (accepted : registry.Accepted)

include accepted

theorem wellFormed {type : TypeDefinition} (member : type ∈ registry.types) :
    type.WellFormed registry.type? :=
  (Validation.problems_eq_nil_iff.mp accepted.valid).1 type member

/-- The fields of an input object are of input types. -/
theorem takesInput_inputField {name : String} {type : InputType}
    (found : registry.type? name = some (.input type)) {field : Argument}
    (among : field ∈ type.fields) : registry.TakesInput field.type :=
  accepted.wellFormed (mem_of_type? found) field among

/-- The arguments of a directive are of input types. -/
theorem takesInput_directive {directive : Directive} (member : directive ∈ registry.directives)
    {arg : Argument} (takes : arg ∈ directive.args) : registry.TakesInput arg.type :=
  (Validation.problems_eq_nil_iff.mp accepted.valid).2 directive member arg takes

/-- A field that is declared by a registered type, or one of those that introspect a schema, is of
an output type, and its arguments are of input types. -/
theorem outlets_of_mem {parent : TypeDefinition} (member : parent ∈ registry.types) {field : Field}
    (among : field ∈ parent.outputFields ∨ field ∈ [Introspection.typenameField,
      Introspection.schemaField, Introspection.typeField]) :
    registry.GivesOutput field.type ∧ ∀ arg ∈ field.args, registry.TakesInput arg.type := by
  have text : registry.type? "String" = some (.scalar BuiltinScalar.string.type) :=
    accepted.type?_scalar .string
  rcases among with among | fixed
  · have wellFormed := accepted.wellFormed member
    cases parent with
    | object type | interface type =>
      exact ⟨wellFormed.output field among, wellFormed.input field among⟩
    | scalar _ | enum _ | union _ | input _ | custom _ _ => cases among
  · simp only [List.mem_cons, List.not_mem_nil, or_false] at fixed
    rcases fixed with rfl | rfl | rfl
    · exact ⟨⟨_, text, rfl⟩, List.forall_mem_nil _⟩
    · exact ⟨⟨_, accepted.type?_of_builtin rfl, rfl⟩, List.forall_mem_nil _⟩
    · refine ⟨⟨_, accepted.type?_of_builtin rfl, rfl⟩, fun arg only => ?_⟩
      cases List.mem_singleton.mp only
      exact ⟨_, text, rfl⟩

end Accepted

/-- A reference that coercion may come to from another one: that one itself, the item of a list and
the fields of an input object. -/
inductive Inside (registry : Registry) (outer : TypeRef) : TypeRef → Prop where
  | itself : Inside registry outer outer
  | item {item : TypeRef} {nonNull : Bool} :
      Inside registry outer (.list item nonNull) → Inside registry outer item
  | field {name : String} {nonNull : Bool} {type : InputType} {field : Argument} :
      Inside registry outer (.named name nonNull) → registry.type? name = some (.input type) →
      field ∈ type.fields → Inside registry outer field.type

/-- Inside an input type stand input types only. -/
theorem Inside.takesInput {registry : Registry} (accepted : registry.Accepted)
    {outer ref : TypeRef} (inside : registry.Inside outer ref)
    (leads : registry.TakesInput outer) : registry.TakesInput ref := by
  induction inside with
  | itself => exact leads
  | item _ ih => exact ih
  | field _ found among _ => exact accepted.takesInput_inputField found among

end Registry

namespace CoercionContext

open Coercion (Typed)

variable {context : CoercionContext} {recur : TypeRef → Value → Path → Coercion Value}

theorem typed_absent {arg : Argument} {path : Path} {missing : Coercion (Option (String × Value))}
    (parts : ∀ raw path, Typed (recur arg.type raw path)) (missed : Typed missing) :
    Typed (absent recur arg path missing) := by
  unfold absent
  split
  · exact .map _ (parts _ _)
  · split
    · exact missed
    · exact .pure none

theorem typed_member {arg : Argument} {path : Path} {missing : Coercion (Option (String × Value))}
    (parts : ∀ raw path, Typed (recur arg.type raw path)) (missed : Typed missing) (raw : Value) :
    Typed (member recur arg raw path missing) := by
  have absence : Typed (absent recur arg path missing) := typed_absent parts missed
  unfold member
  split
  · exact absence
  · refine (parts _ _).bind fun value => ?_
    split
    · exact absence
    · exact .pure _

theorem typed_parseScalar (type : ScalarType) (raw : Value) (path : Path) :
    Typed (context.parseScalar type raw path) := by
  unfold parseScalar
  split
  · exact .pure _
  · split
    · exact .of_stop trivial
    · exact .fail rfl path

theorem typed_parseSymbol (type : EnumType) (raw : Value) (path : Path) :
    Typed (parseSymbol type raw path) := by
  unfold parseSymbol
  split
  · exact .pure _
  · exact .fail rfl path

theorem typed_unknownPart (type : InputType) (path : Path) (key : String) :
    Typed (context.unknownPart type path key) := by
  unfold unknownPart
  split
  · exact .fail rfl path
  · have noted : Typed (Coercion.ignore ⟨key, type.name⟩) := .of_ok rfl
    exact noted.bind fun _ => .pure none

/-- An input object is typed if its fields are. -/
theorem typed_parseObject {type : InputType}
    (parts : ∀ field ∈ type.fields, ∀ raw path, Typed (recur field.type raw path)) (raw : Value)
    (path : Path) : Typed (context.parseObject recur type raw path) := by
  unfold parseObject
  split
  · refine (Typed.gather (fun part given => ?_) path).bind fun _ => .pure _
    rcases List.mem_append.mp given with declared | other
    · obtain ⟨field, among, rfl⟩ := List.mem_map.mp declared
      exact typed_member (parts field among) (.fail rfl path) _
    · obtain ⟨key, _, rfl⟩ := List.mem_map.mp other
      exact typed_unknownPart type path key
  · exact .fail rfl path

/-- A raw value is typed under the name of an input type. -/
theorem typed_parseNamed {name : String} {type : TypeDefinition}
    (found : context.registry.type? name = some type) (isInput : type.isInput = true)
    (parts : ∀ input, type = .input input → ∀ field ∈ input.fields, ∀ raw path,
      Typed (recur field.type raw path)) (raw : Value) (path : Path) :
    Typed (context.parseNamed recur name raw path) := by
  unfold parseNamed
  dsimp only
  rw [found]
  cases type with
  | scalar type => exact typed_parseScalar type _ path
  | enum type => exact typed_parseSymbol type _ path
  | input type => exact typed_parseObject (parts type rfl) _ path
  | object _ | interface _ | union _ | custom _ _ => cases isInput

theorem typed_coerceNullable {ref : TypeRef}
    (list : ∀ item nonNull, ref = .list item nonNull → ∀ raw path, Typed (recur item raw path))
    (named : ∀ name nonNull, ref = .named name nonNull →
      ∀ raw path, Typed (context.parseNamed recur name raw path)) (raw : Value) (path : Path) :
    Typed (context.coerceNullable recur ref raw path) := by
  unfold coerceNullable
  split
  · exact .pure _
  · split
    · exact .pure _
    · refine .map _ (Typed.gather (fun part given => ?_) path)
      obtain ⟨index, inside, rfl⟩ := List.mem_mapIdx.mp given
      exact .map _ (list _ _ rfl _ _)
    · exact named _ _ rfl _ path

theorem typed_coerceWith {ref : TypeRef} {path : Path}
    (nullable : ∀ raw, Typed (context.coerceNullable recur ref raw path)) (raw : Value) :
    Typed (context.coerceWith recur ref raw path) := by
  have required : ∀ shown, Typed (coerceWith.required context recur ref path shown) := by
    intro shown
    unfold coerceWith.required
    split
    · exact .fail rfl path
    · exact nullable shown
  unfold coerceWith
  split
  · split
    · split
      · refine .of_stop fun leaf among => ?_
        cases List.mem_singleton.mp among
        rfl
      · exact required _
    · exact required _
  · exact nullable raw

/-- A coercion to an input type comes to no other types, however deep it goes. -/
theorem typed_coerce (accepted : context.registry.Accepted) (depth : Nat) {ref : TypeRef}
    (leads : context.registry.TakesInput ref) (raw : Value) (path : Path) :
    Typed (context.coerce depth ref raw path) := by
  induction depth generalizing ref raw path with
  | zero => exact .of_stop trivial
  | succ depth ih =>
    refine typed_coerceWith (fun shown => typed_coerceNullable ?_ ?_ shown path) raw
    · rintro item nonNull rfl
      have inner : context.registry.TakesInput item := leads
      exact ih inner
    · rintro name nonNull rfl
      obtain ⟨type, found, isInput⟩ := leads
      refine typed_parseNamed found isInput ?_
      rintro input rfl field among
      exact ih (accepted.takesInput_inputField found among)

/-- Arguments of input types are coerced without coming to other types. -/
theorem typed_coerceArguments (accepted : context.registry.Accepted) {args : List Argument}
    (leads : ∀ arg ∈ args, context.registry.TakesInput arg.type) (depth : Nat)
    (literals : Entries Value) : Typed (context.coerceArguments depth args literals) := by
  unfold coerceArguments
  refine (Typed.gather (fun part given => ?_) []).bind fun _ => .pure _
  obtain ⟨arg, among, rfl⟩ := List.mem_map.mp given
  have supplied : ∀ raw, Typed (member (context.coerce depth) arg raw [.key arg.name]
      (argumentPart.missing arg [.key arg.name])) :=
    typed_member (typed_coerce accepted depth (leads arg among)) (.fail rfl _)
  unfold argumentPart
  dsimp only
  split
  · exact supplied _
  · split
    · split
      · split
        · refine .of_stop fun leaf only => ?_
          cases List.mem_singleton.mp only
          rfl
        · exact supplied _
      · exact supplied _
    · exact supplied _

end CoercionContext

/-! ## Conditions of selections -/

namespace Collector

/-- What stops a step of collecting is neither a missing type nor one that is no input type. -/
def Typed (part : Collector α) : Prop :=
  ∀ before stop, (part.runFrom before).1 = .error stop → stop.IsTyped

namespace Typed

variable {part : Collector α} {next : α → Collector β}

/-- A step that always ends well is typed. -/
theorem of_ok (ends : ∀ before, ∃ result, (part.runFrom before).1 = .ok result) : Typed part := by
  intro before stop stopped
  obtain ⟨result, ended⟩ := ends before
  rw [ended] at stopped
  cases stopped

protected theorem pure (result : α) : Typed (pure result : Collector α) :=
  of_ok fun _ => ⟨result, rfl⟩

protected theorem bind (first : Typed part) (goesOn : ∀ result, Typed (next result)) :
    Typed (part >>= next) := by
  intro before stop stopped
  rw [runFrom_bind] at stopped
  rcases ran : part.runFrom before with ⟨why | result, after⟩
  · rw [ran] at stopped
    cases stopped
    exact first before _ (congrArg Prod.fst ran)
  · rw [ran] at stopped
    exact goesOn result after stop stopped

protected theorem get : Typed (get : Collector Collected) :=
  of_ok fun before => ⟨before, rfl⟩

protected theorem modify (change : Collected → Collected) :
    Typed (modify change : Collector PUnit) :=
  of_ok fun _ => ⟨⟨⟩, rfl⟩

theorem of_outcome {outcome : Except CoercionStop α}
    (typed : ∀ stop, outcome = .error stop → stop.IsTyped) :
    Typed (ExceptT.mk (pure outcome) : Collector α) :=
  fun _ => typed

end Typed

end Collector

namespace CollectionContext

open Collector (Typed)

variable {context : CollectionContext} {expand : List Selection → Collector Unit}

theorem typed_includes (accepted : context.registry.Accepted) (uses : List DirectiveUse)
    {stop : CoercionStop} (stopped : context.includes uses = .error stop) : stop.IsTyped := by
  induction uses with
  | nil => cases stopped
  | cons use rest ih =>
    have admitted : ∀ why, context.admits use = .error why → why.IsTyped := by
      intro why refused
      unfold admits at refused
      split at refused
      · cases refused
      · split at refused
        · cases refused
        · next directive found =>
          have leads : ∀ arg ∈ directive.args, context.registry.TakesInput arg.type :=
            fun _ => accepted.takesInput_directive (List.mem_of_find?_eq_some found)
          split at refused
          · next ended =>
            cases refused
            have typed : Coercion.Typed (context.coercion.coerceArguments defaultCoercionDepth
                directive.args use.arguments) :=
              CoercionContext.typed_coerceArguments accepted leads _ _
            exact typed _ ended
          · cases refused
    unfold includes at stopped
    split at stopped
    · next refused =>
      cases stopped
      exact admitted _ refused
    · cases stopped
    · exact ih stopped

theorem typed_ifIncluded (accepted : context.registry.Accepted) (uses : List DirectiveUse)
    {part : Bool → Collector Unit} (goesOn : ∀ takesPart, Typed (part takesPart)) :
    Typed (ExceptT.mk (pure (context.includes uses)) >>= part) :=
  Collector.Typed.bind (.of_outcome fun _ => typed_includes accepted uses) goesOn

theorem typed_collectSpread (expands : ∀ selections, Typed (expand selections)) (name : String) :
    Typed (context.collectSpread expand name) := by
  unfold collectSpread
  refine Collector.Typed.get.bind fun collected => ?_
  split
  · exact .pure _
  · refine (Collector.Typed.modify _).bind fun _ => ?_
    split
    · exact .modify _
    · split
      · exact expands _
      · exact .pure _

mutual

/-- What stops the reading of a selection is typed, if reading fragments is. -/
theorem typed_collectOne (accepted : context.registry.Accepted)
    (expands : ∀ selections, Typed (expand selections)) (selection : Selection) :
    Typed (context.collectOne expand selection) := by
  cases selection with
  | field name otherKey arguments directives location inner =>
    unfold collectOne
    refine typed_ifIncluded accepted directives fun takesPart => ?_
    split
    · exact .modify _
    · exact .pure _
  | inline condition directives inner =>
    unfold collectOne
    refine typed_ifIncluded accepted directives fun takesPart => ?_
    split
    · split
      · exact typed_collectEach accepted expands inner
      · exact .pure _
    · exact .pure _
  | spread name directives =>
    unfold collectOne
    refine typed_ifIncluded accepted directives fun takesPart => ?_
    split
    · exact typed_collectSpread expands name
    · exact .pure _

/-- What stops the reading of selections in order is typed, if reading fragments is. -/
theorem typed_collectEach (accepted : context.registry.Accepted)
    (expands : ∀ selections, Typed (expand selections)) (selections : List Selection) :
    Typed (context.collectEach expand selections) := by
  cases selections with
  | nil => exact .pure _
  | cons selection rest =>
    unfold collectEach
    exact (typed_collectOne accepted expands selection).bind fun _ =>
      typed_collectEach accepted expands rest

end

theorem typed_collectWithin (accepted : context.registry.Accepted) (budget : Nat)
    (selections : List Selection) : Typed (context.collectWithin budget selections) := by
  induction budget generalizing selections with
  | zero => exact typed_collectEach accepted (fun _ => .pure _) selections
  | succ budget ih => exact typed_collectEach accepted ih selections

/-- Collecting the fields of an object comes neither to a missing type nor to one that is no input
type: it coerces the arguments of directives. -/
theorem typed_collectAll (accepted : context.registry.Accepted)
    (selections : List (List Selection)) {stop : CoercionStop}
    (stopped : (context.collectAll selections).1 = .error stop) : stop.IsTyped := by
  have each : ∀ chosen : List (List Selection), Typed (chosen.forM context.collect) := by
    intro chosen
    induction chosen with
    | nil => exact .pure _
    | cons first rest ih =>
      exact Collector.Typed.bind (typed_collectWithin accepted _ first) fun _ => ih
  exact each selections {} stop stopped

end CollectionContext

end GraphQL
