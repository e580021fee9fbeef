import GraphQL.Proofs.Execution
import GraphQL.Proofs.InputKinds
import GraphQL.Proofs.Outcomes

/-!
# Lookups succeed

The registry, coercion and execution have branches for names that nobody registered and for types
that do not fit their place. Building a registry checks every reference once, so an accepted
registry leads to none of these branches: each lookup of a declared name finds a definition, and one
of the kind that its place asks for.
-/

namespace GraphQL

/-- The reference inside a wrapped reference: without the exclusion of null, or else without the
list. -/
def TypeRef.inner? : TypeRef → Option TypeRef
  | .named name true => some (.named name)
  | .named _ false => none
  | .list item true => some (.list item)
  | .list item false => some item

theorem TypeRef.name_of_inner? {ref inner : TypeRef} (wrapped : ref.inner? = some inner) :
    inner.name = ref.name := by
  cases ref with
  | named name nonNull =>
    cases nonNull with
    | true =>
      cases wrapped
      rfl
    | false => cases wrapped
  | list item nonNull =>
    cases nonNull with
    | true | false =>
      cases wrapped
      rfl

/-- What introspection finds inside a reference is the inner reference. -/
theorem Introspector.innerOf_toValue (ref : TypeRef) :
    innerOf ref.toValue = (ref.inner?.map TypeRef.toValue).getD .null := by
  cases ref with
  | named name nonNull | list item nonNull =>
    cases nonNull with
    | true | false => rfl

namespace Registry

/-- The arguments that a registered field, one of the fields that introspect a schema, or a
registered directive declares. -/
inductive DeclaresArguments (registry : Registry) : List Argument → Prop where
  | field {type : TypeDefinition} {field : Field} :
      type ∈ registry.types → field ∈ type.outputFields → DeclaresArguments registry field.args
  | introspection {field : Field} :
      field ∈ [Introspection.typenameField, Introspection.schemaField, Introspection.typeField] →
      DeclaresArguments registry field.args
  | directive {directive : Directive} :
      directive ∈ registry.directives → DeclaresArguments registry directive.args

/-- Every name by which a registry looks something up leads to a definition, of the kind that its
place asks for. -/
structure Complete (registry : Registry) : Prop where
  /-- A reference of a definition leads to a definition. -/
  references : ∀ type ∈ registry.types, ∀ reference ∈ type.references,
    (registry.type? reference.target).isSome = true
  roots : ∀ kind name, registry.root? kind = some name →
    ∃ object, registry.type? name = some (.object object)
  interfaces : ∀ type ∈ registry.types, ∀ ref ∈ type.interfaces, ∃ interface,
    registry.type? interface.name = some (.interface interface) ∧ ref = .named interface.name
  members : ∀ union, .union union ∈ registry.types → ∀ ref ∈ union.members, ∃ object,
    registry.type? object.name = some (.object object) ∧ ref = .named object.name
  /-- None of the possible types of an abstract type is missing. -/
  possible : ∀ name, (registry.possibleTypes name).map ObjectType.name = registry.possibleNames name
  /-- Introspection finds the kind of each reference to a definition. -/
  kinds : ∀ ref : TypeRef, (registry.type? ref.name).isSome = true →
    ∃ kind, Introspector.kindOf registry ref.toValue = .ok kind

namespace Accepted

variable {registry : Registry} {name : String} (accepted : registry.Accepted)

include accepted

/-- The root types are object types. -/
theorem root_isObject {kind : OperationKind} (rooted : registry.root? kind = some name) :
    ∃ object, registry.type? name = some (.object object) := by
  obtain ⟨schema, built⟩ := accepted
  have builds := Schema.builds_of_build built
  have listed : registry.root? kind = (schema.rootNames.find? (·.1 == kind)).map (·.2) →
      ∃ object, registry.type? name = some (.object object) := by
    intro same
    obtain ⟨entry, first, rfl⟩ := Option.map_eq_some_iff.mp (same.symm.trans rooted)
    obtain ⟨⟨other, ref⟩, inside, named⟩ :=
      List.mem_filterMap.mp (List.mem_of_find?_eq_some first)
    obtain ⟨own, object, plain, typed⟩ := builds.root_isObject inside
    dsimp only at named plain
    rw [plain] at named
    cases named
    exact ⟨object, typed⟩
  cases kind with
  | query =>
    cases rooted
    exact builds.query_isObject
  | mutation => exact listed builds.mutation
  | subscription => exact listed builds.subscription

/-- The members of a union are object types, given by nothing but their names. -/
theorem named_of_member {union : UnionType} (member : .union union ∈ registry.types)
    {ref : TypeRef} (among : ref ∈ union.members) : ∃ object,
      registry.type? object.name = some (.object object) ∧ ref = .named object.name := by
  obtain ⟨object, found⟩ := accepted.member_of_union (accepted.type?_of_mem member) among
  have same : object.name = ref.name := name_of_type? found
  refine ⟨object, type?_self found, ?_⟩
  have plain : Validation.nameObstacles ref = [] :=
    List.flatMap_eq_nil_iff.mp (accepted.obstacleless member) ref among
  unfold Validation.nameObstacles at plain
  split at plain
  · cases plain
  · next named =>
    cases ref with
    | named own nonNull =>
      cases nonNull with
      | true => exact absurd rfl named
      | false => rw [same]; rfl
    | list item nonNull => exact absurd rfl named

/-- The possible types of an abstract type are registered object types. -/
theorem objectType?_of_possibleNames {possible : String}
    (member : possible ∈ registry.possibleNames name) :
    ∃ object, registry.objectType? possible = some object ∧ object.name = possible := by
  have known : ∀ object, registry.type? possible = some (.object object) →
      ∃ object, registry.objectType? possible = some object ∧ object.name = possible := by
    intro object found
    refine ⟨object, ?_, name_of_type? found⟩
    unfold objectType?
    rw [found]
  unfold possibleNames at member
  split at member
  · next union registered =>
    obtain ⟨ref, among, rfl⟩ := List.mem_map.mp member
    obtain ⟨object, found⟩ := accepted.member_of_union registered among
    exact known object found
  · obtain ⟨type, inside, listed⟩ := List.mem_flatMap.mp member
    cases type with
    | object type =>
      obtain ⟨_, _, rfl⟩ := List.mem_map.mp listed
      exact known type (accepted.type?_of_mem inside)
    | scalar _ | enum _ | interface _ | union _ | input _ | custom _ _ => cases listed
  · cases member

theorem map_name_possibleTypes (name : String) :
    (registry.possibleTypes name).map ObjectType.name = registry.possibleNames name := by
  have all : ∀ names : List String, (∀ possible ∈ names, ∃ object,
      registry.objectType? possible = some object ∧ object.name = possible) →
      (names.filterMap registry.objectType?).map ObjectType.name = names := by
    intro names
    induction names with
    | nil => exact fun _ => rfl
    | cons first rest ih =>
      intro found
      obtain ⟨⟨object, here, named⟩, later⟩ := List.forall_mem_cons.mp found
      rw [List.filterMap_cons_some here, List.map_cons, named, ih later]
  exact all _ fun _ => accepted.objectType?_of_possibleNames

/-- A registered definition is of a kind that introspection tells apart. -/
theorem kind?_isSome {type : TypeDefinition} (member : type ∈ registry.types) :
    type.kind?.isSome = true := by
  have wellFormed := accepted.wellFormed member
  cases type with
  | custom _ _ => exact wellFormed.elim
  | scalar _ | enum _ | object _ | interface _ | union _ | input _ => rfl

/-- Introspection finds the kind of a reference to a definition. -/
theorem exists_kindOf {ref : TypeRef} (known : (registry.type? ref.name).isSome = true) :
    ∃ kind, Introspector.kindOf registry ref.toValue = .ok kind := by
  have plain : ∀ name, (registry.type? name).isSome = true →
      ∃ kind, Introspector.kindOf registry (.str name) = .ok kind := by
    intro name known
    obtain ⟨type, found⟩ := Option.isSome_iff_exists.mp known
    obtain ⟨kind, isKind⟩ :=
      Option.isSome_iff_exists.mp (accepted.kind?_isSome (mem_of_type? found))
    have named : Introspector.definition? registry (.str name) = some type := found
    refine ⟨kind.toValue, ?_⟩
    unfold Introspector.kindOf
    rw [named]
    dsimp only [Option.bind]
    rw [isKind]
  cases ref with
  | named name nonNull =>
    cases nonNull with
    | true => exact ⟨_, rfl⟩
    | false => exact plain name known
  | list item nonNull => exact ⟨_, rfl⟩

/-- An accepted registry lacks nothing that it is asked for. -/
theorem complete : registry.Complete where
  references := fun _ member _ => accepted.closed member
  roots := fun _ _ => accepted.root_isObject
  interfaces := by
    intro type member ref listed
    obtain ⟨interface, found, named, _⟩ := accepted.implements member listed
    exact ⟨interface, found, named⟩
  members := fun _ member _ => accepted.named_of_member member
  possible := accepted.map_name_possibleTypes
  kinds := fun _ => accepted.exists_kindOf

/-- Declared arguments are of input types. -/
theorem takesInput_declared {args : List Argument} (declared : registry.DeclaresArguments args) :
    ∀ arg ∈ args, registry.TakesInput arg.type := by
  cases declared with
  | field member among => exact (accepted.outlets_of_mem member (Or.inl among)).2
  | introspection fixed =>
    obtain ⟨object, rooted⟩ := accepted.query_isObject
    exact (accepted.outlets_of_mem (mem_of_type? rooted) (Or.inr fixed)).2
  | directive member => exact fun _ => accepted.takesInput_directive member

end Accepted

end Registry

/-- Whether a position fails because a type does not fit its place. -/
def FailureCause.isMisplaced : FailureCause → Bool
  | notALeaf _ | notCompletable _ => true
  | coercion failure => failure.leaves.any (·.cause.isMistyped)
  | _ => false

/-- A coercion error that is typed is not of a type that does not fit its place. -/
theorem CoercionFailure.isMisplaced_of_isTyped {failure : CoercionFailure}
    (typed : (CoercionStop.failed failure).IsTyped) :
    (FailureCause.coercion failure).isMisplaced = false :=
  List.any_eq_false.mpr fun leaf among => by rw [typed leaf among]; exact Bool.false_ne_true

/-- A part of an execution, whatever executor it begins with, does not end because the registry
lacks a type, and records no error about a type that does not fit its place. -/
structure Exec.IsSafe {σ α : Type} (part : Exec σ α) : Prop where
  finds : ∀ before fault, (part.runFrom before).1 ≠ .error (.escaped .registry fault)
  fits : ∀ before, ∃ noted, (part.runFrom before).2.errors = before.errors ++ noted ∧
    ∀ error ∈ noted, error.cause.isMisplaced = false

namespace Environment

variable {σ : Type} {env : Environment σ} {root object : ObjectType} {level : Nat}

/-- The type of a field that an execution may come to is an output type, and its arguments are of
input types. -/
theorem Visits.outlets {group : FieldGroup} {field : Field} (accepted : env.registry.Accepted)
    (found : env.rootType? = some root) (visited : env.Visits root level object group field) :
    env.registry.GivesOutput field.type ∧
      ∀ arg ∈ field.args, env.registry.TakesInput arg.type := by
  obtain ⟨selections, groups, encountered, _, _⟩ := visited.reached
  exact accepted.outlets_of_mem (Registry.mem_of_type? (encountered.registered found))
    (Registry.mem_of_field? visited.found)

/-- Coercing the arguments of a field that an execution may come to is typed, in every world. -/
theorem Visits.typed {group : FieldGroup} {field : Field} (accepted : env.registry.Accepted)
    (found : env.rootType? = some root) (visited : env.Visits root level object group field)
    (world : World σ) : ((env.coercion world).coerceArguments defaultCoercionDepth field.args
      group.first.arguments).Typed :=
  CoercionContext.typed_coerceArguments accepted (visited.outlets accepted found).2 _ _

/-- Where the registry is accepted, no position fails because of a type that does not fit its
place. -/
theorem Warrants.isMisplaced (accepted : env.registry.Accepted)
    (found : env.rootType? = some root) {cause : FailureCause}
    (warranted : env.Warrants root cause) : cause.isMisplaced = false := by
  cases warranted with
  | ordinary ordinary =>
    cases cause with
    | unknownField _ _ | coercion _ | notALeaf _ | notCompletable _ => cases ordinary
    | _ => rfl
  | missing _ => rfl
  | @arguments _ _ _ _ world _ visited stopped =>
    exact CoercionFailure.isMisplaced_of_isTyped (visited.typed accepted found world _ stopped)
  | collection _ stopped =>
    exact CoercionFailure.isMisplaced_of_isTyped
      (CollectionContext.typed_collectAll accepted _ stopped)
  | @unexpected _ _ _ _ type visited registered concrete noScalar noEnum noObject =>
    obtain ⟨other, known, isOutput⟩ := (visited.outlets accepted found).1
    cases registered.symm.trans known
    have wellFormed := accepted.wellFormed (Registry.mem_of_type? known)
    cases type with
    | scalar type => exact absurd rfl (noScalar type)
    | enum type => exact absurd rfl (noEnum type)
    | object type => exact absurd rfl (noObject type)
    | interface _ | union _ => cases concrete
    | input _ => cases isOutput
    | custom _ _ => exact wellFormed.elim

/-- Where the registry is accepted, no part halts because a type is missing. -/
theorem MayHalt.finds {waits : Prop} (accepted : env.registry.Accepted)
    (found : env.rootType? = some root) {fault : Fault} :
    ¬ env.MayHalt root waits (.escaped .registry fault) := by
  rintro halts
  cases halts with
  | escaped mine _ _ => exact mine rfl
  | unregistered visited missing =>
    have known := (visited.closed accepted found).1
    rw [missing] at known
    cases known
  | @arguments _ _ _ _ world stop _ visited stopped ends =>
    have typed := visited.typed accepted found world _ stopped
    cases stop with
    | unknownType name => exact typed
    | failed _ | interrupted _ | tooDeep => cases ends
  | @collection _ _ _ _ stop _ _ stopped ends =>
    have typed := CollectionContext.typed_collectAll accepted _ stopped
    cases stop with
    | unknownType name => exact typed
    | failed _ | interrupted _ | tooDeep => cases ends

/-- A part that does what the rules say is safe. -/
theorem Meets.isSafe {α : Type} {path : Path} {part : Exec σ α}
    {yields : List FieldError → α → Prop} (accepted : env.registry.Accepted)
    (found : env.rootType? = some root) (met : env.Meets root True path part yields) :
    part.IsSafe where
  finds := by
    intro before fault ended
    obtain ⟨_, _, outcome⟩ := met before fun _ => trivial
    rw [ended] at outcome
    exact MayHalt.finds accepted found outcome
  fits := by
    intro before
    obtain ⟨noted, kept, _⟩ := met before fun _ => trivial
    exact ⟨noted, kept.errors, fun error member =>
      (kept.warranted error member).isMisplaced accepted found⟩

/-- A group of selections that an execution may come to is executed safely, with any parent. -/
theorem isSafe_executeGroup (accepted : env.registry.Accepted) (found : env.rootType? = some root)
    {group : FieldGroup} (reached : env.Reaches root level object group) (parent : Value)
    (path : Path) :
    (env.executeGroup (env.executeObject (env.request.depthBound - level)) object parent path
      group).IsSafe :=
  (executeGroup_meets (fun _ => trivial) (executeObject_executes (fun _ => trivial) (by omega))
    reached parent).isSafe accepted found

/-- An operation is executed safely. -/
theorem isSafe_execute (accepted : env.registry.Accepted) : env.execute.IsSafe := by
  cases found : env.rootType? with
  | none =>
    refine ⟨fun before fault => ?_, fun before => ⟨[], ?_, List.forall_mem_nil _⟩⟩
    · rw [runFrom_execute_of_none found]
      nofun
    · rw [runFrom_execute_of_none found, List.append_nil]
  | some root =>
    have nothing : ∀ before : Executor σ, before.world.Waits → True := fun _ _ => trivial
    refine ⟨fun before fault ended => ?_, fun before => ?_⟩
    · obtain ⟨_, _, outcome⟩ := execute_delivers found (fun _ => trivial) (nothing before)
      rw [ended] at outcome
      exact MayHalt.finds accepted found outcome
    · obtain ⟨noted, kept, _⟩ := execute_delivers found (fun _ => trivial) (nothing before)
      exact ⟨noted, kept.errors, fun error member =>
        (kept.warranted error member).isMisplaced accepted found⟩

end Environment

/-- **Lookups succeed.** An accepted registry has everything that it is asked for. Coercing declared
arguments comes to input types only, with whatever literals, variables and policy; and whatever an
operation selects, whatever user code does and whatever state the executor is in, no part of an
execution ends because a type is missing or fails because a type does not fit its place. -/
theorem Registry.Accepted.lookups_succeed {registry : Registry} (accepted : registry.Accepted) :
    registry.Complete ∧
      (∀ context : CoercionContext, context.registry = registry →
        ∀ args, registry.DeclaresArguments args →
          (∀ arg ∈ args, ∀ ref, registry.Inside arg.type ref → registry.TakesInput ref) ∧
            ∀ depth literals, (context.coerceArguments depth args literals).Typed) ∧
      ∀ (σ : Type) (env : Environment σ), env.registry = registry →
        env.execute.IsSafe ∧
          ∀ root level object group, env.rootType? = some root →
            env.Reaches root level object group → ∀ parent path,
              (env.executeGroup (env.executeObject (env.request.depthBound - level)) object parent
                path group).IsSafe := by
  refine ⟨accepted.complete, ?_, ?_⟩
  · rintro context rfl args declared
    have leads := accepted.takesInput_declared declared
    refine ⟨fun arg among ref inside => inside.takesInput accepted (leads arg among), ?_⟩
    exact CoercionContext.typed_coerceArguments accepted leads
  · rintro σ env rfl
    refine ⟨Environment.isSafe_execute accepted, fun root level object group found reached => ?_⟩
    exact Environment.isSafe_executeGroup accepted found reached

/-- A schema of a café: what is on offer is a drink or a cake, and it is searched with a filter that
may hold others. -/
def cafeSchema : Schema where
  query := some (.definition (.object {
    name := "Query"
    fields := [{
      name := "offer"
      type := .list (.named "Offer" true)
      args := [{ name := "filter", type := .named "Filter", default := .map [] }] }] }))
  types := [
    .definition (.interface {
      name := "Priced"
      fields := [{ name := "price", type := .named "Int" }] }),
    .definition (.object {
      name := "Drink"
      fields := [{ name := "price", type := .named "Int" }]
      interfaces := [.named "Priced"] }),
    .definition (.object {
      name := "Cake"
      fields := [{ name := "price", type := .named "Int" },
        { name := "served", type := .named "Serving" }]
      interfaces := [.named "Priced"] }),
    .definition (.union { name := "Offer", members := [.named "Cake", .named "Drink"] }),
    .definition (.enum {
      name := "Serving"
      values := [⟨"WARM", .int 1, none, none⟩, ⟨"COLD", .int 2, none, none⟩] }),
    .definition (.input {
      name := "Filter"
      fields := [{ name := "served", type := .named "Serving", default := .int 1 },
        { name := "either", type := .list (.named "Filter" true) }] })]

/-- The registry of that schema. -/
def cafeRegistry : Registry :=
  cafeSchema.tableWithin 100

theorem accepted_cafeRegistry : cafeRegistry.Accepted :=
  Schema.accepted_of_soundWithin (by decide +kernel)

/-- A query for what is served warm, where user code gives some value. -/
def tasting (code : UserCode Unit) : Environment Unit where
  registry := cafeRegistry
  behaviour := {
    resolve := fun _ _ _ _ => code
    hook := fun _ value => .ok value
    convert := fun _ value => .ok value }
  request := { operation := { selections := [
    .field "offer" none [("filter", .map [("served", .str "WARM")])] [] none [
      .inline (some "Priced") [] [.field "price" none [] [] none []],
      .inline (some "Cake") [] [.field "served" none [] [] none []]]] } }

/-- The types of a café are all there, and no tasting ends or fails for want of one. -/
theorem lookups_succeed_cafe :
    cafeRegistry.Accepted ∧
      (cafeRegistry.possibleTypes "Offer").map ObjectType.name = ["Cake", "Drink"] ∧
      ∀ code, (tasting code).execute.IsSafe := by
  obtain ⟨complete, _, executed⟩ := accepted_cafeRegistry.lookups_succeed
  have offered : cafeRegistry.possibleNames "Offer" = ["Cake", "Drink"] := by decide +kernel
  refine ⟨accepted_cafeRegistry, (complete.possible "Offer").trans offered, ?_⟩
  intro code
  exact (executed Unit (tasting code) rfl).1

end GraphQL
