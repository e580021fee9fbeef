import GraphQL.Proofs.Decisions
import GraphQL.Proofs.Lookups

/-!
# Possible types

The possible types of a union are its members, and those of an interface are the object types that
list it. They are gathered from what the definitions list, and nothing refuses a definition that
lists a type twice: a possible type is repeated as often as it is listed.
-/

namespace GraphQL

variable {registry : Registry} {name : String} {type : TypeDefinition}

/-- The object type that a definition defines. -/
def TypeDefinition.object? : TypeDefinition → Option ObjectType
  | object type => some type
  | _ => none

/-- The registered object types in order. -/
def Registry.objects (registry : Registry) : List ObjectType :=
  registry.types.filterMap TypeDefinition.object?

/-- Some object types are those of an abstract type without repetition: the members of a union as
declared, or the object types that list an interface in order of registration. -/
structure Registry.ArePossible (registry : Registry) (type : TypeDefinition)
    (objects : List ObjectType) : Prop where
  registered : ∀ object ∈ objects, registry.type? object.name = some (.object object)
  once : (objects.map ObjectType.name).Nodup
  members : ∀ union, type = .union union →
    objects.map (fun object => .named object.name) = union.members
  implementers : ∀ interface, type = .interface interface →
    objects = registry.objects.filter (·.interfaces.contains (.named interface.name))

/-- Nothing that makes an object type possible for an abstract type is listed twice: a union lists
each member once, and every object type lists an interface at most once. -/
def Registry.ListsOnce (registry : Registry) : TypeDefinition → Prop
  | .union union => union.members.Nodup
  | .interface interface =>
    ∀ object ∈ registry.objects, object.interfaces.count (.named interface.name) ≤ 1
  | _ => True

/-- The names of the candidates that are reported with a failure. -/
def AbstractCause.candidates? : AbstractCause → Option (List String)
  | .undecided candidates _ | .noneAccepts candidates _ => some candidates
  | _ => none

/-- Some object types are what an abstract type stands for: introspection shows them, and the object
type of a value is looked for among them. -/
structure Registry.StandsFor (registry : Registry) (type : TypeDefinition)
    (objects : List ObjectType) : Prop where
  shown : ∀ args, Introspector.possibleTypes.resolve registry (.str type.name) args =
    pure (.list (objects.map fun object => .str object.name))
  tried : ∀ answer value, AbstractType.hook? type = none →
    (∃ candidate ∈ objects, candidate.isTypeOf.isSome = true) →
    ∀ object, AbstractType.resolve registry answer type value = .ok object ↔
      AbstractType.IsFirstAccepting answer objects object value
  reported : ∀ answer value failure names,
    AbstractType.resolve registry answer type value = .error failure →
    failure.cause.candidates? = some names → names = objects.map ObjectType.name

/-! ## Repetition -/

/-- Members that are repeated at most once each are those that are repeated at all. -/
theorem flatMap_replicate_eq_filter {α : Type} {members : List α} {count : α → Nat}
    (once : ∀ member ∈ members, count member ≤ 1) :
    members.flatMap (fun member => List.replicate (count member) member) =
      members.filter (0 < count ·) := by
  induction members with
  | nil => rfl
  | cons first rest ih =>
    obtain ⟨here, later⟩ := List.forall_mem_cons.mp once
    rw [List.flatMap_cons, ih later]
    rcases Nat.le_one_iff_eq_zero_or_eq_one.mp here with never | one
    · rw [List.filter_cons_of_neg (by simp [never]), never]
      rfl
    · rw [List.filter_cons_of_pos (by simp [one]), one]
      rfl

/-- Where members are repeated without a repetition, each is repeated at most once. -/
theorem le_one_of_nodup_flatMap_replicate {α β : Type} {members : List α} {count : α → Nat}
    {title : α → β}
    (distinct : (members.flatMap fun member =>
      List.replicate (count member) (title member)).Nodup) :
    ∀ member ∈ members, count member ≤ 1 :=
  fun member inside => List.nodup_replicate.mp ((List.nodup_flatMap.mp distinct).1 member inside)

namespace Registry

/-- Registered object types are found again by their names. -/
theorem filterMap_objectType?_map_name {objects : List ObjectType}
    (registered : ∀ object ∈ objects, registry.type? object.name = some (.object object)) :
    (objects.map ObjectType.name).filterMap registry.objectType? = objects := by
  rw [List.filterMap_map]
  refine (List.filterMap_congr fun object inside => ?_).trans List.filterMap_some
  exact objectType?_of_type? (registered object inside)

theorem mem_objects {object : ObjectType} :
    object ∈ registry.objects ↔ .object object ∈ registry.types := by
  unfold objects
  rw [List.mem_filterMap]
  constructor
  · rintro ⟨type, inside, defines⟩
    cases type with
    | object type =>
      cases defines
      exact inside
    | scalar _ | enum _ | interface _ | union _ | input _ | custom _ _ => cases defines
  · exact fun inside => ⟨_, inside, rfl⟩

/-- The names of the possible types of an interface, by the object types that list it. -/
theorem possibleNames_interface {interface : InterfaceType}
    (registered : registry.type? name = some (.interface interface)) :
    registry.possibleNames name = registry.objects.flatMap fun object =>
      List.replicate (object.interfaces.count (.named name)) object.name := by
  unfold possibleNames objects
  rw [registered]
  induction registry.types with
  | nil => rfl
  | cons first rest ih =>
    dsimp only at ih ⊢
    rw [List.flatMap_cons, ih]
    cases first with
    | object type =>
      dsimp only
      rw [List.filterMap_cons_some (by rfl), List.flatMap_cons, List.map_const',
        List.count_eq_length_filter]
    | scalar _ | enum _ | interface _ | union _ | input _ | custom _ _ => rfl

namespace Accepted

variable (accepted : registry.Accepted)

include accepted

theorem type?_of_mem_objects {object : ObjectType} (inside : object ∈ registry.objects) :
    registry.type? object.name = some (.object object) :=
  accepted.type?_of_mem (mem_objects.mp inside)

theorem nodup_map_name_objects : (registry.objects.map ObjectType.name).Nodup := by
  refine accepted.nodup_names.sublist ?_
  unfold names objects
  induction registry.types with
  | nil => exact .slnil
  | cons first rest ih =>
    cases first with
    | object type => exact ih.cons_cons _
    | scalar _ | enum _ | interface _ | union _ | input _ | custom _ _ => exact ih.cons _

/-- An object type is possible for an interface as often as it lists it. -/
theorem possibleTypes_interface {interface : InterfaceType}
    (registered : registry.type? name = some (.interface interface)) :
    registry.possibleTypes name = registry.objects.flatMap fun object =>
      List.replicate (object.interfaces.count (.named name)) object := by
  unfold possibleTypes
  rw [possibleNames_interface registered]
  have named : (registry.objects.flatMap fun object =>
      List.replicate (object.interfaces.count (.named name)) object.name) =
      (registry.objects.flatMap fun object =>
        List.replicate (object.interfaces.count (.named name)) object).map ObjectType.name := by
    simp only [List.map_flatMap, List.map_replicate]
  rw [named]
  refine filterMap_objectType?_map_name fun object inside => ?_
  obtain ⟨other, member, repeated⟩ := List.mem_flatMap.mp inside
  rw [List.eq_of_mem_replicate repeated]
  exact accepted.type?_of_mem_objects member

/-- The members of a union are possible for it as they are declared. -/
theorem possibleTypes_union {union : UnionType}
    (registered : registry.type? name = some (.union union)) :
    (registry.possibleTypes name).map (fun object => TypeRef.named object.name) =
      union.members := by
  have names : registry.possibleNames name = union.members.map TypeRef.name := by
    unfold possibleNames
    rw [registered]
  have split : (registry.possibleTypes name).map (fun object => TypeRef.named object.name) =
      ((registry.possibleTypes name).map ObjectType.name).map TypeRef.named := by
    rw [List.map_map]
    rfl
  rw [split, accepted.map_name_possibleTypes, names, List.map_map]
  refine (List.map_congr_left fun ref among => ?_).trans (List.map_id _)
  obtain ⟨_, _, rfl⟩ := accepted.named_of_member (mem_of_type? registered) among
  rfl

/-- The possible types of an interface are not repeated exactly if no object type repeats it. -/
theorem nodup_possibleTypes_interface_iff {interface : InterfaceType}
    (registered : registry.type? name = some (.interface interface)) :
    ((registry.possibleTypes name).map ObjectType.name).Nodup ↔
      registry.ListsOnce (.interface interface) := by
  have same : interface.name = name := name_of_type? registered
  unfold ListsOnce
  dsimp only
  rw [same]
  constructor
  · intro distinct
    rw [accepted.map_name_possibleTypes, possibleNames_interface registered] at distinct
    exact le_one_of_nodup_flatMap_replicate distinct
  · intro once
    rw [accepted.possibleTypes_interface registered, flatMap_replicate_eq_filter once]
    exact accepted.nodup_map_name_objects.sublist (List.filter_sublist.map _)

/-- The possible types of a union are not repeated exactly if it repeats no member. -/
theorem nodup_possibleTypes_union_iff {union : UnionType}
    (registered : registry.type? name = some (.union union)) :
    ((registry.possibleTypes name).map ObjectType.name).Nodup ↔
      registry.ListsOnce (.union union) := by
  unfold ListsOnce
  dsimp only
  have members := accepted.possibleTypes_union registered
  have injective : Function.Injective fun name => TypeRef.named name :=
    fun first second same => (TypeRef.named.inj same).1
  rw [← members, ← List.nodup_map_iff injective, List.map_map]
  rfl

/-- The possible types are those of the abstract type without repetition exactly if nothing is
listed twice. -/
theorem arePossible_iff (registered : registry.type? name = some type)
    (abstract : type.isAbstract = true) :
    registry.ArePossible type (registry.possibleTypes name) ↔ registry.ListsOnce type := by
  have found : ∀ object ∈ registry.possibleTypes name,
      registry.type? object.name = some (.object object) :=
    fun object possible => (of_mem_possibleTypes possible).1
  cases type with
  | interface interface =>
    rw [← accepted.nodup_possibleTypes_interface_iff registered]
    refine ⟨ArePossible.once, fun once => ⟨found, once, nofun, ?_⟩⟩
    rintro _ ⟨⟩
    have listed := (accepted.nodup_possibleTypes_interface_iff registered).mp once
    have same : interface.name = name := name_of_type? registered
    rw [accepted.possibleTypes_interface registered, ← same, flatMap_replicate_eq_filter listed]
    refine List.filter_congr fun object _ => ?_
    rw [Bool.eq_iff_iff, decide_eq_true_iff, List.contains_iff_mem, List.count_pos_iff]
  | union union =>
    rw [← accepted.nodup_possibleTypes_union_iff registered]
    refine ⟨ArePossible.once, fun once => ⟨found, once, ?_, nofun⟩⟩
    rintro _ ⟨⟩
    exact accepted.possibleTypes_union registered
  | scalar _ | enum _ | object _ | input _ | custom _ _ => cases abstract

end Accepted

end Registry

/-! ## Candidates -/

namespace AbstractType

variable {answer : Handle → Value → Except Fault Value} {value : Value}

/-- A cause names the possible types, if it names candidates at all. -/
def NamesPossible (registry : Registry) (name : String) (cause : AbstractCause) : Prop :=
  ∀ names, cause.candidates? = some names →
    names = (registry.possibleTypes name).map ObjectType.name

theorem NamesPossible.of_none {cause : AbstractCause} (unnamed : cause.candidates? = none) :
    NamesPossible registry name cause :=
  fun _ named => nomatch named.symm.trans unnamed

theorem covers_namesPossible :
    Covers registry answer name value (NamesPossible registry name) where
  asks := by
    intro label hook
    unfold ask
    split
    · exact .ok _
    · split
      · exact .error (.of_none rfl)
      · split <;> exact .error (.of_none rfl)
  refusals := by
    intro cause refused
    cases cause with
    | undecided _ _ | noneAccepts _ _ => cases refused
    | _ => exact .of_none rfl
  noneAccepts := fun _ named => (Option.some.inj named).symm
  undecided := fun _ named => (Option.some.inj named).symm

end AbstractType

/-- An abstract type stands for its possible types. -/
theorem Registry.standsFor_possibleTypes (registered : registry.type? name = some type)
    (abstract : type.isAbstract = true) :
    registry.StandsFor type (registry.possibleTypes name) := by
  obtain rfl : type.name = name := name_of_type? registered
  constructor
  · intro args
    have shown : Introspector.definition? registry (.str type.name) = some type := registered
    show pure (Introspector.ofDefinition registry (.str type.name) _) = _
    unfold Introspector.ofDefinition
    rw [shown]
    dsimp only [Option.bind]
    rw [if_pos abstract]
    rfl
  · intro answer value unhooked hooked object
    unfold AbstractType.resolve
    rw [unhooked]
    exact AbstractType.mapError_eq_ok_iff.trans (AbstractType.byCandidates_eq_ok_iff hooked)
  · intro answer value failure names failed
    exact AbstractType.due_of_resolve_eq_error AbstractType.covers_namesPossible failed names

/-- Introspection shows the possible types of an abstract type, and the object type of a value is
looked for among them. They are the members of a union as declared, and the object types that list
an interface in order of registration, each as often as it lists it; so none of them is repeated
exactly if nothing is listed twice. -/
theorem Registry.Accepted.possibleTypes_once (accepted : registry.Accepted)
    (registered : registry.type? name = some type) (abstract : type.isAbstract = true) :
    registry.StandsFor type (registry.possibleTypes name) ∧
    (∀ union, type = .union union →
      (registry.possibleTypes name).map (fun object => TypeRef.named object.name) =
        union.members) ∧
    (∀ interface, type = .interface interface →
      registry.possibleTypes name = registry.objects.flatMap fun object =>
        List.replicate (object.interfaces.count (.named name)) object) ∧
    (registry.ArePossible type (registry.possibleTypes name) ↔ registry.ListsOnce type) := by
  refine ⟨standsFor_possibleTypes registered abstract, ?_, ?_,
    accepted.arePossible_iff registered abstract⟩
  · rintro union rfl
    exact accepted.possibleTypes_union registered
  · rintro interface rfl
    exact accepted.possibleTypes_interface registered

/-- What is moored to the quay or to another vessel has a berth. -/
def mooredType : InterfaceType where
  name := "Moored"
  fields := [{ name := "berth", type := .named "Int" }]

/-- What has a crew. -/
def crewedType : InterfaceType where
  name := "Crewed"
  fields := [{ name := "crew", type := .list (.named "String") }]

/-- The vessels, each once. -/
def vesselType : UnionType where
  name := "Vessel"
  members := [.named "Barge", .named "Tug"]

/-- A tow has a tug at each end. -/
def towType : UnionType where
  name := "Tow"
  members := [.named "Tug", .named "Barge", .named "Tug"]

/-- A schema of a harbour, where a tug lists that it is moored twice. -/
def harbourSchema : Schema where
  query := some (.definition (.object {
    name := "Query"
    fields := [{ name := "tows", type := .list (.list (.named "Tow")) }] }))
  types := [
    .definition (.object {
      name := "Tug"
      fields := mooredType.fields ++ crewedType.fields
      interfaces := [.named "Moored", .named "Crewed", .named "Moored"] }),
    .definition (.object {
      name := "Barge"
      fields := mooredType.fields
      interfaces := [.named "Moored"] }),
    .definition (.interface mooredType),
    .definition (.interface crewedType),
    .definition (.union vesselType),
    .definition (.union towType)]

/-- The registry of that schema. -/
def harbourRegistry : Registry :=
  harbourSchema.tableWithin 100

theorem accepted_harbourRegistry : harbourRegistry.Accepted :=
  Schema.accepted_of_soundWithin (by decide +kernel)

/-- The vessels are enumerated as the union of them is declared, and what has a crew by what lists
that; a tow does not enumerate its vessels. -/
theorem Registry.Accepted.possibleTypes_once_harbour :
    harbourRegistry.Accepted ∧
      harbourRegistry.ArePossible (.union vesselType) (harbourRegistry.possibleTypes "Vessel") ∧
      (harbourRegistry.possibleTypes "Vessel").map (fun object => TypeRef.named object.name) =
        [.named "Barge", .named "Tug"] ∧
      harbourRegistry.ArePossible (.interface crewedType)
        (harbourRegistry.possibleTypes "Crewed") ∧
      ¬ harbourRegistry.ArePossible (.union towType) (harbourRegistry.possibleTypes "Tow") := by
  have accepted := accepted_harbourRegistry
  obtain ⟨_, members, _, vessels⟩ := accepted.possibleTypes_once
    (show harbourRegistry.type? "Vessel" = some (.union vesselType) from rfl) rfl
  obtain ⟨_, _, _, crewed⟩ := accepted.possibleTypes_once
    (show harbourRegistry.type? "Crewed" = some (.interface crewedType) from rfl) rfl
  obtain ⟨_, _, _, tows⟩ := accepted.possibleTypes_once
    (show harbourRegistry.type? "Tow" = some (.union towType) from rfl) rfl
  have once : vesselType.members.Nodup := by decide
  have listed : ∀ object ∈ harbourRegistry.objects,
      object.interfaces.count (.named "Crewed") ≤ 1 := by decide +kernel
  have twice : ¬ towType.members.Nodup := by decide
  exact ⟨accepted, vessels.mpr once, members vesselType rfl, crewed.mpr listed,
    fun enumerated => twice (tows.mp enumerated)⟩

/-- A tug is possible twice for what is moored, which it lists twice, and for a tow, of which it is
a member twice. So the possible types are repeated in an accepted registry. -/
theorem possibleTypes_repeated_harbour :
    harbourRegistry.Accepted ∧
      (harbourRegistry.possibleTypes "Moored").map ObjectType.name = ["Tug", "Tug", "Barge"] ∧
      (harbourRegistry.possibleTypes "Tow").map ObjectType.name = ["Tug", "Barge", "Tug"] ∧
      ¬ ∀ registry name type, Registry.Accepted registry → registry.type? name = some type →
        type.isAbstract = true → registry.ArePossible type (registry.possibleTypes name) := by
  have accepted := accepted_harbourRegistry
  have moored : harbourRegistry.possibleNames "Moored" = ["Tug", "Tug", "Barge"] := by
    decide +kernel
  have towed : harbourRegistry.possibleNames "Tow" = ["Tug", "Barge", "Tug"] := by decide +kernel
  have names := (accepted.map_name_possibleTypes "Moored").trans moored
  refine ⟨accepted, names, (accepted.map_name_possibleTypes "Tow").trans towed, ?_⟩
  intro enumerated
  have once := (enumerated harbourRegistry "Moored" (.interface mooredType) accepted rfl rfl).once
  rw [names] at once
  exact absurd once (by decide)

end GraphQL
