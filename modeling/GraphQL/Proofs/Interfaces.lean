import GraphQL.Proofs.Accepted
import GraphQL.Proofs.Runtime
import GraphQL.Proofs.WellFormed

/-!
# Interfaces and sub-types

In an accepted registry a type that lists an interface has the fields of the interface, with types
that may stand in for the types there, and lists the interfaces of the interface. So an object type
that a reference admits is also admitted by every reference for which that one may stand in.
-/

namespace GraphQL

variable {registry : Registry} {name : String} {type : TypeDefinition} {object : ObjectType}

/-- A type has what an interface asks of the types that list it. -/
structure Registry.Implements (registry : Registry) (type : TypeDefinition)
    (interface : InterfaceType) : Prop where
  transitive : ∀ ref ∈ interface.interfaces, ref ∈ type.interfaces
  fields : ∀ wanted ∈ interface.fields, ∃ own, type.field? wanted.name = some own ∧
    isSubType registry.types own.type wanted.type = true

namespace Registry

/-- An object type is possible for the interfaces that it lists. -/
theorem canBe_of_listed {interface : InterfaceType}
    (registered : registry.type? name = some (.interface interface))
    (found : registry.type? object.name = some (.object object))
    (listed : .named name ∈ object.interfaces) : registry.CanBe name object := by
  refine Or.inr ⟨_, registered, rfl, found, List.contains_iff_mem.mpr ?_⟩
  unfold possibleNames
  rw [registered]
  refine List.mem_flatMap.mpr ⟨_, mem_of_type? found, List.mem_map.mpr ⟨.named name, ?_, rfl⟩⟩
  exact List.mem_filter.mpr ⟨listed, beq_self_eq_true _⟩

/-- An object type is possible for the unions that it is a member of. -/
theorem canBe_of_member {union : UnionType}
    (registered : registry.type? name = some (.union union))
    (found : registry.type? object.name = some (.object object))
    (member : object.name ∈ union.members.map TypeRef.name) : registry.CanBe name object := by
  refine Or.inr ⟨_, registered, rfl, found, List.contains_iff_mem.mpr ?_⟩
  unfold possibleNames
  rw [registered]
  exact member

/-- The field for the name of the object type is found on every composite type. -/
theorem field?_typename {parent : TypeDefinition} (composite : parent.isComposite = true) :
    registry.field? parent Introspection.typenameField.name =
      some Introspection.typenameField := by
  unfold field?
  rw [composite, beq_self_eq_true]
  rfl

/-- Other fields are the declared ones, except on the root type of queries. -/
theorem field?_of_ne {parent : TypeDefinition} {title : String}
    (other : title ≠ Introspection.typenameField.name)
    (plain : (parent.name == registry.query) = false ∨
      title ≠ Introspection.schemaField.name ∧ title ≠ Introspection.typeField.name) :
    registry.field? parent title = parent.field? title := by
  unfold field?
  rw [beq_eq_false_iff_ne.mpr other]
  rcases plain with notRoot | ⟨notSchema, notType⟩
  · rw [notRoot]
    rfl
  · rw [beq_eq_false_iff_ne.mpr notSchema, beq_eq_false_iff_ne.mpr notType, Bool.and_false]
    rfl

/-- An object type that its own name admits is the registered one. -/
theorem CanBe.eq_of_object {inner : ObjectType} (admitted : registry.CanBe name inner)
    (registered : registry.type? name = some (.object object)) : inner = object := by
  rcases admitted with itself | ⟨type, abstract, isAbstract, _⟩
  · rw [registered] at itself
    cases itself
    rfl
  · rw [registered] at abstract
    cases abstract
    cases isAbstract

end Registry

theorem TypeDefinition.isComposite_of_isAbstract (abstract : type.isAbstract = true) :
    type.isComposite = true := by
  cases type with
  | interface _ | union _ => rfl
  | scalar _ | enum _ | object _ | input _ | custom _ _ => cases abstract

/-- Of the abstract types only interfaces declare fields. -/
theorem TypeDefinition.interface_of_field? {title : String} {field : Field}
    (abstract : type.isAbstract = true) (declared : type.field? title = some field) :
    ∃ interface, type = .interface interface ∧ field ∈ interface.fields ∧ field.name = title := by
  unfold TypeDefinition.field? at declared
  have member := List.mem_of_find?_eq_some declared
  have named : field.name = title := by simpa using List.find?_some declared
  cases type with
  | interface interface => exact ⟨interface, rfl, member, named⟩
  | union _ => cases member
  | scalar _ | enum _ | object _ | input _ | custom _ _ => cases abstract

/-- Where a reference may stand in for another, they name the same type or such types. -/
theorem eq_or_namedSubType_of_isSubType {table : List TypeDefinition} {sub super : TypeRef}
    (standsIn : isSubType table sub super = true) :
    sub.name = super.name ∨ namedSubType table sub.name super.name = true := by
  induction sub generalizing super with
  | named name required =>
    unfold isSubType at standsIn
    cases super with
    | named other _ =>
      have names := (Bool.and_eq_true _ _ ▸ standsIn).2
      rw [Bool.or_eq_true, beq_iff_eq] at names
      exact names
    | list item _ => cases (Bool.and_eq_true _ _ ▸ standsIn).2
  | list item required ih =>
    unfold isSubType at standsIn
    cases super with
    | named other _ => cases (Bool.and_eq_true _ _ ▸ standsIn).2
    | list other _ =>
      have items : isSubType table item other = true := (Bool.and_eq_true _ _ ▸ standsIn).2
      rcases ih items with same | named
      · exact Or.inl same
      · exact Or.inr named

/-- No interface that the root type of queries lists declares a field under one of the names that
mean the schema and its types there. -/
def Registry.Unshadowed (registry : Registry) : Prop :=
  ∀ query interface, registry.type? registry.query = some (.object query) →
    registry.type? interface.name = some (.interface interface) →
    .named interface.name ∈ query.interfaces → ∀ field ∈ interface.fields,
      field.name ≠ Introspection.schemaField.name ∧ field.name ≠ Introspection.typeField.name

namespace Registry.Accepted

variable (accepted : registry.Accepted)

include accepted

theorem problemless (member : type ∈ registry.types) :
    Validation.typeProblems registry.types type = [] := by
  have silent := accepted.valid
  unfold Validation.problems at silent
  exact List.flatMap_eq_nil_iff.mp (List.append_eq_nil_iff.mp silent).1 type member

theorem obstacleless (member : type ∈ registry.types) :
    Validation.typeObstacles registry.types type = [] := by
  have silent := accepted.unobstructed
  unfold Validation.obstacle? at silent
  rw [List.head?_eq_none_iff] at silent
  exact List.flatMap_eq_nil_iff.mp (List.append_eq_nil_iff.mp silent).1 type member

/-- A type that lists interfaces is without problems of its fields and its interfaces, and lists
them by name. -/
theorem interfaceProblems_eq_nil (member : type ∈ registry.types) {ref : TypeRef}
    (listed : ref ∈ type.interfaces) :
    Validation.interfaceProblems registry.types type ref = [] ∧
      ref.plainName?.isNone = false := by
  have problems := accepted.problemless member
  have obstacles := accepted.obstacleless member
  have selectable : Validation.selectableProblems registry.types type = [] ∧
      type.interfaces.flatMap Validation.nameObstacles = [] := by
    cases type with
    | object type => exact ⟨problems, (List.append_eq_nil_iff.mp obstacles).2⟩
    | interface type => exact ⟨problems, (List.append_eq_nil_iff.mp obstacles).2⟩
    | scalar _ | enum _ | union _ | input _ | custom _ _ => cases listed
  refine ⟨List.flatMap_eq_nil_iff.mp (List.append_eq_nil_iff.mp selectable.1).2 ref listed, ?_⟩
  have named := List.flatMap_eq_nil_iff.mp selectable.2 ref listed
  unfold Validation.nameObstacles at named
  split at named
  · cases named
  · next plain => exact Bool.not_eq_true _ ▸ plain

/-- What a type lists is an interface, of which the type has what it asks for. -/
theorem implements (member : type ∈ registry.types) {ref : TypeRef}
    (listed : ref ∈ type.interfaces) :
    ∃ interface, registry.type? interface.name = some (.interface interface) ∧
      ref = .named interface.name ∧ registry.Implements type interface := by
  obtain ⟨silent, plain⟩ := accepted.interfaceProblems_eq_nil member listed
  obtain ⟨interface, found, fulfils⟩ := Validation.interfaceProblems_eq_nil_iff.mp silent
  have same : interface.name = ref.name := name_of_type? found
  have named : ref = .named interface.name := by
    rw [same]
    cases ref with
    | named name required =>
      cases required with
      | true => cases plain
      | false => rfl
    | list item required => cases plain
  refine ⟨interface, same ▸ found, named, fulfils.transitive, fun wanted inside => ?_⟩
  obtain ⟨own, provided, provides⟩ := fulfils.fields wanted inside
  exact ⟨own, provided, isSubType_iff.mpr provides.type⟩

/-- The members of a union are object types, by name. -/
theorem member_of_union {union : UnionType} (registered : registry.type? name = some (.union union))
    {ref : TypeRef} (member : ref ∈ union.members) :
    ∃ object, registry.type? ref.name = some (.object object) := by
  have silent := accepted.problemless (mem_of_type? registered)
  exact (Validation.typeProblems_eq_nil_iff.mp silent).2 ref member

/-- An object type that is possible for an interface lists it. -/
theorem listed_of_canBe {interface : InterfaceType}
    (registered : registry.type? name = some (.interface interface))
    (admitted : registry.CanBe name object) : .named name ∈ object.interfaces := by
  rcases admitted with itself | ⟨_, _, _, found, possible⟩
  · rw [registered] at itself
    cases itself
  · have named := List.contains_iff_mem.mp possible
    unfold possibleNames at named
    rw [registered] at named
    obtain ⟨type, member, inside⟩ := List.mem_flatMap.mp named
    cases type with
    | object other =>
      obtain ⟨ref, listed, same⟩ := List.mem_map.mp inside
      obtain ⟨listed, isInterface⟩ := List.mem_filter.mp listed
      have registeredOther := accepted.type?_of_mem member
      rw [show TypeDefinition.name (.object other) = object.name from same, found]
        at registeredOther
      cases registeredOther
      rwa [← beq_iff_eq.mp isInterface]
    | scalar _ | enum _ | interface _ | union _ | input _ | custom _ _ => cases inside

/-- An object type that a reference admits is admitted by each for which that one may stand in. -/
theorem canBe_of_isSubType {sub super : TypeRef}
    (standsIn : isSubType registry.types sub super = true)
    (admitted : registry.CanBe sub.name object) : registry.CanBe super.name object := by
  have registered := admitted.registered
  rcases eq_or_namedSubType_of_isSubType standsIn with same | named
  · rwa [← same]
  · unfold namedSubType at named
    split at named
    · next union found =>
      obtain ⟨member, typed⟩ := accepted.member_of_union found (List.contains_iff_mem.mp named)
      have same := admitted.eq_of_object typed
      refine canBe_of_member found registered ?_
      refine List.mem_map.mpr ⟨_, List.contains_iff_mem.mp named, ?_⟩
      rw [same]
      exact (name_of_type? typed).symm
    · next interface found =>
      split at named
      · next type typed =>
        have listed := List.contains_iff_mem.mp named
        cases type with
        | object own =>
          have same := admitted.eq_of_object typed
          rw [← same] at listed
          exact canBe_of_listed found registered listed
        | interface own =>
          have inner := accepted.listed_of_canBe typed admitted
          obtain ⟨other, otherFound, sameName, implemented⟩ :=
            accepted.implements (mem_of_type? registered) inner
          rw [← (TypeRef.named.inj sameName).1] at otherFound
          cases typed.symm.trans otherFound
          exact canBe_of_listed found registered (implemented.transitive _ listed)
        | scalar _ | enum _ | union _ | input _ | custom _ _ => cases listed
      · cases named
    · cases named

/-- The root type of queries is no abstract type. -/
theorem name_ne_query (registered : registry.type? name = some type)
    (abstract : type.isAbstract = true) : (type.name == registry.query) = false := by
  refine beq_eq_false_iff_ne.mpr fun same => ?_
  obtain ⟨object, rooted⟩ := accepted.query_isObject
  rw [← same, name_of_type? registered, registered] at rooted
  cases rooted
  cases abstract

/-- An object type has the fields of every type that admits it. What stands below such a field may
have no other object types than the type that admits it says. -/
theorem field_of_canBe (unshadowed : registry.Unshadowed) {title : String} {wanted : Field}
    (registered : registry.type? name = some type) (admitted : registry.CanBe name object)
    (declared : registry.field? type title = some wanted) :
    ∃ own, registry.field? (.object object) title = some own ∧
      ∀ inner, registry.CanBe own.type.name inner → registry.CanBe wanted.type.name inner := by
  have itself : type = .object object → ∃ own,
      registry.field? (.object object) title = some own ∧
        ∀ inner, registry.CanBe own.type.name inner → registry.CanBe wanted.type.name inner := by
    rintro rfl
    exact ⟨wanted, declared, fun _ admitted => admitted⟩
  have registeredObject := admitted.registered
  rcases id admitted with found | ⟨_, found, abstract, _⟩
  · exact itself (Option.some.inj (registered.symm.trans found))
  cases registered.symm.trans found
  by_cases isTypename : title = Introspection.typenameField.name
  · rw [isTypename, field?_typename (TypeDefinition.isComposite_of_isAbstract abstract)] at declared
    cases declared
    exact ⟨_, isTypename ▸ field?_typename rfl, fun _ admitted => admitted⟩
  · rw [field?_of_ne isTypename (Or.inl (accepted.name_ne_query registered abstract))] at declared
    obtain ⟨interface, rfl, member, rfl⟩ := TypeDefinition.interface_of_field? abstract declared
    have listed := accepted.listed_of_canBe registered admitted
    obtain ⟨other, otherFound, named, implemented⟩ :=
      accepted.implements (mem_of_type? registeredObject) listed
    rw [← (TypeRef.named.inj named).1] at otherFound
    cases registered.symm.trans otherFound
    obtain ⟨own, provided, standsIn⟩ := implemented.fields wanted member
    refine ⟨own, ?_, fun inner => accepted.canBe_of_isSubType standsIn⟩
    rw [field?_of_ne isTypename ?_, provided]
    cases isRoot : TypeDefinition.name (.object object) == registry.query with
    | false => exact Or.inl rfl
    | true =>
      have rooted : registry.type? registry.query = some (.object object) := by
        rw [← beq_iff_eq.mp isRoot]
        exact registeredObject
      have sameName : interface.name = name := name_of_type? registered
      refine Or.inr (unshadowed object interface rooted ?_ ?_ wanted member)
      · rwa [sameName]
      · rwa [sameName]

end Registry.Accepted

end GraphQL
