import GraphQL.Proofs.Interfaces

/-!
# Sub-typing is a partial order

In an accepted registry the references are partially ordered by which may stand in for which. The
relation looks at one level of interfaces only, so this rests on what validation asks of a type that
lists an interface: that it lists the interfaces of the interface as well, and never itself. The
order is sound for values: a reference that may stand in for another one admits no other object
types.
-/

namespace GraphQL

variable {registry : Registry} {name : String} {type : TypeDefinition} {object : ObjectType}

section Table

variable {table : List TypeDefinition} {sub super : String} {subItem superItem : TypeRef}
  {subRequired superRequired : Bool}

theorem isSubType_named :
    isSubType table (.named sub subRequired) (.named super superRequired) = true ↔
      (superRequired = true → subRequired = true) ∧
        (sub = super ∨ namedSubType table sub super = true) := by
  cases superRequired <;> simp [isSubType, TypeRef.isNonNull]

theorem isSubType_list :
    isSubType table (.list subItem subRequired) (.list superItem superRequired) = true ↔
      (superRequired = true → subRequired = true) ∧ isSubType table subItem superItem = true := by
  cases superRequired <;> simp [isSubType, TypeRef.isNonNull]

theorem not_isSubType_named_list :
    ¬isSubType table (.named sub subRequired) (.list superItem superRequired) = true := by
  simp [isSubType]

theorem not_isSubType_list_named :
    ¬isSubType table (.list subItem subRequired) (.named super superRequired) = true := by
  simp [isSubType]

end Table

/-- Nothing else may stand in for an object type. -/
theorem Registry.not_namedSubType_object {sub : String}
    (registered : registry.type? name = some (.object object)) :
    ¬namedSubType registry.types sub name = true := by
  intro standsIn
  rcases namedSubType_iff.mp standsIn with ⟨union, found, _⟩ | ⟨interface, _, found, _, _⟩
  · have impossible := registered.symm.trans found
    cases impossible
  · have impossible := registered.symm.trans found
    cases impossible

namespace Registry.Accepted

variable (accepted : registry.Accepted) {first second third : String}

include accepted

/-- No type lists itself. -/
theorem ne_name_of_listed (member : type ∈ registry.types)
    (listed : .named name ∈ type.interfaces) : name ≠ type.name := by
  have silent := (accepted.interfaceProblems_eq_nil member listed).1
  obtain ⟨interface, found, fulfils⟩ := Validation.interfaceProblems_eq_nil_iff.mp silent
  have same : interface.name = name := name_of_lookupType? found
  intro itself
  apply fulfils.other
  rw [same, itself]

/-- The members of a union are listed by name. -/
theorem eq_named_of_member {union : UnionType}
    (registered : registry.type? name = some (.union union)) {ref : TypeRef}
    (member : ref ∈ union.members) : ref = .named ref.name := by
  have silent := accepted.obstacleless (mem_of_type? registered)
  have named : Validation.nameObstacles ref = [] :=
    List.flatMap_eq_nil_iff.mp silent ref member
  cases ref with
  | named name required =>
    cases required with
    | false => rfl
    | true => cases named
  | list item required => cases named

/-- What may stand in for a name may stand in for all for which that name may. A member of a union
is an object type, so the name in between is an interface; and who lists it lists what it lists. -/
theorem namedSubType_trans (lower : namedSubType registry.types first second = true)
    (upper : namedSubType registry.types second third = true) :
    namedSubType registry.types first third = true := by
  rcases namedSubType_iff.mp upper with
    ⟨union, found, inside⟩ | ⟨interface, type, found, own, lists⟩
  · obtain ⟨object, typed⟩ := accepted.member_of_union found inside
    exact absurd lower (not_namedSubType_object typed)
  · rcases namedSubType_iff.mp lower with ⟨union, middle, _⟩ | ⟨between, sub, middle, typed, listed⟩
    · have same := own.symm.trans middle
      cases same
      cases lists
    · obtain ⟨other, otherFound, sameName, implemented⟩ :=
        accepted.implements (mem_of_lookupType? typed) listed
      rw [← (TypeRef.named.inj sameName).1] at otherFound
      have isBetween := own.symm.trans middle
      cases isBetween
      have isOther := middle.symm.trans otherFound
      cases isOther
      have listsThird := implemented.transitive _ lists
      exact namedSubType_iff.mpr (Or.inr ⟨interface, sub, found, typed, listsThird⟩)

/-- No name stands in for itself as a member or by listing itself. -/
theorem not_namedSubType_self : ¬namedSubType registry.types name name = true := by
  intro standsIn
  rcases namedSubType_iff.mp standsIn with ⟨union, found, inside⟩ | ⟨_, type, _, own, lists⟩
  · obtain ⟨object, typed⟩ := accepted.member_of_union found inside
    exact not_namedSubType_object typed standsIn
  · have different := accepted.ne_name_of_listed (mem_of_lookupType? own) lists
    exact different (name_of_lookupType? own).symm

theorem isSubType_trans {first second third : TypeRef}
    (lower : isSubType registry.types first second = true)
    (upper : isSubType registry.types second third = true) :
    isSubType registry.types first third = true := by
  induction first generalizing second third with
  | named name required =>
    cases second with
    | list _ _ => exact absurd lower not_isSubType_named_list
    | named middle _ =>
      cases third with
      | list _ _ => exact absurd upper not_isSubType_named_list
      | named last _ =>
        obtain ⟨lowerNull, lowerName⟩ := isSubType_named.mp lower
        obtain ⟨upperNull, upperName⟩ := isSubType_named.mp upper
        apply isSubType_named.mpr
        refine ⟨fun excluded => lowerNull (upperNull excluded), ?_⟩
        rcases lowerName with rfl | lowerName
        · exact upperName
        · rcases upperName with rfl | upperName
          · exact Or.inr lowerName
          · exact Or.inr (accepted.namedSubType_trans lowerName upperName)
  | list item required ih =>
    cases second with
    | named _ _ => exact absurd lower not_isSubType_list_named
    | list middle _ =>
      cases third with
      | named _ _ => exact absurd upper not_isSubType_list_named
      | list last _ =>
        obtain ⟨lowerNull, lowerItem⟩ := isSubType_list.mp lower
        obtain ⟨upperNull, upperItem⟩ := isSubType_list.mp upper
        apply isSubType_list.mpr
        exact ⟨fun excluded => lowerNull (upperNull excluded), ih lowerItem upperItem⟩

theorem isSubType_antisymm {first second : TypeRef}
    (lower : isSubType registry.types first second = true)
    (upper : isSubType registry.types second first = true) : first = second := by
  induction first generalizing second with
  | named name required =>
    cases second with
    | list _ _ => exact absurd lower not_isSubType_named_list
    | named other otherRequired =>
      obtain ⟨lowerNull, lowerName⟩ := isSubType_named.mp lower
      obtain ⟨upperNull, upperName⟩ := isSubType_named.mp upper
      have sameNull : required = otherRequired := Bool.eq_iff_iff.mpr ⟨upperNull, lowerNull⟩
      have sameName : name = other := by
        rcases lowerName with same | lowerName
        · exact same
        · rcases upperName with same | upperName
          · exact same.symm
          · have itself := accepted.namedSubType_trans lowerName upperName
            exact absurd itself accepted.not_namedSubType_self
      rw [sameName, sameNull]
  | list item required ih =>
    cases second with
    | named _ _ => exact absurd lower not_isSubType_list_named
    | list other otherRequired =>
      obtain ⟨lowerNull, lowerItem⟩ := isSubType_list.mp lower
      obtain ⟨upperNull, upperItem⟩ := isSubType_list.mp upper
      have sameNull : required = otherRequired := Bool.eq_iff_iff.mpr ⟨upperNull, lowerNull⟩
      rw [ih lowerItem upperItem, sameNull]

/-- An object type may stand in for an abstract type exactly if it is possible for that type. -/
theorem isSubType_iff_isPossible (registered : registry.type? object.name = some (.object object))
    (found : registry.type? name = some type) (abstract : type.isAbstract = true) :
    isSubType registry.types (.named object.name) (.named name) = true ↔
      registry.isPossible name object.name = true := by
  have itself : registry.CanBe object.name object := Or.inl registered
  constructor
  · intro standsIn
    rcases accepted.canBe_of_isSubType standsIn itself with isObject | ⟨_, _, _, _, possible⟩
    · have same := isObject.symm.trans found
      cases same
      cases abstract
    · exact possible
  · intro possible
    have admitted : registry.CanBe name object := Or.inr ⟨_, found, abstract, registered, possible⟩
    apply isSubType_named.mpr
    refine ⟨id, Or.inr ?_⟩
    cases type with
    | interface interface =>
      have listed := accepted.listed_of_canBe found admitted
      exact namedSubType_iff.mpr (Or.inr ⟨interface, _, found, registered, listed⟩)
    | union union =>
      have named := List.contains_iff_mem.mp possible
      unfold possibleNames at named
      rw [found] at named
      obtain ⟨ref, member, sameName⟩ := List.mem_map.mp named
      have plain := accepted.eq_named_of_member found member
      rw [sameName] at plain
      exact namedSubType_iff.mpr (Or.inl ⟨union, found, plain ▸ member⟩)
    | scalar _ | enum _ | object _ | input _ | custom _ _ => cases abstract

end Registry.Accepted

/-- The possible types of an abstract type are the object types that are possible for it. -/
theorem Registry.mem_possibleTypes_iff
    (registered : registry.type? object.name = some (.object object)) :
    object ∈ registry.possibleTypes name ↔ registry.isPossible name object.name = true := by
  constructor
  · intro member
    exact (of_mem_possibleTypes member).2
  · intro possible
    have listed := List.contains_iff_mem.mp possible
    have found : registry.objectType? object.name = some object := by
      unfold objectType?
      rw [registered]
    exact List.mem_filterMap.mpr ⟨_, listed, found⟩

/-- Sub-typing orders all references partially, and it is sound for values: of two names the one
that may stand in for the other admits no other object types, and an object type may stand in for
exactly the abstract types for which it is possible. -/
theorem Registry.isSubType_sound_order (accepted : registry.Accepted) :
    (∀ ref, isSubType registry.types ref ref = true) ∧
    (∀ first second third, isSubType registry.types first second = true →
      isSubType registry.types second third = true →
      isSubType registry.types first third = true) ∧
    (∀ first second, isSubType registry.types first second = true →
      isSubType registry.types second first = true → first = second) ∧
    (∀ sub super, isSubType registry.types (.named sub) (.named super) = true →
      ∀ object, registry.CanBe sub object → registry.CanBe super object) ∧
    ∀ object name type, registry.type? object.name = some (.object object) →
      registry.type? name = some type → type.isAbstract = true →
      isSubType registry.types (.named object.name) (.named name) =
          registry.isPossible name object.name ∧
        (registry.isPossible name object.name = true ↔ object ∈ registry.possibleTypes name) := by
  refine ⟨isSubType_self, fun _ _ _ => accepted.isSubType_trans,
    fun _ _ => accepted.isSubType_antisymm, ?_, ?_⟩
  · intro sub super standsIn object admitted
    exact accepted.canBe_of_isSubType standsIn admitted
  · intro object name type registered found abstract
    have agrees := accepted.isSubType_iff_isPossible registered found abstract
    exact ⟨Bool.eq_iff_iff.mpr agrees, (mem_possibleTypes_iff registered).symm⟩

/-- A ship is named and therefore a node, as named things are. -/
def shipType : ObjectType where
  name := "Ship"
  fields := [
    { name := "id", type := .named "ID" true },
    { name := "name", type := .named "String" }]
  interfaces := [.named "Named", .named "Node"]

/-- A schema with an interface that lists another one, and a union. -/
def fleetSchema : Schema where
  query := some (.definition (.object {
    name := "Query"
    fields := [{ name := "vessels", type := .list (.named "Vessel") }] }))
  types := [
    .definition (.interface {
      name := "Node"
      fields := [{ name := "id", type := .named "ID" }] }),
    .definition (.interface {
      name := "Named"
      fields := [{ name := "id", type := .named "ID" }, { name := "name", type := .named "String" }]
      interfaces := [.named "Node"] }),
    .definition (.object shipType),
    .definition (.union { name := "Vessel", members := [.named "Ship"] })]

/-- The registry of that schema. -/
def fleetRegistry : Registry :=
  fleetSchema.tableWithin 100

theorem accepted_fleetRegistry : fleetRegistry.Accepted :=
  Schema.accepted_of_soundWithin (by decide +kernel)

/-- Lists of ships may stand for lists of nodes, by way of the interface in between; and a ship is
possible for the union of vessels, although vessels are no nodes. -/
theorem Registry.isSubType_sound_order_fleet :
    fleetRegistry.Accepted ∧
      isSubType fleetRegistry.types (.list (.named "Ship" true) true) (.list (.named "Node")) =
        true ∧
      isSubType fleetRegistry.types (.named "Vessel") (.named "Node") = false ∧
      fleetRegistry.CanBe "Node" shipType ∧
      shipType ∈ fleetRegistry.possibleTypes "Vessel" := by
  obtain ⟨_, transitive, _, sound, agree⟩ := isSubType_sound_order accepted_fleetRegistry
  have lower : isSubType fleetRegistry.types (.list (.named "Ship" true) true)
      (.list (.named "Named")) = true := by decide +kernel
  have upper : isSubType fleetRegistry.types (.list (.named "Named")) (.list (.named "Node")) =
      true := by decide +kernel
  have registered : fleetRegistry.type? "Ship" = some (.object shipType) := rfl
  have admitted := sound "Ship" "Node" (by decide +kernel) shipType (Or.inl registered)
  have answers := agree shipType "Vessel" _ registered rfl rfl
  have possible : fleetRegistry.isPossible "Vessel" "Ship" = true := by decide +kernel
  exact ⟨accepted_fleetRegistry, transitive _ _ _ lower upper, by decide +kernel, admitted,
    answers.2.mp possible⟩

end GraphQL
