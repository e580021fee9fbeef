import GraphQL.Proofs.Validity

/-!
# How building fails

Building a schema with types of the six kinds gives a registry or the problems that prevent one,
with one exception. An interface that a type lists, or a member of a union, may be given as a list
or as excluding null. The walk over the definitions looks at the name underneath, but validation
looks the reference itself up, and building ends with the fault of that lookup.
-/

namespace GraphQL.Schema

variable {schema : Schema}

/-- A schema has a name or a definition for each of its root types, and types of the six kinds. -/
structure HasKinds (schema : Schema) : Prop where
  roots : schema.invalidRoot? = none
  kinds : ∀ candidate ∈ schema.given, candidate.type.kind?.isSome = true

/-- Building a schema gives a registry, or it fails as building does, with some problems. -/
def EndsProperly (schema : Schema) : Prop :=
  (∃ registry, Registry.build schema = .ok registry) ∨
    ∃ failure, Registry.build schema = .error failure ∧ failure.kind = .schemaBuild ∧
      failure.problems ≠ []

/-- The problems that are found before kinds of members and interfaces are looked at. -/
def firstProblems (schema : Schema) : List Problem :=
  schema.definitionProblems (schema.walk schema.collect.1)

/-- A definition of a schema lists a reference as an interface or as a member that is no plain
name. -/
def Misnames (schema : Schema) (ref : TypeRef) : Prop :=
  ∃ name type, schema.definition? name = some type ∧ ref ∈ type.nominals ∧ ref.plainName? = none

/-- The definitions of a schema are what its walk visits. -/
theorem mem_visitedTypes_iff {type : TypeDefinition} :
    type ∈ visitedTypes (schema.walk schema.collect.1) ↔
      schema.definition? type.name = some type := by
  rw [← lookupType?_collect]
  constructor
  · exact lookupType?_of_mem_walk
  · intro defined
    rw [← lookupType?_walk] at defined
    exact mem_of_lookupType? defined

theorem name_of_definition? {name : String} {type : TypeDefinition}
    (defined : schema.definition? name = some type) : type.name = name := by
  rw [← lookupType?_collect] at defined
  exact name_of_lookupType? defined

/-- The references that are misnamed stand in the types that the walk visits. -/
theorem misnames_iff {ref : TypeRef} :
    schema.Misnames ref ↔
      ref ∈ (visitedTypes (schema.walk schema.collect.1)).flatMap TypeDefinition.nominals ∧
        ref.plainName? = none := by
  rw [List.mem_flatMap]
  constructor
  · rintro ⟨name, type, defined, listed, broken⟩
    refine ⟨⟨type, mem_visitedTypes_iff.mpr ?_, listed⟩, broken⟩
    rwa [name_of_definition? defined]
  · rintro ⟨⟨type, visited, listed⟩, broken⟩
    exact ⟨type.name, type, mem_visitedTypes_iff.mp visited, listed, broken⟩

/-- Types that list interfaces and members by plain names misname nothing. -/
theorem not_misnames_of_plain (plain : ∀ candidate ∈ schema.given, candidate.type.isPlain = true)
    (ref : TypeRef) : ¬ schema.Misnames ref := by
  rintro ⟨name, type, defined, listed, broken⟩
  obtain ⟨candidate, given, rfl⟩ := exists_given_of_definition? defined
  have named := (TypeDefinition.isPlain_iff.mp (plain candidate given)).2 ref listed
  rw [broken] at named
  cases named

/-! ## The ways in which building ends -/

section Endings

variable (roots : schema.invalidRoot? = none)

include roots

theorem build_eq_registry :
    Registry.build schema = schema.registry (schema.walk schema.collect.1) := by
  unfold Registry.build
  rw [roots]

/-- Problems of the references end building before validation. -/
theorem build_of_firstProblems (some : schema.firstProblems ≠ []) :
    Registry.build schema = .error (.invalid schema.firstProblems) := by
  rw [build_eq_registry roots]
  unfold registry
  exact if_pos (by rw [Bool.not_eq_true', List.isEmpty_eq_false_iff]; exact some)

/-- An obstacle ends validation. -/
theorem build_of_obstacle {obstacle : Validation.Obstacle} (none : schema.firstProblems = [])
    (hindered : Validation.obstacle? (visitedTypes (schema.walk schema.collect.1))
      schema.collectDirectives.1 = some obstacle) :
    Registry.build schema = .error (.obstructed obstacle) := by
  have first : schema.definitionProblems (schema.walk schema.collect.1) = [] := none
  rw [build_eq_registry roots]
  unfold registry table
  dsimp only
  rw [first, hindered]
  rfl

/-- A validation that comes to its end decides. -/
theorem endsProperly_of_unobstructed (none : schema.firstProblems = [])
    (unhindered : Validation.obstacle? (visitedTypes (schema.walk schema.collect.1))
      schema.collectDirectives.1 = .none) : schema.EndsProperly := by
  have first : schema.definitionProblems (schema.walk schema.collect.1) = [] := none
  unfold EndsProperly
  rw [build_eq_registry roots]
  unfold registry table
  dsimp only
  rw [first, unhindered]
  dsimp only
  cases second : Validation.problems (visitedTypes (schema.walk schema.collect.1))
      schema.collectDirectives.1 with
  | nil => exact Or.inl ⟨_, rfl⟩
  | cons problem more => exact Or.inr ⟨_, rfl, rfl, List.cons_ne_nil problem more⟩

end Endings

section Kinds

variable (known : schema.HasKinds)

include known

/-- Among types of the six kinds the first reference that is misnamed is the obstacle. -/
theorem obstacle?_eq : Validation.obstacle? (visitedTypes (schema.walk schema.collect.1))
      schema.collectDirectives.1 =
    (((visitedTypes (schema.walk schema.collect.1)).flatMap TypeDefinition.nominals).find?
      (·.plainName?.isNone)).map .brokenReference := by
  refine Validation.obstacle?_of_kinds fun type visited => ?_
  obtain ⟨candidate, given, rfl⟩ := exists_given_of_definition? (mem_visitedTypes_iff.mp visited)
  exact known.kinds candidate given

/-- Building ends properly where nothing is misnamed. -/
theorem endsProperly_of_named (none : schema.firstProblems = [])
    (named : ∀ ref, ¬ schema.Misnames ref) : schema.EndsProperly := by
  refine endsProperly_of_unobstructed known.roots none ?_
  rw [obstacle?_eq known, Option.map_eq_none_iff, List.find?_eq_none]
  exact fun ref listed broken =>
    named ref (misnames_iff.mpr ⟨listed, Option.isNone_iff_eq_none.mp broken⟩)

/-- Where nothing else is wrong with the references, one that is misnamed ends building. -/
theorem build_of_misnames {ref : TypeRef} (none : schema.firstProblems = [])
    (misnames : schema.Misnames ref) : ∃ first, schema.Misnames first ∧
      Registry.build schema = .error (.obstructed (.brokenReference first)) := by
  obtain ⟨listed, broken⟩ := misnames_iff.mp misnames
  have some : (((visitedTypes (schema.walk schema.collect.1)).flatMap
      TypeDefinition.nominals).find? (·.plainName?.isNone)).isSome = true :=
    List.find?_isSome.mpr ⟨ref, listed, by rw [broken]; rfl⟩
  obtain ⟨first, found⟩ := Option.isSome_iff_exists.mp some
  refine ⟨first, misnames_iff.mpr ⟨List.mem_of_find?_eq_some found, ?_⟩, ?_⟩
  · simpa using List.find?_some found
  · refine build_of_obstacle known.roots none ?_
    rw [obstacle?_eq known, found]
    rfl

end Kinds

/-- A lookup that fails is no proper end. -/
theorem not_endsProperly_of_broken {ref : TypeRef}
    (failed : Registry.build schema = .error (.obstructed (.brokenReference ref))) :
    ¬ schema.EndsProperly := by
  unfold EndsProperly
  rw [failed]
  rintro (⟨_, built⟩ | ⟨_, same, kind, _⟩)
  · cases built
  · cases same
    cases kind

/-- Building a schema with types of the six kinds gives a registry or problems, unless nothing is
found to be wrong before validation and a reference that has to be a plain name is none. Such a
reference is then looked up as if it were a name, and that fails. -/
theorem build_endsProperly (known : schema.HasKinds) :
    (schema.EndsProperly ↔ schema.firstProblems ≠ [] ∨ ∀ ref, ¬ schema.Misnames ref) ∧
    (schema.EndsProperly ∨ ∃ ref failure, schema.Misnames ref ∧
      Registry.build schema = .error failure ∧ failure.kind = .key ∧ failure.problems = [] ∧
        failure.message = ref.describe) := by
  by_cases first : schema.firstProblems = []
  · by_cases named : ∀ ref, ¬ schema.Misnames ref
    · have proper := endsProperly_of_named known first named
      exact ⟨iff_of_true proper (Or.inr named), Or.inl proper⟩
    · obtain ⟨ref, misnames⟩ := not_forall_not.mp named
      obtain ⟨broken, inside, failed⟩ := build_of_misnames known first misnames
      refine ⟨iff_of_false (not_endsProperly_of_broken failed) ?_,
        Or.inr ⟨broken, _, inside, failed, rfl, rfl, rfl⟩⟩
      rintro (some | none)
      · exact some first
      · exact named none
  · have proper : schema.EndsProperly :=
      Or.inr ⟨_, build_of_firstProblems known.roots first, rfl, first⟩
    exact ⟨iff_of_true proper (Or.inl first), Or.inl proper⟩

/-- A schema of a basket, in which one may pick some references. -/
def basketSchema (members : List TypeRef) : Schema where
  query := some (.definition (.object {
    name := "Query"
    fields := [{ name := "pick", type := .named "Pick" }] }))
  types := [
    .definition (.object {
      name := "Apple"
      fields := [{ name := "weight", type := .list (.named "Int" true) true }] }),
    .definition (.union { name := "Pick", members })]

theorem hasKinds_basketSchema (members : List TypeRef) : (basketSchema members).HasKinds where
  roots := rfl
  kinds := by
    intro candidate given
    have listed : (basketSchema members).given.all (·.type.kind?.isSome) = true := rfl
    exact List.all_eq_true.mp listed candidate given

/-- An apple can be picked by its name, and a pear that nobody defined is a problem, whether one is
to pick an apple or a list of them. -/
theorem build_endsProperly_basket :
    (basketSchema [.named "Apple"]).EndsProperly ∧
      (basketSchema [.list (.named "Apple"), .named "Pear"]).EndsProperly := by
  have plain : ∀ candidate ∈ (basketSchema [.named "Apple"]).given,
      candidate.type.isPlain = true := by decide +kernel
  have enough : ((basketSchema [.list (.named "Apple"), .named "Pear"]).walkedWithin 100).isSome =
      true := by decide +kernel
  have undefined : (basketSchema [.list (.named "Apple"), .named "Pear"]).firstProblems ≠ [] := by
    unfold firstProblems
    rw [walk_eq_of_within enough, ← List.isEmpty_eq_false_iff]
    decide +kernel
  exact ⟨(build_endsProperly (hasKinds_basketSchema _)).1.mpr
      (Or.inr (not_misnames_of_plain plain)),
    (build_endsProperly (hasKinds_basketSchema _)).1.mpr (Or.inl undefined)⟩

/-- To pick a list of apples is no problem that is reported: building ends with a failed lookup of
the list, although the schema has types of the six kinds. -/
theorem build_of_list_basket :
    Registry.build (basketSchema [.list (.named "Apple")]) =
        .error (.obstructed (.brokenReference (.list (.named "Apple")))) ∧
      (BuildError.obstructed (.brokenReference (.list (.named "Apple")))).kind = .key ∧
      ¬ ∀ schema : Schema, schema.HasKinds → schema.EndsProperly := by
  have enough : ((basketSchema [.list (.named "Apple")]).walkedWithin 100).isSome = true := by
    decide +kernel
  have failed : Registry.build (basketSchema [.list (.named "Apple")]) =
      .error (.obstructed (.brokenReference (.list (.named "Apple")))) := by
    refine build_of_obstacle rfl ?_ ?_
    · unfold firstProblems
      rw [walk_eq_of_within enough, ← List.isEmpty_iff]
      decide +kernel
    · rw [walk_eq_of_within enough]
      decide +kernel
  refine ⟨failed, rfl, fun proper => ?_⟩
  exact not_endsProperly_of_broken failed (proper _ (hasKinds_basketSchema _))

end GraphQL.Schema
