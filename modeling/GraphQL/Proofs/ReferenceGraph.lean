import GraphQL.Proofs.Accepted
import GraphQL.Proofs.Traversal

/-!
# The reference graph

The types of an accepted registry refer to one another. What a registry says about them is said by
walks over its table; it agrees with the references themselves and the paths that they make.
-/

namespace GraphQL

open Relation (TransGen ReflTransGen)

variable {registry : Registry} {name other : String} {type : TypeDefinition}

/-! ## Edges -/

/-- A walk from references follows each reference of what it visits that leads to a definition. -/
theorem filterMap_edge?_walkReferences {table : List TypeDefinition} {seen : List String}
    {refs : List TypeRef} :
    (walkReferences table seen refs).filterMap WalkEvent.edge? =
      (visitedTypes (walkReferences table seen refs)).flatMap (TypeDefinition.followed table) := by
  induction refs generalizing seen with
  | nil => rfl
  | cons ref rest ih =>
    unfold walkReferences
    split
    · exact ih
    · have visited : ∀ events more : List WalkEvent,
          visitedTypes (events ++ more) = visitedTypes events ++ visitedTypes more :=
        fun _ _ => List.filterMap_append
      rw [List.filterMap_append, visited, List.flatMap_append, filterMap_edge?_walkFrom, ih]

/-- The references of the registered types, with their sources and places. -/
def Registry.references (registry : Registry) : List (String × String × String) :=
  registry.types.flatMap fun type =>
    type.references.map fun reference => (type.name, reference.target, reference.place.text)

/-- The references that building a registry follows are all that its types make, each as often as it
is made. -/
theorem Schema.Builds.edges_eq {schema : Schema} (builds : schema.Builds registry) :
    (schema.walk schema.collect.1).filterMap WalkEvent.edge? = registry.references := by
  refine Eq.trans (filterMap_edge?_walkReferences : _ = _) ?_
  unfold Registry.references
  rw [builds.types]
  refine List.flatMap_congr fun type visited => congrArg (List.map _) ?_
  refine List.filter_eq_self.mpr fun reference refers => ?_
  rw [← builds.type?_eq]
  exact builds.closed (builds.types ▸ visited) refers

namespace Registry

/-- Some names are those for which a condition holds, each of them once and in the order of
registration. -/
structure Enumerates (registry : Registry) (names : List String) (holds : String → Prop) :
    Prop where
  once : names.Nodup
  ordered : names.Sublist registry.names
  exact : ∀ name, name ∈ names ↔ holds name

/-- A type reaches another one by one or more references. -/
def DependsOn (registry : Registry) : String → String → Prop :=
  TransGen (Refers registry.types)

theorem mem_reachable_iff {start : List String} :
    name ∈ registry.reachable start ↔ (registry.type? name).isSome = true ∧
      ∃ origin ∈ start, ReflTransGen (Refers registry.types) origin name := by
  unfold reachable visitedNames walk
  rw [visitedTypes_walkFrom, List.mem_map]
  constructor
  · rintro ⟨type, found, rfl⟩
    obtain ⟨defined, reaches⟩ := mem_search_iff.mp found
    exact ⟨Option.isSome_iff_exists.mpr ⟨type, defined⟩, reaches⟩
  · rintro ⟨known, reaches⟩
    obtain ⟨type, defined⟩ := Option.isSome_iff_exists.mp known
    have named := name_of_lookupType? defined
    refine ⟨type, mem_search_iff.mpr ?_, named⟩
    rw [named]
    exact ⟨defined, reaches⟩

theorem exists_dependencies (known : (registry.type? name).isSome = true) :
    ∃ dependencies, registry.dependencies? name = some dependencies := by
  obtain ⟨type, found⟩ := Option.isSome_iff_exists.mp known
  exact ⟨_, congrArg (Option.map _) found⟩

theorem exists_referrers (known : (registry.type? name).isSome = true) :
    ∃ referrers, registry.referrers? name = some referrers := by
  obtain ⟨type, found⟩ := Option.isSome_iff_exists.mp known
  exact ⟨_, congrArg (Option.map _) found⟩

/-- A type that reaches itself refers to itself, or it reaches another type that reaches it. -/
theorem dependsOn_self_iff : registry.DependsOn name name ↔ Refers registry.types name name ∨
    ∃ other, other ≠ name ∧ registry.DependsOn name other ∧ registry.DependsOn other name := by
  constructor
  · intro reaches
    obtain ⟨next, refers, back⟩ := TransGen.head'_iff.mp reaches
    by_cases same : next = name
    · exact Or.inl (same ▸ refers)
    · refine Or.inr ⟨next, same, .single refers, ?_⟩
      exact (Relation.reflTransGen_iff_eq_or_transGen.mp back).resolve_left (Ne.symm same)
  · rintro (refers | ⟨other, _, out, back⟩)
    · exact .single refers
    · exact out.trans back

namespace Accepted

variable (accepted : registry.Accepted)

include accepted

theorem type?_isSome_of_dependsOn (reaches : registry.DependsOn name other) :
    (registry.type? other).isSome = true := by
  cases reaches with
  | single refers | tail _ refers =>
    obtain ⟨type, found, referred⟩ := refers
    obtain ⟨reference, refers, rfl⟩ := List.mem_map.mp referred
    exact accepted.closed (mem_of_lookupType? found) refers

theorem enumerates_of_filter {test : TypeDefinition → Bool} {holds : String → Prop}
    (exact : ∀ name, holds name ↔ ∃ type, registry.type? name = some type ∧ test type = true) :
    registry.Enumerates ((registry.types.filter test).map TypeDefinition.name) holds := by
  have ordered : ((registry.types.filter test).map TypeDefinition.name).Sublist registry.names :=
    List.filter_sublist.map _
  refine ⟨accepted.nodup_names.sublist ordered, ordered, fun name => ?_⟩
  rw [List.mem_map, exact]
  constructor
  · rintro ⟨type, kept, rfl⟩
    obtain ⟨inside, passes⟩ := List.mem_filter.mp kept
    exact ⟨type, accepted.type?_of_mem inside, passes⟩
  · rintro ⟨type, found, passes⟩
    exact ⟨type, List.mem_filter.mpr ⟨mem_of_lookupType? found, passes⟩,
      name_of_lookupType? found⟩

/-- The dependencies of a type are the other types that it reaches. -/
theorem enumerates_dependencies {dependencies : List String}
    (listed : registry.dependencies? name = some dependencies) :
    registry.Enumerates dependencies fun other =>
      other ≠ name ∧ registry.DependsOn name other := by
  obtain ⟨type, found, rfl⟩ := Option.map_eq_some_iff.mp listed
  have ordered : (registry.names.filter fun other =>
      other != name && (registry.reachable [name]).contains other).Sublist registry.names :=
    List.filter_sublist
  refine ⟨accepted.nodup_names.sublist ordered, ordered, fun other => ?_⟩
  rw [List.mem_filter, Bool.and_eq_true, bne_iff_ne, List.contains_iff_mem, mem_reachable_iff]
  constructor
  · rintro ⟨_, different, _, origin, only, reaches⟩
    rw [List.mem_singleton.mp only] at reaches
    exact ⟨different, (Relation.reflTransGen_iff_eq_or_transGen.mp reaches).resolve_left different⟩
  · rintro ⟨different, reaches⟩
    have registered := accepted.type?_isSome_of_dependsOn reaches
    obtain ⟨target, defined⟩ := Option.isSome_iff_exists.mp registered
    refine ⟨?_, different, registered, name, List.mem_singleton_self name, reaches.to_reflTransGen⟩
    exact List.mem_map.mpr ⟨target, mem_of_lookupType? defined, name_of_lookupType? defined⟩

/-- The referrers of a type are the types that refer to it themselves. -/
theorem enumerates_referrers {referrers : List String}
    (listed : registry.referrers? name = some referrers) :
    registry.Enumerates referrers fun other => Refers registry.types other name := by
  obtain ⟨type, found, rfl⟩ := Option.map_eq_some_iff.mp listed
  refine accepted.enumerates_of_filter fun other => ?_
  simp only [List.contains_iff_mem]
  rfl

theorem isRecursive_iff (inside : type ∈ registry.types) :
    registry.isRecursive type = true ↔ registry.DependsOn type.name type.name := by
  have found := accepted.type?_of_mem inside
  unfold isRecursive DependsOn
  rw [List.contains_iff_mem, mem_reachable_iff, TransGen.head'_iff]
  constructor
  · rintro ⟨_, next, referred, reaches⟩
    exact ⟨next, ⟨type, found, referred⟩, reaches⟩
  · rintro ⟨next, ⟨source, own, referred⟩, reaches⟩
    cases found.symm.trans own
    exact ⟨Option.isSome_iff_exists.mpr ⟨type, found⟩, next, referred, reaches⟩

/-- The recursive types are those that reach themselves. -/
theorem enumerates_recursiveNames :
    registry.Enumerates registry.recursiveNames fun name => registry.DependsOn name name := by
  refine accepted.enumerates_of_filter fun name => ⟨fun reaches => ?_, ?_⟩
  · obtain ⟨type, found⟩ :=
      Option.isSome_iff_exists.mp (accepted.type?_isSome_of_dependsOn reaches)
    refine ⟨type, found, (accepted.isRecursive_iff (mem_of_lookupType? found)).mpr ?_⟩
    rwa [name_of_lookupType? found]
  · rintro ⟨type, found, recursive⟩
    have reaches := (accepted.isRecursive_iff (mem_of_lookupType? found)).mp recursive
    rwa [name_of_lookupType? found] at reaches

/-- The walk from a type visits the type itself and its dependencies. -/
theorem perm_visitedNames {dependencies : List String}
    (listed : registry.dependencies? name = some dependencies) :
    (visitedNames (walk registry.types [name])).Perm (name :: dependencies) := by
  obtain ⟨type, found, _⟩ := Option.map_eq_some_iff.mp listed
  have enumerated := accepted.enumerates_dependencies listed
  have itself : name ∉ dependencies := fun among => ((enumerated.exact name).mp among).1 rfl
  refine (List.perm_ext_iff_of_nodup nodup_visitedNames.1
    (List.nodup_cons.mpr ⟨itself, enumerated.once⟩)).mpr fun other => ?_
  show other ∈ registry.reachable [name] ↔ _
  rw [mem_reachable_iff, List.mem_cons, enumerated.exact]
  constructor
  · rintro ⟨_, origin, only, reaches⟩
    rw [List.mem_singleton.mp only] at reaches
    by_cases same : other = name
    · exact Or.inl same
    · exact Or.inr ⟨same, (Relation.reflTransGen_iff_eq_or_transGen.mp reaches).resolve_left same⟩
  · rintro (rfl | ⟨_, reaches⟩)
    · exact ⟨Option.isSome_iff_exists.mpr ⟨type, found⟩, other, List.mem_singleton_self other,
        .refl⟩
    · exact ⟨accepted.type?_isSome_of_dependsOn reaches, name, List.mem_singleton_self name,
        reaches.to_reflTransGen⟩

/-- The recursive types are those among their own referrers, or among the dependencies of one of
their own dependencies. -/
theorem mem_recursiveNames_iff : name ∈ registry.recursiveNames ↔
    (∃ referrers, registry.referrers? name = some referrers ∧ name ∈ referrers) ∨
      ∃ dependencies other further, registry.dependencies? name = some dependencies ∧
        other ∈ dependencies ∧ registry.dependencies? other = some further ∧ name ∈ further := by
  rw [accepted.enumerates_recursiveNames.exact, dependsOn_self_iff]
  constructor
  · rintro (refers | ⟨other, different, out, back⟩)
    · have known := accepted.type?_isSome_of_dependsOn (.single refers)
      obtain ⟨referrers, listed⟩ := exists_referrers known
      exact Or.inl ⟨referrers, listed,
        ((accepted.enumerates_referrers listed).exact name).mpr refers⟩
    · obtain ⟨dependencies, listed⟩ :=
        exists_dependencies (accepted.type?_isSome_of_dependsOn back)
      obtain ⟨further, more⟩ := exists_dependencies (accepted.type?_isSome_of_dependsOn out)
      exact Or.inr ⟨dependencies, other, further, listed,
        ((accepted.enumerates_dependencies listed).exact other).mpr ⟨different, out⟩, more,
        ((accepted.enumerates_dependencies more).exact name).mpr ⟨different.symm, back⟩⟩
  · rintro (⟨referrers, listed, among⟩ | ⟨dependencies, other, further, listed, out, more, back⟩)
    · exact Or.inl (((accepted.enumerates_referrers listed).exact name).mp among)
    · obtain ⟨different, reaches⟩ := ((accepted.enumerates_dependencies listed).exact other).mp out
      exact Or.inr ⟨other, different, reaches,
        (((accepted.enumerates_dependencies more).exact name).mp back).2⟩

/-- **The graph agrees with the references.** A registered type has dependencies and referrers. The
dependencies are the other types that it reaches by its references, each once and in the order of
registration, and the walk from it visits them and itself; the referrers are the types with a
reference to it, in the same manner. The recursive types are those that reach themselves, which is
to say, refer to themselves or depend on a type that depends on them. And the references that
building the registry follows are those that its types make, with their multiplicity. -/
theorem graph_agrees :
    (∀ name, registry.contains name = true → ∃ dependencies referrers,
      registry.dependencies? name = some dependencies ∧
      registry.referrers? name = some referrers ∧
      registry.Enumerates dependencies
        (fun other => other ≠ name ∧ registry.DependsOn name other) ∧
      (visitedNames (walk registry.types [name])).Perm (name :: dependencies) ∧
      registry.Enumerates referrers fun other => Refers registry.types other name) ∧
    registry.Enumerates registry.recursiveNames (fun name => registry.DependsOn name name) ∧
    (∀ name, name ∈ registry.recursiveNames ↔
      (∃ referrers, registry.referrers? name = some referrers ∧ name ∈ referrers) ∨
        ∃ dependencies other further, registry.dependencies? name = some dependencies ∧
          other ∈ dependencies ∧ registry.dependencies? other = some further ∧ name ∈ further) ∧
    ∀ schema, Registry.build schema = .ok registry →
      (schema.walk schema.collect.1).filterMap WalkEvent.edge? = registry.references := by
  refine ⟨fun name known => ?_, accepted.enumerates_recursiveNames,
    fun _ => accepted.mem_recursiveNames_iff,
    fun _ built => (Schema.builds_of_build built).edges_eq⟩
  obtain ⟨dependencies, listed⟩ := exists_dependencies known
  obtain ⟨referrers, direct⟩ := exists_referrers known
  exact ⟨dependencies, referrers, listed, direct, accepted.enumerates_dependencies listed,
    accepted.perm_visitedNames listed, accepted.enumerates_referrers direct⟩

end Accepted

end Registry

/-- A schema of a family: a person may have a partner and lives in houses, each of which belongs to
a person and stands in a street. -/
def familySchema : Schema where
  query := some (.definition (.object {
    name := "Query"
    fields := [{ name := "head", type := .named "Person" },
      { name := "guests", type := .list (.named "Person" true) }] }))
  types := [
    .definition (.object {
      name := "Person"
      fields := [{ name := "partner", type := .named "Person" },
        { name := "houses", type := .list (.named "House") }] }),
    .definition (.object {
      name := "House"
      fields := [{ name := "owner", type := .named "Person" true },
        { name := "street", type := .named "Street" }] }),
    .definition (.object {
      name := "Street"
      fields := [{ name := "name", type := .named "String" }] })]

/-- The registry of that schema. -/
def familyRegistry : Registry :=
  familySchema.tableWithin 100

/-- A person depends on houses and, through them, on streets, but is no dependency of itself; houses
and persons are recursive. -/
theorem graph_agrees_family : familyRegistry.Accepted ∧
    (∃ dependencies, familyRegistry.dependencies? "Person" = some dependencies ∧
      "House" ∈ dependencies ∧ "Street" ∈ dependencies ∧ "Person" ∉ dependencies) ∧
    "House" ∈ familyRegistry.recursiveNames := by
  have accepted : familyRegistry.Accepted := Schema.accepted_of_soundWithin (by decide +kernel)
  have refers : ∀ source target, (familyRegistry.type? source).any (fun type =>
      (Registry.targets type).contains target) = true →
        Refers familyRegistry.types source target := by
    intro source target refers
    obtain ⟨type, found, among⟩ := Option.any_eq_true _ _ |>.mp refers
    exact ⟨type, found, List.contains_iff_mem.mp among⟩
  obtain ⟨queries, recursive, _, _⟩ := accepted.graph_agrees
  obtain ⟨dependencies, _, listed, _, enumerated, _⟩ := queries "Person" (by decide +kernel)
  have house : Refers familyRegistry.types "Person" "House" := refers _ _ (by decide +kernel)
  have street : Refers familyRegistry.types "House" "Street" := refers _ _ (by decide +kernel)
  have owner : Refers familyRegistry.types "House" "Person" := refers _ _ (by decide +kernel)
  refine ⟨accepted, ⟨dependencies, listed, ?_, ?_, ?_⟩, ?_⟩
  · exact (enumerated.exact _).mpr ⟨by decide, .single house⟩
  · exact (enumerated.exact _).mpr ⟨by decide, .tail (.single house) street⟩
  · exact fun among => ((enumerated.exact _).mp among).1 rfl
  · exact (recursive.exact _).mpr (.tail (.single owner) house)

end GraphQL
