import GraphQL.Proofs.Matching
import GraphQL.Proofs.Walk
import GraphQL.Registry.Build

/-!
# Accepted registries

A registry that was built lacks nothing: it has the built-in scalars, the introspection types and
the specified directives, each name leads to one definition, every reference leads to a definition,
and no definition has a problem.
-/

namespace GraphQL

variable {schema : Schema} {registry : Registry} {name : String} {type : TypeDefinition}

/-- A registry is what building some schema gives. -/
def Registry.Accepted (registry : Registry) : Prop :=
  ∃ schema, Registry.build schema = .ok registry

/-- What building a schema found on its way to a registry. -/
structure Schema.Builds (schema : Schema) (registry : Registry) : Prop where
  rooted : schema.query.isSome = true
  roots : schema.invalidRoot? = none
  query : registry.query = ((schema.rootNames.find? (·.1 == .query)).map (·.2)).getD ""
  mutation : registry.mutation = (schema.rootNames.find? (·.1 == .mutation)).map (·.2)
  subscription : registry.subscription =
    (schema.rootNames.find? (·.1 == .subscription)).map (·.2)
  types : registry.types = visitedTypes (schema.walk schema.collect.1)
  agreed : schema.collect.2 = []
  directives : registry.directives = schema.collectDirectives.1
  distinct : schema.collectDirectives.2 = []
  resolved : schema.referenceProblems (schema.walk schema.collect.1) registry.types
    registry.directives = []
  unobstructed : Validation.obstacle? registry.types registry.directives = none
  valid : Validation.problems registry.types registry.directives = []

/-- A registry is only built from a schema in which nothing is wrong. -/
theorem Schema.builds_of_build (built : Registry.build schema = .ok registry) :
    schema.Builds registry := by
  unfold Registry.build at built
  split at built
  · cases built
  · next roots =>
    unfold Schema.registry at built
    dsimp only at built
    split at built
    · cases built
    · next first =>
      split at built
      · cases built
      · next unobstructed =>
        split at built
        · cases built
        · next second =>
          cases built
          unfold definitionProblems at first
          simp only [Bool.not_eq_true, Bool.not_eq_false', List.isEmpty_iff,
            List.append_eq_nil_iff] at first second
          refine ⟨?_, roots, rfl, rfl, rfl, rfl, first.1.1.1, rfl, first.1.2, first.2,
            unobstructed, second⟩
          have demanded := first.1.1.2
          unfold Validation.demand at demanded
          split at demanded
          · assumption
          · cases demanded

namespace Schema

/-- The definitions that are given, in the order in which they are added. -/
def given (schema : Schema) : List Candidate :=
  schema.candidates.filterMap Except.toOption

/-- The definition of a name: the first that is given. -/
def definition? (schema : Schema) (name : String) : Option TypeDefinition :=
  (schema.given.find? (·.type.name == name)).map Candidate.type

/-- Of the definitions of a name the first is kept. -/
theorem find?_foldl_add {entries : List (Except Value Candidate)}
    {found : List Candidate × List Problem} :
    (entries.foldl add found).1.find? (·.type.name == name) =
      (found.1 ++ entries.filterMap Except.toOption).find? (·.type.name == name) := by
  induction entries generalizing found with
  | nil => rw [List.filterMap_nil, List.append_nil]; rfl
  | cons entry rest ih =>
    rw [List.foldl_cons, ih]
    cases entry with
    | error value => rfl
    | ok candidate =>
      have listed : (Except.ok candidate :: rest).filterMap Except.toOption =
          candidate :: rest.filterMap (Except.toOption (ε := Value)) := rfl
      rw [listed]
      unfold add
      dsimp only
      split
      · rw [List.append_assoc]
        rfl
      · next existing present =>
        have unchanged : (found.1 ++ rest.filterMap Except.toOption).find? (·.type.name == name) =
            (found.1 ++ candidate :: rest.filterMap Except.toOption).find?
              (·.type.name == name) := by
          rw [List.find?_append, List.find?_append, List.find?_cons]
          split
          · next named =>
            rw [eq_of_beq named] at present
            rw [present]
            rfl
          · rfl
        split <;> exact unchanged

/-- The definitions of a schema are the first of their names. -/
theorem lookupType?_collect (schema : Schema) (name : String) :
    lookupType? schema.collect.1 name = schema.definition? name := by
  show lookupType? ((schema.candidates.foldl add ([], [])).1.map Candidate.type) name = _
  unfold lookupType? definition?
  rw [List.find?_map]
  exact congrArg (Option.map Candidate.type) find?_foldl_add

/-- The types of every schema are among its definitions. -/
theorem definition?_of_builtin (builtin : lookupType? builtinTypes name = some type) :
    schema.definition? name = some type := by
  have present : (builtinTypes.map fun type => ({ type } : Candidate)).find?
      (·.type.name == name) = some { type } := by
    rw [List.find?_map]
    exact congrArg (Option.map fun type => ({ type } : Candidate)) builtin
  have first : (builtinTypes.map fun type => .ok { type }).filterMap
      (@Except.toOption Value Candidate) = builtinTypes.map fun type => { type } := by
    rw [List.filterMap_map]
    exact congrFun List.filterMap_eq_map' builtinTypes
  unfold definition? given candidates
  rw [List.append_assoc, List.filterMap_append, first, List.find?_append, present]
  rfl

theorem place_of_directiveAt? {place : Nat} {placed : PlacedDirective}
    (found : schema.directiveAt? place = some placed) : placed.place = place := by
  unfold directiveAt? at found
  split at found
  · cases found
    rfl
  · cases found

/-- What is given for a directive is the directive at its place. -/
theorem directiveAt?_of_mem {placed : PlacedDirective} (among : placed ∈ schema.placedDirectives) :
    schema.directiveAt? placed.place = some placed := by
  obtain ⟨⟨entry, place⟩, _, found⟩ := List.mem_filterMap.mp among
  unfold placedDirective? at found
  split at found <;> rwa [place_of_directiveAt? found]

section Directives

variable {placed : PlacedDirective} {directives : List PlacedDirective}

/-- Among some directives those of one place are the same. -/
def OnePerPlace (directives : List PlacedDirective) : Prop :=
  ∀ a ∈ directives, ∀ b ∈ directives, a.place = b.place → a = b

theorem onePerPlace_placedDirectives : OnePerPlace schema.placedDirectives := by
  intro a first b second same
  have found := directiveAt?_of_mem first
  rw [same, directiveAt?_of_mem second] at found
  exact (Option.some.inj found).symm

/-- A directive of a new name is put at the end. -/
theorem putDirective_of_fresh
    (fresh : ∀ other ∈ directives, other.directive.name ≠ placed.directive.name) :
    putDirective placed directives = directives ++ [placed] := by
  induction directives with
  | nil => rfl
  | cons other rest ih =>
    obtain ⟨here, later⟩ := List.forall_mem_cons.mp fresh
    unfold putDirective
    rw [if_neg (by simpa using here), ih later]
    rfl

/-- A directive that is the only one of its name stays where it is. -/
theorem putDirective_of_mem (there : placed ∈ directives)
    (only : ∀ other ∈ directives, other.directive.name = placed.directive.name → other = placed) :
    putDirective placed directives = directives := by
  induction directives with
  | nil => cases there
  | cons other rest ih =>
    obtain ⟨here, later⟩ := List.forall_mem_cons.mp only
    unfold putDirective
    split
    · next named => rw [here (eq_of_beq named)]
    · next other =>
      rcases List.mem_cons.mp there with rfl | there
      · exact absurd (beq_self_eq_true _) other
      · rw [ih there later]

theorem mem_putDirective {other : PlacedDirective}
    (among : other ∈ putDirective placed directives) : other ∈ directives ∨ other = placed := by
  induction directives with
  | nil => exact Or.inr (List.mem_singleton.mp among)
  | cons first rest ih =>
    unfold putDirective at among
    split at among
    · rcases List.mem_cons.mp among with rfl | later
      · exact Or.inr rfl
      · exact Or.inl (List.mem_cons_of_mem _ later)
    · rcases List.mem_cons.mp among with rfl | later
      · exact Or.inl List.mem_cons_self
      · exact (ih later).imp_left (List.mem_cons_of_mem _)

/-- A directive whose name is not repeated is there already, or it is put at the end. -/
theorem putDirective_of_unrepeated (same : ∀ other ∈ directives, other.place = placed.place →
      other = placed) (unrepeated : isRepeated placed directives = false) :
    (placed ∈ directives ∧ putDirective placed directives = directives) ∨
      (∀ other ∈ directives, other.directive.name ≠ placed.directive.name) ∧
        putDirective placed directives = directives ++ [placed] := by
  have only : ∀ other ∈ directives, other.directive.name = placed.directive.name →
      other = placed := by
    intro other among named
    have single := List.any_eq_false.mp unrepeated other among
    exact same other among (by simpa [named] using single)
  by_cases there : placed ∈ directives
  · exact Or.inl ⟨there, putDirective_of_mem there only⟩
  · have fresh : ∀ other ∈ directives, other.directive.name ≠ placed.directive.name := by
      intro other among named
      exact there (only other among named ▸ among)
    exact Or.inr ⟨fresh, putDirective_of_fresh fresh⟩

theorem addDirective_append_subset (found : List PlacedDirective × List Problem)
    (placed : PlacedDirective) (rest : List PlacedDirective) :
    (addDirective found placed).1 ++ rest ⊆ found.1 ++ placed :: rest := by
  intro other among
  rcases List.mem_append.mp among with there | later
  · rcases mem_putDirective there with there | rfl
    · exact List.mem_append_left _ there
    · exact List.mem_append_right _ List.mem_cons_self
  · exact List.mem_append_right _ (List.mem_cons_of_mem _ later)

/-- What adding directives one after another leads to where no name is repeated. -/
structure Collects (found directives result : List PlacedDirective) : Prop where
  kept : ∃ more, result = found ++ more ∧ more ⊆ directives
  added : directives ⊆ result
  distinct : (found.map (·.directive.name)).Nodup → (result.map (·.directive.name)).Nodup

theorem Collects.of_mem {found result : List PlacedDirective} (there : placed ∈ found)
    (collects : Collects found directives result) :
    Collects found (placed :: directives) result := by
  obtain ⟨more, rfl, among⟩ := collects.kept
  refine ⟨⟨more, rfl, List.subset_cons_of_subset _ among⟩, ?_, collects.distinct⟩
  exact List.cons_subset.mpr ⟨List.mem_append_left _ there, collects.added⟩

theorem Collects.of_fresh {found result : List PlacedDirective}
    (fresh : ∀ other ∈ found, other.directive.name ≠ placed.directive.name)
    (collects : Collects (found ++ [placed]) directives result) :
    Collects found (placed :: directives) result := by
  obtain ⟨more, rfl, among⟩ := collects.kept
  refine ⟨⟨placed :: more, List.append_assoc .., List.cons_subset_cons _ among⟩, ?_, fun own => ?_⟩
  · refine List.cons_subset.mpr ⟨?_, collects.added⟩
    exact List.mem_append_left _ (List.mem_append_right _ List.mem_cons_self)
  · refine collects.distinct ?_
    rw [List.map_append, List.nodup_append]
    refine ⟨own, List.pairwise_singleton _ _, ?_⟩
    rintro name there _ last rfl
    obtain ⟨other, otherThere, named⟩ := List.mem_map.mp there
    exact fresh other otherThere (named.trans (List.mem_singleton.mp last))

/-- Directives in which no name is repeated are all kept. -/
theorem foldl_addDirective {found : List PlacedDirective × List Problem}
    (same : OnePerPlace (found.1 ++ directives))
    (quiet : (directives.foldl addDirective found).2 = []) :
    found.2 = [] ∧ Collects found.1 directives (directives.foldl addDirective found).1 := by
  induction directives generalizing found with
  | nil => exact ⟨quiet, ⟨[], (List.append_nil _).symm, List.Subset.refl _⟩, List.nil_subset _, id⟩
  | cons placed rest ih =>
    rw [List.foldl_cons] at quiet ⊢
    have inside := addDirective_append_subset found placed rest
    obtain ⟨silent, collects⟩ :=
      ih (fun a first b second => same a (inside first) b (inside second)) quiet
    unfold addDirective at silent
    dsimp only at silent
    split at silent
    · exact absurd silent (by simp)
    · next unrepeated =>
      refine ⟨silent, ?_⟩
      have here : placed ∈ found.1 ++ placed :: rest := List.mem_append_right _ List.mem_cons_self
      have own := fun other among => same other (List.mem_append_left _ among) placed here
      rcases putDirective_of_unrepeated own (eq_false_of_ne_true unrepeated) with
        ⟨there, put⟩ | ⟨fresh, put⟩
      · rw [show (addDirective found placed).1 = found.1 from put] at collects
        exact collects.of_mem there
      · rw [show (addDirective found placed).1 = found.1 ++ [placed] from put] at collects
        exact collects.of_fresh fresh

/-- Directives are added without a problem if those of one name stand at one place. -/
theorem foldl_addDirective_quiet {found : List PlacedDirective × List Problem}
    (single : ∀ a ∈ found.1 ++ directives, ∀ b ∈ found.1 ++ directives,
      a.directive.name = b.directive.name → a.place = b.place) (silent : found.2 = []) :
    (directives.foldl addDirective found).2 = [] := by
  induction directives generalizing found with
  | nil => exact silent
  | cons placed rest ih =>
    have inside := addDirective_append_subset found placed rest
    refine ih (fun a first b second => single a (inside first) b (inside second)) ?_
    have here : placed ∈ found.1 ++ placed :: rest := List.mem_append_right _ List.mem_cons_self
    have unrepeated : isRepeated placed found.1 = false := by
      refine List.any_eq_false.mpr fun other among => ?_
      have same := single other (List.mem_append_left _ among) placed here
      simpa using same
    unfold addDirective
    dsimp only
    rwa [unrepeated]

/-- Where nothing is wrong with the directives of a schema, they are all kept. -/
theorem collects_placedDirectives (quiet : schema.collectDirectives.2 = []) :
    ∃ result, Collects [] schema.placedDirectives result ∧
      schema.collectDirectives.1 = result.map PlacedDirective.directive := by
  have silent : (schema.placedDirectives.foldl addDirective ([], [])).2 = [] := quiet
  exact ⟨_, (foldl_addDirective onePerPlace_placedDirectives silent).2, rfl⟩

theorem exists_mem_placedDirectives {directive : Directive}
    (listed : .directive directive ∈ schema.listedDirectives) :
    ∃ placed ∈ schema.placedDirectives, placed.directive = directive := by
  obtain ⟨place, there⟩ := List.mem_iff_getElem?.mp listed
  have found : schema.directiveAt? place = some { directive, place } := by
    unfold directiveAt?
    rw [there]
  refine ⟨_, List.mem_filterMap.mpr ⟨(.directive directive, place), ?_, found⟩, rfl⟩
  exact List.mem_zipIdx_iff_getElem?.mpr there

end Directives

/-- The walk over the definitions of a schema, as far as a number of steps leads. -/
def walkedWithin (schema : Schema) (steps : Nat) : Option (List WalkEvent) :=
  walkReferencesWithin schema.collect.1 steps []
    (schema.rootReferences.map (·.2) ++
      (Introspection.schema.name :: schema.collect.1.map TypeDefinition.name).map TypeRef.named)

/-- A walk that ends within a number of steps computes the walk over the definitions. -/
theorem walk_eq_of_within {steps : Nat} (enough : (schema.walkedWithin steps).isSome = true) :
    schema.walk schema.collect.1 = (schema.walkedWithin steps).getD [] := by
  refine walkReferences_eq_of_within (?_ : schema.walkedWithin steps = _)
  cases walked : schema.walkedWithin steps with
  | none =>
    rw [walked] at enough
    cases enough
  | some events => rfl

/-- The table of a schema, as far as a number of steps leads. -/
def tableWithin (schema : Schema) (steps : Nat) : Registry :=
  schema.table ((schema.walkedWithin steps).getD [])

/-- Nothing is wrong with a schema, as far as a number of steps leads. -/
def soundWithin (schema : Schema) (steps : Nat) : Bool :=
  schema.invalidRoot?.isNone && (schema.walkedWithin steps).isSome &&
    (schema.definitionProblems ((schema.walkedWithin steps).getD [])).isEmpty &&
    (Validation.obstacle? (schema.tableWithin steps).types
      (schema.tableWithin steps).directives).isNone &&
    (Validation.problems (schema.tableWithin steps).types
      (schema.tableWithin steps).directives).isEmpty

/-- A schema with which nothing is wrong, as far as enough steps lead, has its table as registry. -/
theorem build_of_soundWithin {steps : Nat} (sound : schema.soundWithin steps = true) :
    Registry.build schema = .ok (schema.tableWithin steps) := by
  unfold soundWithin at sound
  simp only [Bool.and_eq_true, Option.isNone_iff_eq_none] at sound
  obtain ⟨⟨⟨⟨roots, enough⟩, first⟩, unobstructed⟩, second⟩ := sound
  unfold Registry.build
  rw [roots, walk_eq_of_within enough]
  dsimp only
  unfold Schema.registry
  have table : schema.table ((schema.walkedWithin steps).getD []) = schema.tableWithin steps := rfl
  dsimp only
  rw [first, table, unobstructed, second]
  rfl

theorem accepted_of_soundWithin {steps : Nat} (sound : schema.soundWithin steps = true) :
    (schema.tableWithin steps).Accepted :=
  ⟨schema, build_of_soundWithin sound⟩

/-- The walk over the definitions of a schema visits each of them. -/
theorem lookupType?_walk (schema : Schema) (name : String) :
    lookupType? (visitedTypes (schema.walk schema.collect.1)) name =
      lookupType? schema.collect.1 name := by
  cases defined : lookupType? schema.collect.1 name with
  | none =>
    refine List.find?_eq_none.mpr fun type member => ?_
    have visited := lookupType?_of_visit_references (mem_visitedTypes.mp member)
    intro named
    rw [beq_iff_eq.mp named, defined] at visited
    cases visited
  | some type =>
    have named := name_of_lookupType? defined
    have given : TypeRef.named name ∈ schema.rootReferences.map (·.2) ++
        (Introspection.schema.name :: schema.collect.1.map TypeDefinition.name).map
          TypeRef.named := by
      refine List.mem_append_right _ (List.mem_map_of_mem (List.mem_cons_of_mem _ ?_))
      exact List.mem_map.mpr ⟨type, mem_of_lookupType? defined, named⟩
    have met : name ∈ ([] : List String) ∨ .visit type ∈ schema.walk schema.collect.1 :=
      seen_or_visit_references given defined
    rcases met with known | visited
    · cases known
    · cases found : lookupType? (visitedTypes (schema.walk schema.collect.1)) name with
      | none =>
        refine absurd ?_ (List.find?_eq_none.mp found type (mem_visitedTypes.mpr visited))
        exact beq_iff_eq.mpr named
      | some other =>
        have inside := mem_visitedTypes.mp (mem_of_lookupType? found)
        have same := lookupType?_of_visit_references inside
        rw [name_of_lookupType? found, defined] at same
        exact same.symm

/-- What the walk over the definitions of a schema visits is the definition of its name. -/
theorem lookupType?_of_mem_walk (member : type ∈ visitedTypes (schema.walk schema.collect.1)) :
    lookupType? schema.collect.1 type.name = some type :=
  lookupType?_of_visit_references (mem_visitedTypes.mp member)

namespace Builds

/-- The table of a registry has the definitions that the schema has. -/
theorem type?_eq (builds : schema.Builds registry) (name : String) :
    registry.type? name = lookupType? schema.collect.1 name := by
  unfold Registry.type?
  rw [builds.types]
  exact schema.lookupType?_walk name

/-- The directives of a registry are those of the schema, each under its name. -/
theorem collects (builds : schema.Builds registry) :
    ∃ result, Collects [] schema.placedDirectives result ∧
      registry.directives = result.map PlacedDirective.directive := by
  rw [builds.directives]
  exact collects_placedDirectives builds.distinct

/-- A directive that is given is the one of its name. -/
theorem directive?_of_mem (builds : schema.Builds registry) {placed : PlacedDirective}
    (given : placed ∈ schema.placedDirectives) :
    registry.directive? placed.directive.name = some placed.directive := by
  obtain ⟨result, collects, directives⟩ := builds.collects
  have distinct : (registry.directives.map Directive.name).Nodup := by
    rw [directives, List.map_map]
    exact collects.distinct List.nodup_nil
  refine find?_of_distinct distinct ?_
  rw [directives]
  exact List.mem_map_of_mem (collects.added given)

/-- No name is registered twice. -/
theorem nodup_names (builds : schema.Builds registry) : registry.names.Nodup := by
  unfold Registry.names
  rw [builds.types]
  exact nodup_visitedNames_references.1

/-- A registered definition is the one of its name. -/
theorem type?_of_mem (builds : schema.Builds registry) (member : type ∈ registry.types) :
    registry.type? type.name = some type := by
  rw [builds.type?_eq]
  rw [builds.types] at member
  exact lookupType?_of_mem_walk member

/-- Every reference of a registered definition leads to a definition. -/
theorem closed (builds : schema.Builds registry) (member : type ∈ registry.types)
    {reference : Reference} (refers : reference ∈ type.references) :
    (registry.type? reference.target).isSome = true := by
  rw [builds.types] at member
  have met := referenceEvent_mem_references (mem_visitedTypes.mp member) refers
  have resolved := builds.resolved
  unfold referenceProblems at resolved
  rw [List.append_eq_nil_iff, List.append_eq_nil_iff] at resolved
  have unproblematic := List.filterMap_eq_nil_iff.mp resolved.1.1 _ met
  rw [builds.type?_eq]
  cases defined : lookupType? schema.collect.1 reference.target with
  | some target => rfl
  | none =>
    unfold referenceEvent at unproblematic
    rw [defined] at unproblematic
    cases unproblematic

/-- The root type of queries is referred to, if not by a name. -/
theorem exists_query_reference (builds : schema.Builds registry) :
    ∃ ref, (.query, ref) ∈ schema.rootReferences := by
  obtain ⟨root, given⟩ := Option.isSome_iff_exists.mp builds.rooted
  have listed : (.query, root) ∈ schema.roots :=
    List.mem_filterMap.mpr ⟨.query, List.mem_cons_self, congrArg (Option.map _) given⟩
  cases root with
  | reference ref => exact ⟨ref, List.mem_filterMap.mpr ⟨_, listed, rfl⟩⟩
  | definition type => exact ⟨.named type.name, List.mem_filterMap.mpr ⟨_, listed, rfl⟩⟩
  | invalid value =>
    have valid := List.findSome?_eq_none_iff.mp builds.roots _ listed
    cases valid

/-- A reference to a root type is the name of an object type. -/
theorem root_isObject (builds : schema.Builds registry) {kind : OperationKind} {ref : TypeRef}
    (referred : (kind, ref) ∈ schema.rootReferences) :
    ∃ name object, ref.plainName? = some name ∧ registry.type? name = some (.object object) := by
  have resolved := builds.resolved
  unfold referenceProblems at resolved
  rw [List.append_eq_nil_iff, List.append_eq_nil_iff] at resolved
  obtain ⟨⟨found, _⟩, objects⟩ := resolved
  have given : ref ∈ schema.rootReferences.map (·.2) ++
      (Introspection.schema.name :: schema.collect.1.map TypeDefinition.name).map TypeRef.named :=
    List.mem_append_left _ (List.mem_map.mpr ⟨_, referred, rfl⟩)
  cases plain : ref.plainName? with
  | none => cases List.filterMap_eq_nil_iff.mp found _ (missingRoot_mem_of_broken given plain)
  | some name =>
    have named : ref = .named name := by
      cases ref with
      | named own required =>
        cases required with
        | true => cases plain
        | false =>
          cases plain
          rfl
      | list item required => cases plain
    rw [named] at given
    cases defined : lookupType? schema.collect.1 name with
    | none =>
      have missed := missingRoot_mem given defined List.not_mem_nil
      cases List.filterMap_eq_nil_iff.mp found _ missed
    | some type =>
      have registered : registry.type? name = some type := (builds.type?_eq name).trans defined
      have listed : (kind, name) ∈ schema.rootNames :=
        List.mem_filterMap.mpr ⟨_, referred, congrArg (Option.map (kind, ·)) plain⟩
      have unproblematic := List.flatMap_eq_nil_iff.mp objects _ listed
      dsimp only at unproblematic
      split at unproblematic
      · next object typed => exact ⟨name, object, rfl, typed⟩
      · next missing => cases registered.symm.trans missing
      · cases unproblematic

/-- The root type of queries is an object type. -/
theorem query_isObject (builds : schema.Builds registry) :
    ∃ object, registry.type? registry.query = some (.object object) := by
  obtain ⟨ref, referred⟩ := builds.exists_query_reference
  obtain ⟨name, _, plain, _⟩ := builds.root_isObject referred
  have listed : (.query, name) ∈ schema.rootNames :=
    List.mem_filterMap.mpr ⟨_, referred, congrArg (Option.map (OperationKind.query, ·)) plain⟩
  cases first : schema.rootNames.find? (·.1 == .query) with
  | none => exact absurd (beq_self_eq_true _) (List.find?_eq_none.mp first _ listed)
  | some entry =>
    obtain ⟨⟨kind, own⟩, inside, named⟩ :=
      List.mem_filterMap.mp (List.mem_of_find?_eq_some first)
    obtain ⟨ownName, object, ownPlain, typed⟩ := builds.root_isObject inside
    dsimp only at named
    rw [ownPlain] at named
    cases named
    rw [builds.query, first]
    exact ⟨object, typed⟩

end Builds

end Schema

/-- A field that a selection on a type means is declared there or is one of the fields that
introspect a schema. -/
theorem Registry.mem_of_field? {title : String} {field : Field}
    (found : registry.field? type title = some field) :
    field ∈ type.outputFields ∨ field ∈ [Introspection.typenameField, Introspection.schemaField,
      Introspection.typeField] := by
  unfold Registry.field? at found
  split at found
  · cases found
    exact Or.inr List.mem_cons_self
  · split at found
    · cases found
      exact Or.inr (List.mem_cons_of_mem _ List.mem_cons_self)
    · split at found
      · cases found
        exact Or.inr (List.mem_cons_of_mem _ (List.mem_cons_of_mem _ List.mem_cons_self))
      · exact Or.inl (List.mem_of_find?_eq_some found)

/-- The input type that a definition defines. -/
def TypeDefinition.input? : TypeDefinition → Option InputType
  | .input type => some type
  | _ => none

/-- The values that a definition gives to symbols. -/
def TypeDefinition.symbolValues : TypeDefinition → List Value
  | .enum type => type.values.map (·.value)
  | _ => []

/-- The input types of a registry. -/
def Registry.inputs (registry : Registry) : List InputType :=
  registry.types.filterMap TypeDefinition.input?

/-- The values that the enum types of a registry give to symbols. -/
def Registry.symbolValues (registry : Registry) : List Value :=
  registry.types.flatMap TypeDefinition.symbolValues

theorem Registry.mem_inputs {name : String} {type : InputType}
    (found : registry.type? name = some (.input type)) : type ∈ registry.inputs :=
  List.mem_filterMap.mpr ⟨_, mem_of_lookupType? found, rfl⟩

theorem Registry.mem_symbolValues {name : String} {type : EnumType} {entry : EnumValue}
    (found : registry.type? name = some (.enum type)) (among : entry ∈ type.values) :
    entry.value ∈ registry.symbolValues :=
  List.mem_flatMap.mpr ⟨_, mem_of_lookupType? found, List.mem_map_of_mem among⟩

namespace Registry.Accepted

/-- The types of every schema are registered. -/
theorem type?_of_builtin (accepted : registry.Accepted)
    (builtin : lookupType? Schema.builtinTypes name = some type) :
    registry.type? name = some type := by
  obtain ⟨schema, built⟩ := accepted
  rw [(Schema.builds_of_build built).type?_eq, Schema.lookupType?_collect]
  exact Schema.definition?_of_builtin builtin

/-- The built-in scalars are registered under their names. -/
theorem type?_scalar (accepted : registry.Accepted) (scalar : BuiltinScalar) :
    registry.type? scalar.name = some (.scalar scalar.type) := by
  refine accepted.type?_of_builtin ?_
  cases scalar <;> rfl

/-- The specified directives are registered under their names. -/
theorem directive?_of_specified (accepted : registry.Accepted) {directive : Directive}
    (specified : Directive.specified.find? (·.name == name) = some directive) :
    registry.directive? name = some directive := by
  obtain ⟨schema, built⟩ := accepted
  have builds := Schema.builds_of_build built
  have listed : .directive directive ∈ schema.listedDirectives :=
    List.mem_append_left _ (List.mem_map_of_mem (List.mem_of_find?_eq_some specified))
  obtain ⟨placed, given, same⟩ := Schema.exists_mem_placedDirectives listed
  have found := builds.directive?_of_mem given
  rwa [same, key_of_find? specified] at found

/-- No name is registered twice. -/
theorem nodup_names (accepted : registry.Accepted) : registry.names.Nodup := by
  obtain ⟨schema, built⟩ := accepted
  exact (Schema.builds_of_build built).nodup_names

/-- A registered definition is the one of its name. -/
theorem type?_of_mem (accepted : registry.Accepted) (member : type ∈ registry.types) :
    registry.type? type.name = some type := by
  obtain ⟨schema, built⟩ := accepted
  exact (Schema.builds_of_build built).type?_of_mem member

/-- Every reference of a registered definition leads to a definition. -/
theorem closed (accepted : registry.Accepted) (member : type ∈ registry.types)
    {reference : Reference} (refers : reference ∈ type.references) :
    (registry.type? reference.target).isSome = true := by
  obtain ⟨schema, built⟩ := accepted
  exact (Schema.builds_of_build built).closed member refers

/-- The type and the arguments of a field lead to registered types. -/
theorem field_closed (accepted : registry.Accepted) (member : type ∈ registry.types)
    {title : String} {field : Field} (found : registry.field? type title = some field) :
    (registry.type? field.type.name).isSome = true ∧
      ∀ arg ∈ field.args, (registry.type? arg.type.name).isSome = true := by
  have builtin : ∀ name, (lookupType? Schema.builtinTypes name).isSome = true →
      (registry.type? name).isSome = true := by
    intro name known
    obtain ⟨definition, isBuiltin⟩ := Option.isSome_iff_exists.mp known
    rw [accepted.type?_of_builtin isBuiltin]
    rfl
  have declared : ∀ field ∈ type.outputFields, ∀ reference ∈ field.references,
      reference ∈ type.references := by
    intro field among reference refers
    cases type with
    | object _ | interface _ =>
      exact List.mem_append_left _ (List.mem_flatMap.mpr ⟨field, among, refers⟩)
    | scalar _ | enum _ | union _ | input _ | custom _ _ => cases among
  rcases Registry.mem_of_field? found with among | fixed
  · refine ⟨accepted.closed member (declared field among _ List.mem_cons_self), fun arg given => ?_⟩
    exact accepted.closed member (declared field among _
      (List.mem_cons_of_mem _ (List.mem_map.mpr ⟨arg, given, rfl⟩)))
  · simp only [List.mem_cons, List.not_mem_nil, or_false] at fixed
    rcases fixed with rfl | rfl | rfl
    · exact ⟨builtin _ rfl, fun _ none => absurd none List.not_mem_nil⟩
    · exact ⟨builtin _ rfl, fun _ none => absurd none List.not_mem_nil⟩
    · refine ⟨builtin _ rfl, fun arg only => ?_⟩
      cases List.mem_singleton.mp only
      exact builtin _ rfl

/-- The root type of queries is an object type. -/
theorem query_isObject (accepted : registry.Accepted) :
    ∃ object, registry.type? registry.query = some (.object object) := by
  obtain ⟨schema, built⟩ := accepted
  exact (Schema.builds_of_build built).query_isObject

/-- No registered definition has a problem. -/
theorem valid (accepted : registry.Accepted) :
    Validation.problems registry.types registry.directives = [] := by
  obtain ⟨schema, built⟩ := accepted
  exact (Schema.builds_of_build built).valid

/-- No registered definition is an obstacle to validation. -/
theorem unobstructed (accepted : registry.Accepted) :
    Validation.obstacle? registry.types registry.directives = none := by
  obtain ⟨schema, built⟩ := accepted
  exact (Schema.builds_of_build built).unobstructed

end Registry.Accepted

end GraphQL
