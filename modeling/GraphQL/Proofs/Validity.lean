import GraphQL.Proofs.Accepted
import GraphQL.Proofs.Agreement
import GraphQL.Proofs.WellFormed

/-!
# Valid schemas

A schema is valid when its definitions of one name are equal, its directives of one name are one
object, its roots are object types, nothing refers to a name without a definition, and all types and
directives are well-formed. Building succeeds for exactly the valid schemas, and a registry that was
built has every definition, root and directive that the schema gives, and no other directives.
-/

namespace GraphQL

variable {schema : Schema} {registry : Registry}

/-- Whether a root type is given by its name or by its definition. -/
def RootType.isPlain : RootType → Bool
  | reference ref => ref.plainName?.isSome
  | definition _ => true
  | invalid _ => false

/-- The name of a root type. -/
def RootType.name? : RootType → Option String
  | reference ref => ref.plainName?
  | definition type => some type.name
  | invalid _ => none

/-- Whether an entry of a list of types stands for a definition. -/
def ListedType.isDefinition : ListedType → Bool
  | definition _ | again _ => true
  | stray _ => false

/-- If two definitions have one name, the first agrees with the second. -/
def Candidate.Compatible (a b : Candidate) : Prop :=
  a.type.name = b.type.name → a.agrees b = true

namespace Schema

/-- Whether a schema has the form of one: roots by name or definition, types of the six kinds that
list interfaces and members by plain names, and no mapping in them with one key twice. -/
def isPlain (schema : Schema) : Bool :=
  schema.roots.all (·.2.isPlain) && schema.types.all ListedType.isDefinition &&
    schema.given.all fun candidate => candidate.type.isPlain && candidate.type.isProper

theorem isPlain_iff :
    schema.isPlain = true ↔ schema.roots.all (·.2.isPlain) = true ∧
      schema.types.all ListedType.isDefinition = true ∧
        ∀ candidate ∈ schema.given,
          candidate.type.isPlain = true ∧ candidate.type.isProper = true := by
  unfold isPlain
  simp only [Bool.and_eq_true, List.all_eq_true, and_assoc]

/-- The name of the root type of an operation. -/
def rootName? (schema : Schema) (kind : OperationKind) : Option String :=
  (schema.root? kind).bind RootType.name?

/-- Nothing is wrong with a schema. -/
structure Valid (schema : Schema) : Prop where
  agree : schema.given.Pairwise Candidate.Compatible
  directives : ∀ a ∈ schema.placedDirectives, ∀ b ∈ schema.placedDirectives,
    a.directive.name = b.directive.name → a.place = b.place
  query : schema.query.isSome = true
  roots : ∀ kind root, schema.root? kind = some root → ∃ name object,
    root.name? = some name ∧ schema.definition? name = some (.object object)
  references : ∀ name type, schema.definition? name = some type →
    ∀ reference ∈ type.references, (schema.definition? reference.target).isSome = true
  argumentTypes : ∀ placed ∈ schema.placedDirectives, ∀ arg ∈ placed.directive.args,
    (schema.definition? arg.type.name).isSome = true
  types : ∀ name type, schema.definition? name = some type → type.WellFormed schema.definition?
  arguments : ∀ placed ∈ schema.placedDirectives,
    placed.directive.WellFormed schema.definition?

/-- A registry has what a schema gives: under each name the definition of that name, which agrees
with all others that are given for it, the roots, and the directives without any other. -/
structure Keeps (schema : Schema) (registry : Registry) : Prop where
  types : ∀ name, registry.type? name = schema.definition? name
  given : ∀ candidate ∈ schema.given, ∃ own ∈ schema.given,
    registry.type? candidate.type.name = some own.type ∧
      (own = candidate ∨ own.agrees candidate = true)
  names : registry.names.Nodup
  roots : ∀ kind, registry.root? kind = schema.rootName? kind
  directives : ∀ placed ∈ schema.placedDirectives,
    registry.directive? placed.directive.name = some placed.directive
  noOthers : ∀ directive ∈ registry.directives, ∃ placed ∈ schema.placedDirectives,
    placed.directive = directive
  directiveNames : (registry.directives.map Directive.name).Nodup

end Schema

/-! ## Definitions of one name -/

/-- Two definitions with which a third agrees agree with one another. -/
theorem Candidate.agrees_of_agrees {a b c : Candidate} (proper : a.type.isProper = true)
    (single : ∀ other : Candidate, other = b ∨ other = c → a.isSame other = true →
      a.type = other.type)
    (first : a.agrees b = true) (second : a.agrees c = true) : b.agrees c = true := by
  unfold agrees at *
  rw [Bool.or_eq_true] at *
  rcases first with one | equal
  · rcases second with same | equal
    · unfold isSame at *
      simp only [Bool.and_eq_true, beq_iff_eq] at *
      exact Or.inl ⟨one.2 ▸ one.1, one.2 ▸ same.2⟩
    · exact Or.inr (single b (Or.inl rfl) one ▸ equal)
  · have back := TypeDefinition.agrees_symm proper equal
    rcases second with same | equal
    · exact Or.inr (single c (Or.inr rfl) same ▸ back)
    · exact Or.inr (TypeDefinition.agrees_trans back equal)

namespace Schema

/-- A definition with a position is the one there. -/
theorem definition_of_position {candidate : Candidate} (among : candidate ∈ schema.given)
    {position : Nat} (placed : candidate.position = some position) :
    schema.types[position]? = some (.definition candidate.type) := by
  obtain ⟨entry, listed, same⟩ := List.mem_filterMap.mp among
  cases entry with
  | error value => cases same
  | ok own =>
    cases same
    rcases List.mem_append.mp listed with unlisted | listed
    · rcases List.mem_append.mp unlisted with builtin | root
      · obtain ⟨type, _, same⟩ := List.mem_map.mp builtin
        cases same
        cases placed
      · obtain ⟨⟨kind, root⟩, _, same⟩ := List.mem_filterMap.mp root
        cases root with
        | definition type =>
          cases same
          cases placed
        | reference _ | invalid _ => cases same
    · obtain ⟨⟨entry, place⟩, there, same⟩ := List.mem_filterMap.mp listed
      have found : schema.types[place]? = some entry := List.mem_zipIdx_iff_getElem?.mp there
      cases entry with
      | definition type =>
        cases same
        cases placed
        exact found
      | again earlier =>
        unfold candidate? at same
        dsimp only at same
        split at same
        · next type there =>
          cases same
          cases placed
          exact there
        · cases same
      | stray value => cases same

theorem type_eq_of_isSame {a b : Candidate} (first : a ∈ schema.given) (second : b ∈ schema.given)
    (same : a.isSame b = true) : a.type = b.type := by
  obtain ⟨placed, equal⟩ := Bool.and_eq_true_iff.mp same
  obtain ⟨position, there⟩ := Option.isSome_iff_exists.mp placed
  have found := definition_of_position first there
  rw [definition_of_position second ((beq_iff_eq.mp equal).symm.trans there)] at found
  exact (ListedType.definition.inj (Option.some.inj found)).symm

/-- Adding more definitions takes no problem back. -/
theorem quiet_of_foldl_add {entries : List (Except Value Candidate)}
    {found : List Candidate × List Problem} (quiet : (entries.foldl add found).2 = []) :
    found.2 = [] := by
  induction entries generalizing found with
  | nil => exact quiet
  | cons entry rest ih =>
    have before := ih quiet
    unfold add at before
    split at before
    · exact absurd before (by simp)
    · dsimp only at before
      split at before
      · exact before
      · split at before
        · exact before
        · exact absurd before (by simp)

/-- Candidates agree with what was found under their names and, under one name, with each other. -/
def Accord (found candidates : List Candidate) : Prop :=
  (∀ candidate ∈ candidates, ∀ existing,
    found.find? (·.type.name == candidate.type.name) = some existing →
      existing.agrees candidate = true) ∧
    candidates.Pairwise Candidate.Compatible

section Accord

variable {found rest all : List Candidate} {candidate existing : Candidate}

/-- A candidate of a new name is found from then on. -/
theorem accord_cons_of_fresh
    (fresh : found.find? (·.type.name == candidate.type.name) = none) :
    Accord found (candidate :: rest) ↔ Accord (found ++ [candidate]) rest := by
  unfold Accord
  rw [List.forall_mem_cons, List.pairwise_cons]
  constructor
  · rintro ⟨⟨_, agree⟩, single, compatible⟩
    refine ⟨fun other among existing there => ?_, compatible⟩
    rcases Option.or_eq_some_iff.mp (List.find?_append ▸ there) with before | ⟨_, last⟩
    · exact agree other among existing before
    · have only := List.mem_singleton.mp (List.mem_of_find?_eq_some last)
      have named : existing.type.name = other.type.name := by simpa using List.find?_some last
      rw [only] at named ⊢
      exact single other among named
  · rintro ⟨agree, compatible⟩
    refine ⟨⟨fun existing there => ?_, fun other among existing there => ?_⟩,
      fun other among named => agree other among candidate ?_, compatible⟩
    · rw [fresh] at there
      cases there
    · refine agree other among existing ?_
      rw [List.find?_append, there]
      rfl
    · rw [List.find?_append, ← named, fresh]
      simp

/-- A candidate that agrees with what was found under its name adds nothing. -/
theorem accord_cons_of_agrees
    (euclidean : ∀ a ∈ all, ∀ b ∈ all, ∀ c ∈ all, a.agrees b = true → a.agrees c = true →
      b.agrees c = true) (inside : found ++ candidate :: rest ⊆ all)
    (present : found.find? (·.type.name == candidate.type.name) = some existing)
    (agrees : existing.agrees candidate = true) :
    Accord found (candidate :: rest) ↔ Accord found rest := by
  unfold Accord
  rw [List.forall_mem_cons, List.pairwise_cons]
  constructor
  · rintro ⟨⟨_, agree⟩, _, compatible⟩
    exact ⟨agree, compatible⟩
  · rintro ⟨agree, compatible⟩
    refine ⟨⟨fun other there => ?_, agree⟩, fun other among same => ?_, compatible⟩
    · rw [present] at there
      cases there
      exact agrees
    · have known := inside (List.mem_append_left _ (List.mem_of_find?_eq_some present))
      have here := inside (List.mem_append_right _ List.mem_cons_self)
      have there := inside (List.mem_append_right _ (List.mem_cons_of_mem _ among))
      exact euclidean existing known candidate here other there agrees
        (agree other among existing (same ▸ present))

/-- Definitions are added without a problem if they accord with what was found before. -/
theorem foldl_add_quiet_iff {candidates : List Candidate} {found : List Candidate × List Problem}
    (euclidean : ∀ a ∈ all, ∀ b ∈ all, ∀ c ∈ all, a.agrees b = true → a.agrees c = true →
      b.agrees c = true) (inside : found.1 ++ candidates ⊆ all) :
    ((candidates.map Except.ok).foldl add found).2 = [] ↔
      found.2 = [] ∧ Accord found.1 candidates := by
  induction candidates generalizing found with
  | nil => simp [Accord]
  | cons candidate rest ih =>
    rw [List.map_cons, List.foldl_cons]
    cases present : found.1.find? (·.type.name == candidate.type.name) with
    | none =>
      have added : add found (.ok candidate) = (found.1 ++ [candidate], found.2) := by
        unfold add
        dsimp only
        rw [present]
      rw [added, ih (by simpa using inside), accord_cons_of_fresh present]
    | some existing =>
      cases agrees : existing.agrees candidate with
      | true =>
        have kept : add found (.ok candidate) = found := by
          unfold add
          dsimp only
          rw [present]
          dsimp only
          rw [if_pos agrees]
        have later : found.1 ++ rest ⊆ all := fun other among => inside <|
          (List.mem_append.mp among).elim (List.mem_append_left _)
            fun after => List.mem_append_right _ (List.mem_cons_of_mem _ after)
        rw [kept, ih later, accord_cons_of_agrees euclidean inside present agrees]
      | false =>
        constructor
        · intro quiet
          have silent := quiet_of_foldl_add quiet
          unfold add at silent
          dsimp only at silent
          rw [present] at silent
          dsimp only at silent
          rw [agrees] at silent
          exact absurd silent (by simp)
        · rintro ⟨_, agree, _⟩
          rw [agree candidate List.mem_cons_self existing present] at agrees
          cases agrees

end Accord

/-- Everything that a plain schema lists is a definition. -/
theorem candidates_eq_given (definitions : schema.types.all ListedType.isDefinition = true) :
    schema.candidates = schema.given.map Except.ok := by
  have isOk : ∀ entry ∈ schema.candidates, ∃ candidate, entry = Except.ok candidate := by
    intro entry listed
    rcases List.mem_append.mp listed with unlisted | listed
    · rcases List.mem_append.mp unlisted with builtin | root
      · obtain ⟨type, _, rfl⟩ := List.mem_map.mp builtin
        exact ⟨_, rfl⟩
      · obtain ⟨⟨kind, root⟩, _, same⟩ := List.mem_filterMap.mp root
        cases root with
        | definition type => exact ⟨_, (Option.some.inj same).symm⟩
        | reference _ | invalid _ => cases same
    · obtain ⟨⟨own, place⟩, there, same⟩ := List.mem_filterMap.mp listed
      have definition := List.all_eq_true.mp definitions own
        (List.mem_of_getElem? (List.mem_zipIdx_iff_getElem?.mp there))
      unfold candidate? at same
      cases own with
      | definition type => exact ⟨_, (Option.some.inj same).symm⟩
      | again earlier =>
        dsimp only at same
        split at same
        · exact ⟨_, (Option.some.inj same).symm⟩
        · cases same
      | stray value => cases definition
  have kept : ∀ entries : List (Except Value Candidate),
      (∀ entry ∈ entries, ∃ candidate, entry = Except.ok candidate) →
        entries = (entries.filterMap Except.toOption).map Except.ok := by
    intro entries isOk
    induction entries with
    | nil => rfl
    | cons entry rest ih =>
      obtain ⟨⟨candidate, rfl⟩, later⟩ := List.forall_mem_cons.mp isOk
      exact congrArg (Except.ok candidate :: ·) (ih later)
  exact kept _ isOk

/-- The definitions are collected without a problem if those of one name agree. -/
theorem collect_quiet_iff (definitions : schema.types.all ListedType.isDefinition = true)
    (proper : ∀ candidate ∈ schema.given, candidate.type.isProper = true) :
    schema.collect.2 = [] ↔ schema.given.Pairwise Candidate.Compatible := by
  show (schema.candidates.foldl add ([], [])).2 = [] ↔ _
  rw [candidates_eq_given definitions, foldl_add_quiet_iff ?_ (List.Subset.refl _)]
  · simp [Accord]
  · intro a first b second c third
    refine Candidate.agrees_of_agrees (proper a first) ?_
    rintro other (rfl | rfl) same
    · exact type_eq_of_isSame first second same
    · exact type_eq_of_isSame first third same

/-- A definition that is given agrees with the first of its name, or is the first. -/
theorem exists_first_of_given (agree : schema.given.Pairwise Candidate.Compatible)
    {candidate : Candidate} (among : candidate ∈ schema.given) : ∃ own ∈ schema.given,
      schema.definition? candidate.type.name = some own.type ∧
        (own = candidate ∨ own.agrees candidate = true) := by
  unfold definition?
  generalize schema.given = given at *
  induction given with
  | nil => cases among
  | cons first rest ih =>
    obtain ⟨single, later⟩ := List.pairwise_cons.mp agree
    by_cases named : first.type.name = candidate.type.name
    · refine ⟨first, List.mem_cons_self, ?_, ?_⟩
      · rw [List.find?_cons_of_pos (by simpa using named)]
        rfl
      · rcases List.mem_cons.mp among with rfl | after
        · exact Or.inl rfl
        · exact Or.inr (single candidate after named)
    · have after : candidate ∈ rest :=
        (List.mem_cons.mp among).resolve_left fun same => named (same ▸ rfl)
      obtain ⟨own, there, found, equal⟩ := ih later after
      refine ⟨own, List.mem_cons_of_mem _ there, ?_, equal⟩
      rw [List.find?_cons_of_neg (by simpa using named)]
      exact found

theorem exists_given_of_definition? {name : String} {type : TypeDefinition}
    (defined : schema.definition? name = some type) :
    ∃ candidate ∈ schema.given, candidate.type = type := by
  obtain ⟨candidate, found, same⟩ := Option.map_eq_some_iff.mp defined
  exact ⟨candidate, List.mem_of_find?_eq_some found, same⟩

/-- A directive that is collected is one of those that are given. -/
theorem exists_placed_of_collected (quiet : schema.collectDirectives.2 = [])
    {directive : Directive} (among : directive ∈ schema.collectDirectives.1) :
    ∃ placed ∈ schema.placedDirectives, placed.directive = directive := by
  obtain ⟨result, collects, same⟩ := collects_placedDirectives quiet
  rw [same] at among
  obtain ⟨placed, there, same⟩ := List.mem_map.mp among
  obtain ⟨more, rfl, inside⟩ := collects.kept
  exact ⟨placed, inside there, same⟩

/-! ## Roots -/

theorem rootNames_eq (schema : Schema) :
    schema.rootNames =
      OperationKind.all.filterMap fun kind => (schema.rootName? kind).map (kind, ·) := by
  unfold rootNames rootReferences roots
  rw [List.filterMap_filterMap, List.filterMap_filterMap]
  congr 1
  funext kind
  unfold rootName?
  cases schema.root? kind with
  | none => rfl
  | some root => cases root <;> rfl

theorem find?_rootNames (schema : Schema) (kind : OperationKind) :
    (schema.rootNames.find? (·.1 == kind)).map (·.2) = schema.rootName? kind := by
  rw [rootNames_eq]
  unfold OperationKind.all
  cases kind <;> cases query : schema.rootName? .query <;>
    cases mutation : schema.rootName? .mutation <;>
      cases subscription : schema.rootName? .subscription <;>
        simp [query, mutation, subscription]

theorem mem_rootNames_iff {kind : OperationKind} {name : String} :
    (kind, name) ∈ schema.rootNames ↔ schema.rootName? kind = some name := by
  rw [rootNames_eq, List.mem_filterMap]
  constructor
  · rintro ⟨own, _, same⟩
    obtain ⟨_, found, pair⟩ := Option.map_eq_some_iff.mp same
    cases pair
    exact found
  · intro found
    refine ⟨kind, ?_, by rw [found]; rfl⟩
    cases kind <;> decide

theorem mem_roots_iff {kind : OperationKind} {root : RootType} :
    (kind, root) ∈ schema.roots ↔ schema.root? kind = some root := by
  unfold roots
  rw [List.mem_filterMap]
  constructor
  · rintro ⟨own, _, same⟩
    obtain ⟨_, found, pair⟩ := Option.map_eq_some_iff.mp same
    cases pair
    exact found
  · intro found
    refine ⟨kind, ?_, by rw [found]; rfl⟩
    cases kind <;> decide

/-! ## The walk -/

theorem plainName?_rootReferences (plain : schema.roots.all (·.2.isPlain) = true)
    {kind : OperationKind} {ref : TypeRef} (referred : (kind, ref) ∈ schema.rootReferences) :
    ∃ root, schema.root? kind = some root ∧ ref.plainName? = root.name? ∧
      ref.plainName?.isSome = true := by
  obtain ⟨⟨own, root⟩, among, same⟩ := List.mem_filterMap.mp referred
  have isPlain := List.all_eq_true.mp plain _ among
  cases root with
  | reference other =>
    cases same
    exact ⟨_, mem_roots_iff.mp among, rfl, isPlain⟩
  | definition type =>
    cases same
    exact ⟨_, mem_roots_iff.mp among, rfl, rfl⟩
  | invalid _ => cases same

namespace Valid

variable (valid : schema.Valid)

include valid

/-- A walk over the definitions of a valid schema misses nothing. -/
theorem nothing_missed (plain : schema.roots.all (·.2.isPlain) = true) :
    (schema.walk schema.collect.1).filterMap missingProblem? = [] := by
  refine List.filterMap_eq_nil_iff.mpr fun event met => ?_
  cases event with
  | visit _ | edge _ _ _ => rfl
  | missing source place target =>
    obtain ⟨type, visited, reference, refers, undefined⟩ :=
      exists_reference_of_missing_references met
    have defined := lookupType?_of_visit_references visited
    rw [lookupType?_collect] at defined undefined
    have leads := valid.references _ _ defined reference refers
    rw [undefined] at leads
    cases leads
  | missingRoot name =>
    have leads : ∀ ref ∈ schema.rootReferences.map (·.2) ++
        (Introspection.schema.name :: schema.collect.1.map TypeDefinition.name).map TypeRef.named,
        ∃ name, ref.plainName? = some name ∧ (schema.definition? name).isSome = true := by
      intro ref given
      rcases List.mem_append.mp given with referred | named
      · obtain ⟨⟨kind, _⟩, listed, rfl⟩ := List.mem_map.mp referred
        obtain ⟨root, there, same, _⟩ := plainName?_rootReferences plain listed
        obtain ⟨name, object, own, defined⟩ := valid.roots kind root there
        exact ⟨name, same.trans own, by rw [defined]; rfl⟩
      · obtain ⟨name, among, rfl⟩ := List.mem_map.mp named
        refine ⟨name, rfl, ?_⟩
        rcases List.mem_cons.mp among with rfl | among
        · rw [definition?_of_builtin (rfl : lookupType? builtinTypes _ = some _)]
          rfl
        · obtain ⟨type, there, rfl⟩ := List.mem_map.mp among
          rw [← lookupType?_collect]
          exact List.find?_isSome.mpr ⟨type, there, beq_self_eq_true _⟩
    obtain ⟨⟨ref, given, named⟩, undefined⟩ := undefined_of_missingRoot_references
      (fun ref given => (leads ref given).elim fun _ found => found.1 ▸ rfl) met
    obtain ⟨_, same, defined⟩ := leads ref given
    cases named.symm.trans same
    rw [← lookupType?_collect, undefined] at defined
    cases defined

/-- The references, roots and directives of a valid schema lead to definitions. -/
theorem referenceProblems_eq_nil (plain : schema.roots.all (·.2.isPlain) = true)
    {directives : List Directive} (given : ∀ directive ∈ directives,
      ∃ placed ∈ schema.placedDirectives, placed.directive = directive) :
    schema.referenceProblems (schema.walk schema.collect.1)
      (visitedTypes (schema.walk schema.collect.1)) directives = [] := by
  unfold referenceProblems
  rw [valid.nothing_missed plain, List.nil_append, List.append_eq_nil_iff,
    List.flatMap_eq_nil_iff, List.flatMap_eq_nil_iff]
  constructor
  · intro directive among
    obtain ⟨placed, there, rfl⟩ := given directive among
    refine List.flatMap_eq_nil_iff.mpr fun arg own => Validation.demand_eq_nil_iff.mpr ?_
    rw [lookupType?_walk, lookupType?_collect]
    exact valid.argumentTypes placed there arg own
  · rintro ⟨kind, name⟩ among
    obtain ⟨root, there, named⟩ := Option.bind_eq_some_iff.mp (mem_rootNames_iff.mp among)
    obtain ⟨_, object, own, defined⟩ := valid.roots kind root there
    cases named.symm.trans own
    dsimp only
    rw [lookupType?_walk, lookupType?_collect, defined]

/-- A valid schema has a registry. -/
theorem build (plain : schema.isPlain = true) :
    ∃ registry, Registry.build schema = .ok registry := by
  obtain ⟨roots, definitions, given⟩ := isPlain_iff.mp plain
  have rooted : schema.invalidRoot? = none := by
    refine List.findSome?_eq_none_iff.mpr fun ⟨kind, root⟩ among => ?_
    have isPlain := List.all_eq_true.mp roots _ among
    cases root with
    | reference _ | definition _ => rfl
    | invalid _ => cases isPlain
  have silent : schema.collectDirectives.2 = [] :=
    foldl_addDirective_quiet valid.directives rfl
  have placed : ∀ directive ∈ schema.collectDirectives.1,
      ∃ placed ∈ schema.placedDirectives, placed.directive = directive :=
    fun _ => exists_placed_of_collected silent
  have first : schema.definitionProblems (schema.walk schema.collect.1) = [] := by
    unfold definitionProblems
    rw [(collect_quiet_iff definitions fun candidate among =>
        (given candidate among).2).mpr valid.agree,
      Validation.demand_eq_nil_iff.mpr valid.query, silent,
      valid.referenceProblems_eq_nil roots placed]
    rfl
  have defined : ∀ type ∈ visitedTypes (schema.walk schema.collect.1),
      schema.definition? type.name = some type := by
    intro type visited
    rw [← lookupType?_collect]
    exact lookupType?_of_mem_walk visited
  have lookup : lookupType? (visitedTypes (schema.walk schema.collect.1)) =
      schema.definition? := by
    funext name
    rw [lookupType?_walk, lookupType?_collect]
  have unobstructed : Validation.obstacle? (visitedTypes (schema.walk schema.collect.1))
      schema.collectDirectives.1 = none := by
    refine Validation.obstacle?_eq_none fun type visited => ?_
    obtain ⟨candidate, among, rfl⟩ := exists_given_of_definition? (defined type visited)
    exact (given candidate among).1
  have second : Validation.problems (visitedTypes (schema.walk schema.collect.1))
      schema.collectDirectives.1 = [] := by
    rw [Validation.problems_eq_nil_iff, lookup]
    refine ⟨fun type visited => valid.types _ _ (defined type visited), fun directive among => ?_⟩
    obtain ⟨placed, there, rfl⟩ := placed directive among
    exact valid.arguments placed there
  refine ⟨schema.table (schema.walk schema.collect.1), ?_⟩
  unfold Registry.build
  rw [rooted]
  dsimp only
  unfold registry
  have types : (schema.table (schema.walk schema.collect.1)).types =
      visitedTypes (schema.walk schema.collect.1) := rfl
  have directives : (schema.table (schema.walk schema.collect.1)).directives =
      schema.collectDirectives.1 := rfl
  dsimp only
  rw [first, types, directives, unobstructed, second]
  rfl

end Valid

/-! ## Registries -/

namespace Builds

variable (builds : schema.Builds registry)

include builds

theorem type?_eq_definition? : registry.type? = schema.definition? := by
  funext name
  rw [builds.type?_eq, lookupType?_collect]

theorem mem_of_definition? {name : String} {type : TypeDefinition}
    (defined : schema.definition? name = some type) : type ∈ registry.types := by
  rw [← builds.type?_eq_definition?] at defined
  exact mem_of_lookupType? defined

theorem mem_directives {placed : PlacedDirective} (given : placed ∈ schema.placedDirectives) :
    placed.directive ∈ registry.directives :=
  List.mem_of_find?_eq_some (builds.directive?_of_mem given)

/-- The reference to a root type leads to an object type. -/
theorem root_leads {kind : OperationKind} {root : RootType}
    (plain : root.isPlain = true) (there : schema.root? kind = some root) :
    ∃ name object, root.name? = some name ∧ schema.definition? name = some (.object object) := by
  have among := mem_roots_iff.mpr there
  rw [← builds.type?_eq_definition?]
  cases root with
  | reference ref => exact builds.root_isObject (List.mem_filterMap.mpr ⟨_, among, rfl⟩)
  | definition type => exact builds.root_isObject (List.mem_filterMap.mpr ⟨_, among, rfl⟩)
  | invalid _ => cases plain

/-- A schema from which a registry was built is valid. -/
theorem validity (plain : schema.isPlain = true) : schema.Valid := by
  obtain ⟨roots, definitions, given⟩ := isPlain_iff.mp plain
  have lookup := builds.type?_eq_definition?
  obtain ⟨types, directives⟩ := Validation.problems_eq_nil_iff.mp builds.valid
  have looked : lookupType? registry.types = schema.definition? := lookup
  rw [looked] at types directives
  obtain ⟨result, collects, _⟩ := builds.collects
  refine ⟨?_, ?_, builds.rooted, ?_, ?_, ?_, ?_, ?_⟩
  · exact (collect_quiet_iff definitions fun candidate among => (given candidate among).2).mp
      builds.agreed
  · intro a first b second named
    have distinct := collects.distinct List.nodup_nil
    exact congrArg PlacedDirective.place (List.inj_on_of_nodup_map distinct (collects.added first)
      (collects.added second) named)
  · intro kind root there
    exact builds.root_leads (List.all_eq_true.mp roots _ (mem_roots_iff.mpr there)) there
  · intro name type defined reference refers
    rw [← lookup]
    exact builds.closed (builds.mem_of_definition? defined) refers
  · intro placed among arg own
    obtain ⟨type, defined, _⟩ := directives _ (builds.mem_directives among) arg own
    rw [defined]
    rfl
  · exact fun name type defined => types type (builds.mem_of_definition? defined)
  · exact fun placed among => directives _ (builds.mem_directives among)

theorem root?_eq (valid : schema.Valid) (kind : OperationKind) :
    registry.root? kind = schema.rootName? kind := by
  unfold Registry.root?
  rw [builds.query, builds.mutation, builds.subscription]
  simp only [find?_rootNames]
  cases kind with
  | query =>
    obtain ⟨root, there⟩ := Option.isSome_iff_exists.mp valid.query
    obtain ⟨name, _, own, _⟩ := valid.roots .query root there
    have named : schema.rootName? .query = some name :=
      Option.bind_eq_some_iff.mpr ⟨root, there, own⟩
    rw [named]
    rfl
  | mutation | subscription => rfl

/-- A registry that was built has what its schema gives. -/
theorem keeps (plain : schema.isPlain = true) : schema.Keeps registry := by
  have lookup := builds.type?_eq_definition?
  have valid := builds.validity plain
  obtain ⟨result, collects, same⟩ := builds.collects
  refine ⟨fun name => congrFun lookup name, fun candidate among => ?_, ?_, fun kind => ?_,
    fun placed among => builds.directive?_of_mem among, fun directive among => ?_, ?_⟩
  · rw [lookup]
    exact exists_first_of_given valid.agree among
  · unfold Registry.names
    rw [builds.types]
    exact nodup_visitedNames_references.1
  · exact builds.root?_eq valid kind
  · rw [builds.directives] at among
    exact exists_placed_of_collected builds.distinct among
  · rw [same, List.map_map]
    exact collects.distinct List.nodup_nil

end Builds

/-- Building succeeds for exactly the valid schemas, and a registry has what its schema gives. -/
theorem build_iff_valid (plain : schema.isPlain = true) :
    ((∃ registry, Registry.build schema = .ok registry) ↔ schema.Valid) ∧
      ∀ registry, Registry.build schema = .ok registry → schema.Keeps registry :=
  ⟨⟨fun ⟨_, built⟩ => (builds_of_build built).validity plain, fun valid => valid.build plain⟩,
    fun _ built => (builds_of_build built).keeps plain⟩

/-- A schema with a type of each kind, in which a definition is listed twice and a root is given by
its name. -/
def harborSchema : Schema where
  query := some (.definition (.object { name := "Query", fields := [
    { name := "ship", type := .named "Vessel",
      args := [{ name := "filter", type := .named "Filter" }] },
    { name := "cargo", type := .list (.named "Cargo") }] }))
  mutation := some (.reference (.named "Ship"))
  types := [
    .definition (.interface { name := "Vessel", fields := [
      { name := "next", type := .named "Vessel" }] }),
    .definition (.object { name := "Ship", interfaces := [.named "Vessel"], fields := [
      { name := "next", type := .named "Ship" true }] }),
    .definition (.union { name := "Cargo", members := [.named "Ship"] }),
    .definition (.input { name := "Filter", fields := [
      { name := "flag", type := .named "Flag", default := .str "RED" }] }),
    .definition (.enum { name := "Flag", values := [{ symbol := "RED", value := .str "RED" }] }),
    .again 1]
  directives := [.directive { name := "log", args := [{ name := "flag", type := .named "Flag" }] },
    .again 3]

/-- The schema is valid, and its registry has what it gives. -/
theorem build_iff_valid_harbor :
    harborSchema.isPlain = true ∧ harborSchema.Valid ∧
      Registry.build harborSchema = .ok (harborSchema.tableWithin 100) ∧
        harborSchema.Keeps (harborSchema.tableWithin 100) := by
  have plain : harborSchema.isPlain = true := by decide +kernel
  have built : Registry.build harborSchema = .ok (harborSchema.tableWithin 100) :=
    build_of_soundWithin (by decide +kernel)
  obtain ⟨valid, keeps⟩ := build_iff_valid plain
  exact ⟨plain, valid.mp ⟨_, built⟩, built, keeps _ built⟩

end Schema

end GraphQL
