import GraphQL.Proofs.Collection
import GraphQL.Proofs.Execution
import GraphQL.Proofs.Interfaces

/-!
# Statically valid operations

Selections are checked against interfaces and unions, but run against the object types that values
turn out to have. An operation whose selections are valid where they stand meets no field that an
object type lacks, whatever user code does; for an object type has what the types that admit it
have.
-/

namespace GraphQL

variable {σ : Type}

/-- A selection is valid on the type of a name: its field exists there, and what is selected below
is valid on the type of the field, or on the type of the condition. Named fragments are checked by
themselves. -/
inductive Registry.Allows (registry : Registry) : String → Selection → Prop where
  | field {parent name : String} {otherKey : Option String} {arguments : Entries Value}
      {directives : List DirectiveUse} {location : Option Location} {selections : List Selection}
      {type : TypeDefinition} {field : Field} :
      registry.type? parent = some type → registry.field? type name = some field →
      (∀ inner ∈ selections, Allows registry field.type.name inner) →
      Allows registry parent (.field name otherKey arguments directives location selections)
  | inline {parent : String} {condition : Option String} {directives : List DirectiveUse}
      {selections : List Selection} :
      (∀ inner ∈ selections, Allows registry (condition.getD parent) inner) →
      Allows registry parent (.inline condition directives selections)
  | spread {parent name : String} {directives : List DirectiveUse} :
      Allows registry parent (.spread name directives)

/-- A field selection was valid on some type that admits an object type. -/
def Registry.Checks (registry : Registry) (object : ObjectType) (node : FieldNode) : Prop :=
  ∃ parent type field, registry.CanBe parent object ∧ registry.type? parent = some type ∧
    registry.field? type node.name = some field ∧
    ∀ inner ∈ node.selections, registry.Allows field.type.name inner

/-- The leaf of a failed coercion is no missing field. -/
theorem CoercionLeaf.kind_ne_fieldNotFound (leaf : CoercionLeaf) : leaf.kind ≠ .fieldNotFound := by
  unfold kind
  split <;> decide

/-- A cause of the class of missing fields is a missing field, or was given by user code. -/
theorem FailureCause.of_kind_eq_fieldNotFound {cause : FailureCause}
    (missing : cause.kind = .fieldNotFound) :
    cause.isUnknownField = true ∨ ∃ fault, cause = .given fault := by
  cases cause with
  | given fault => exact Or.inr ⟨fault, rfl⟩
  | unknownField field type => exact Or.inl rfl
  | coercion failure =>
    change CoercionFailure.kind failure = .fieldNotFound at missing
    unfold CoercionFailure.kind at missing
    split at missing
    · exact absurd missing failure.first.kind_ne_fieldNotFound
    · cases missing
  | resolver _ | abstractType _ | checkFailed _ _ | notOfType _ _ | notIterable _ _ | noSymbol _ _
  | serialization _ | nullSerialized _ _ | notALeaf _ | notCompletable _ | nullValue _ | timedOut _
  | stopped _ | noRoot _ => cases missing

/-- Neither a selection nor those below it have another response key than their name. -/
inductive Selection.Unaliased : Selection → Prop where
  | field {name : String} {arguments : Entries Value} {directives : List DirectiveUse}
      {location : Option Location} {selections : List Selection} :
      (∀ inner ∈ selections, Unaliased inner) →
      Unaliased (.field name none arguments directives location selections)
  | inline {condition : Option String} {directives : List DirectiveUse}
      {selections : List Selection} :
      (∀ inner ∈ selections, Unaliased inner) → Unaliased (.inline condition directives selections)
  | spread {name : String} {directives : List DirectiveUse} : Unaliased (.spread name directives)

/-- Field selections among others without another key stand under their name. -/
theorem CollectionContext.Collectable.unaliased {context : CollectionContext}
    {selections : List Selection} {node : FieldNode}
    (collectable : context.Collectable selections node)
    (unaliased : ∀ selection ∈ selections, selection.Unaliased)
    (fragments : ∀ name fragment, Entries.get? context.fragments name = some fragment →
      ∀ selection ∈ fragment.selections, selection.Unaliased) :
    node.responseKey = node.name ∧ ∀ inner ∈ node.selections, inner.Unaliased := by
  induction collectable with
  | field member =>
    cases unaliased _ member with
    | field inner => exact ⟨rfl, inner⟩
  | inline member covered _ ih =>
    cases unaliased _ member with
    | inline inner => exact ih inner
  | spread member found covered _ ih => exact ih (fragments _ _ found)

namespace Environment

variable (env : Environment σ)

/-- An operation is valid on its root type, its fragments are valid on the types of their
conditions, and selections that share a response key on an object ask for the same field. -/
structure StaticallyValid (root : ObjectType) : Prop where
  operation : ∀ selection ∈ env.request.operation.selections,
    env.registry.Allows root.name selection
  fragments : ∀ name fragment, Entries.get? env.request.fragments name = some fragment →
    ∀ selection ∈ fragment.selections, env.registry.Allows fragment.condition selection
  merged : ∀ level object group, env.Reaches root level object group →
    ∀ node ∈ group.nodes, node.name = group.first.name

variable {env} {root object : ObjectType}

/-- A fragment that covers a registered object type has a condition that admits it. -/
theorem canBe_of_covers {world : World σ} {name : String}
    (registered : env.registry.type? object.name = some (.object object))
    (covered : (env.collection world object).covers (some name) = true) :
    env.registry.CanBe name object := by
  rcases (Bool.or_eq_true _ _).mp covered with itself | possible
  · rw [beq_iff_eq.mp itself]
    exact Or.inl registered
  · split at possible
    · next type found =>
      obtain ⟨abstract, listed⟩ := (Bool.and_eq_true _ _).mp possible
      rw [Registry.name_of_type? found] at listed
      exact Or.inr ⟨type, found, abstract, registered, listed⟩
    · cases possible

/-- Field selections that take part in an object were valid on a type that admits it. -/
theorem StaticallyValid.checks (valid : env.StaticallyValid root) {world : World σ}
    {selections : List Selection} {node : FieldNode} {parent : String}
    (registered : env.registry.type? object.name = some (.object object))
    (collectable : (env.collection world object).Collectable selections node)
    (allowed : ∀ selection ∈ selections, env.registry.Allows parent selection)
    (admitted : env.registry.CanBe parent object) : env.registry.Checks object node := by
  induction collectable generalizing parent with
  | field member =>
    cases allowed _ member with
    | field found declared below => exact ⟨parent, _, _, admitted, found, declared, below⟩
  | @inline condition _ _ _ _ member covered _ ih =>
    cases allowed _ member with
    | inline inside =>
      refine ih inside ?_
      cases condition with
      | none => exact admitted
      | some name => exact canBe_of_covers registered covered
  | spread member found covered _ ih =>
    exact ih (valid.fragments _ _ found) (canBe_of_covers registered covered)

/-- The selections on an object that an execution comes to are valid on types that admit it. -/
def Vouched (env : Environment σ) (object : ObjectType) (selections : List (List Selection)) :
    Prop :=
  env.registry.type? object.name = some (.object object) ∧
    ∀ inner ∈ selections, ∃ parent, env.registry.CanBe parent object ∧
      ∀ selection ∈ inner, env.registry.Allows parent selection

/-- The field selections in the groups of such an object were valid on types that admit it. -/
theorem Vouched.checks (valid : env.StaticallyValid root) {selections : List (List Selection)}
    {groups : List FieldGroup} {group : FieldGroup} {node : FieldNode}
    (vouched : env.Vouched object selections) (collected : env.Collects object selections groups)
    (member : group ∈ groups) (inside : node ∈ group.nodes) :
    env.registry.Checks object node := by
  obtain ⟨registered, allowed⟩ := vouched
  obtain ⟨world, grouped⟩ := collected.grouped
  obtain ⟨⟨inner, given, collectable⟩, _⟩ := grouped.nodes group member node inside
  obtain ⟨parent, admitted, below⟩ := allowed inner given
  exact valid.checks registered collectable below admitted

/-- Below a field of such an object stand such objects. -/
theorem Vouched.inside (accepted : env.registry.Accepted)
    (unshadowed : env.registry.Unshadowed) (valid : env.StaticallyValid root)
    {selections : List (List Selection)} {groups : List FieldGroup} {group : FieldGroup}
    {field : Field} {inner : ObjectType} (vouched : env.Vouched object selections)
    (collected : env.Collects object selections groups) (member : group ∈ groups)
    (merged : ∀ node ∈ group.nodes, node.name = group.first.name)
    (found : env.registry.field? (.object object) group.first.name = some field)
    (admitted : env.registry.CanBe field.type.name inner) :
    env.Vouched inner (group.nodes.map FieldNode.selections) := by
  refine ⟨admitted.registered, fun below given => ?_⟩
  obtain ⟨node, present, rfl⟩ := List.mem_map.mp given
  obtain ⟨parent, type, wanted, possible, registered, declared, allowed⟩ :=
    vouched.checks valid collected member present
  obtain ⟨own, provided, narrower⟩ :=
    accepted.field_of_canBe unshadowed registered possible declared
  rw [merged node present, found] at provided
  cases provided
  exact ⟨wanted.type.name, narrower inner admitted, allowed⟩

/-- An execution of a valid operation only comes to objects whose selections are valid on types that
admit them. -/
theorem Encounters.vouched (accepted : env.registry.Accepted)
    (unshadowed : env.registry.Unshadowed) (valid : env.StaticallyValid root)
    (found : env.rootType? = some root) {level : Nat} {selections : List (List Selection)}
    (encountered : env.Encounters root level object selections) :
    env.Vouched object selections := by
  induction encountered with
  | root =>
    refine ⟨registered_of_rootType? found, fun inner given => ?_⟩
    cases List.mem_singleton.mp given
    exact ⟨root.name, Or.inl (registered_of_rootType? found), valid.operation⟩
  | inside above collected member declared admitted ih =>
    exact ih.inside accepted unshadowed valid collected member
      (valid.merged _ _ _ ⟨_, _, above, collected, member⟩) declared admitted

/-- No object that an execution of a valid operation comes to lacks a field. -/
theorem not_misses (accepted : env.registry.Accepted) (unshadowed : env.registry.Unshadowed)
    (valid : env.StaticallyValid root) (found : env.rootType? = some root) :
    ¬ env.Misses root := by
  rintro ⟨level, object, group, ⟨selections, groups, encountered, collected, member⟩, missing⟩
  have vouched := encountered.vouched accepted unshadowed valid found
  obtain ⟨parent, type, wanted, possible, registered, declared, _⟩ :=
    vouched.checks valid collected member List.mem_cons_self
  obtain ⟨own, provided, _⟩ := accepted.field_of_canBe unshadowed registered possible declared
  rw [missing] at provided
  cases provided

/-- An execution of a valid operation records no error of a missing field but those that user code
gives. -/
theorem execute_finds_fields (accepted : env.registry.Accepted)
    (unshadowed : env.registry.Unshadowed)
    (valid : ∀ root, env.rootType? = some root → env.StaticallyValid root)
    (before : Executor σ) :
    ∃ noted, (env.execute.runFrom before).2.errors = before.errors ++ noted ∧
      ∀ error ∈ noted, error.cause.kind = .fieldNotFound →
        ∃ fault, error.cause = .given fault := by
  cases found : env.rootType? with
  | none =>
    rw [runFrom_execute_of_none found]
    refine ⟨[], (List.append_nil _).symm, fun _ member => absurd member List.not_mem_nil⟩
  | some root =>
    obtain ⟨noted, kept, _⟩ :=
      execute_delivers found (fun _ => trivial) (fun _ : before.world.Waits => trivial)
    refine ⟨noted, kept.errors, fun error member missing => ?_⟩
    rcases FailureCause.of_kind_eq_fieldNotFound missing with unknown | given
    · exact absurd (kept.misses error member unknown)
        (not_misses accepted unshadowed (valid root found) found)
    · exact given

/-- Where no selection has another response key than its name, selections that share a key ask for
the same field. -/
theorem merged_of_unaliased
    (operation : ∀ selection ∈ env.request.operation.selections, selection.Unaliased)
    (fragments : ∀ name fragment, Entries.get? env.request.fragments name = some fragment →
      ∀ selection ∈ fragment.selections, selection.Unaliased)
    {level : Nat} {group : FieldGroup} (reached : env.Reaches root level object group) :
    ∀ node ∈ group.nodes, node.name = group.first.name := by
  have unaliased : ∀ {level : Nat} {object : ObjectType} {selections : List (List Selection)},
      env.Encounters root level object selections →
        ∀ inner ∈ selections, ∀ selection ∈ inner, selection.Unaliased := by
    intro level object selections encountered
    induction encountered with
    | root =>
      intro inner given
      cases List.mem_singleton.mp given
      exact operation
    | inside above collected member found admitted ih =>
      intro inner given
      obtain ⟨node, present, rfl⟩ := List.mem_map.mp given
      obtain ⟨world, grouped⟩ := collected.grouped
      obtain ⟨⟨below, listed, collectable⟩, _⟩ := grouped.nodes _ member node present
      exact (collectable.unaliased (ih below listed) fragments).2
  obtain ⟨selections, groups, encountered, collected, member⟩ := reached
  obtain ⟨world, grouped⟩ := collected.grouped
  have named : ∀ node ∈ group.nodes, node.name = group.key := by
    intro node present
    obtain ⟨⟨below, listed, collectable⟩, keyed⟩ := grouped.nodes group member node present
    rw [← keyed, (collectable.unaliased (unaliased encountered below listed) fragments).1]
  intro node present
  rw [named node present, named group.first List.mem_cons_self]

/-- A schema with a query for a pet, which is a dog. -/
def petSchema : Schema where
  query := some (.definition (.object {
    name := "Query"
    fields := [{ name := "pet", type := .named "Pet", resolver := .given 0 }] }))
  types := [
    .definition (.interface {
      name := "Pet"
      fields := [{ name := "name", type := .named "String" }] }),
    .definition (.object {
      name := "Dog"
      fields := [{ name := "name", type := .named "String" },
        { name := "barks", type := .named "Boolean" }]
      interfaces := [.named "Pet"] })]

/-- The registry of that schema. -/
def petRegistry : Registry :=
  petSchema.tableWithin 100

theorem accepted_petRegistry : petRegistry.Accepted :=
  Schema.accepted_of_soundWithin (by decide +kernel)

theorem unshadowed_petRegistry : petRegistry.Unshadowed := by
  intro query interface rooted _ listed
  cases rooted
  cases listed

/-- A query for the name of a pet, and for what only dogs have, where user code finds the pet. -/
def petting (code : UserCode Unit) : Environment Unit where
  registry := petRegistry
  behaviour := {
    resolve := fun _ _ _ _ => code
    hook := fun _ value => .ok value
    convert := fun _ value => .ok value }
  request := { operation := { selections := [
    .field "pet" none [] [] none [
      .field "name" none [] [] none [],
      .inline (some "Dog") [] [.field "barks" none [] [] none []]]] } }

theorem staticallyValid_petting (code : UserCode Unit) (root : ObjectType)
    (found : (petting code).rootType? = some root) : (petting code).StaticallyValid root := by
  cases found
  have pet : petRegistry.Allows "Query" (.field "pet" none [] [] none [
      .field "name" none [] [] none [],
      .inline (some "Dog") [] [.field "barks" none [] [] none []]]) := by
    refine .field rfl rfl fun inner member => ?_
    rcases List.mem_cons.mp member with rfl | member
    · exact .field rfl rfl nofun
    · cases List.mem_singleton.mp member
      refine .inline fun inner member => ?_
      cases List.mem_singleton.mp member
      exact .field rfl rfl nofun
  have unaliased : ∀ selection ∈ (petting code).request.operation.selections,
      selection.Unaliased := by
    intro selection member
    cases List.mem_singleton.mp member
    refine .field fun inner member => ?_
    rcases List.mem_cons.mp member with rfl | member
    · exact .field nofun
    · cases List.mem_singleton.mp member
      refine .inline fun inner member => ?_
      cases List.mem_singleton.mp member
      exact .field nofun
  refine ⟨fun selection member => ?_, nofun, fun _ _ _ => merged_of_unaliased unaliased nofun⟩
  cases List.mem_singleton.mp member
  exact pet

/-- A dog without a voice. -/
def quietDog : UserCode Unit :=
  .finish (.map [("__typename", .str "Dog"), ("name", .str "Rex")])

/-- A dog is found, and all its fields are. -/
theorem execute_finds_fields_dog :
    petRegistry.Accepted ∧ petRegistry.Unshadowed ∧
      ∃ result after,
        (petting quietDog).execute.runFrom { world := { user := () } } = (.ok result, after) ∧
          result.data =
            .object [("pet", .object [("name", .leaf (.str "Rex")), ("barks", .null)])] ∧
          ∃ noted, after.errors = [] ++ noted ∧
            ∀ error ∈ noted, error.cause.kind = .fieldNotFound →
              ∃ fault, error.cause = .given fault := by
  have finished : ∃ result after,
      (petting quietDog).execute.runFrom { world := { user := () } } = (.ok result, after) ∧
        result.data =
          .object [("pet", .object [("name", .leaf (.str "Rex")), ("barks", .null)])] :=
    ⟨_, _, rfl, rfl⟩
  obtain ⟨result, after, ran, data⟩ := finished
  obtain ⟨noted, recorded, given⟩ := execute_finds_fields accepted_petRegistry
    unshadowed_petRegistry (staticallyValid_petting quietDog) { world := { user := () } }
  rw [ran] at recorded
  exact ⟨accepted_petRegistry, unshadowed_petRegistry, result, after, ran, data, noted, recorded,
    given⟩

/-- A schema whose query lists an interface with a field under the name that means the schema. -/
def shadowSchema : Schema where
  query := some (.definition (.object {
    name := "Query"
    fields := [{ name := "__schema", type := .named "Draft" }]
    interfaces := [.named "Drafted"] }))
  types := [
    .definition (.interface {
      name := "Drafted"
      fields := [{ name := "__schema", type := .named "Draft" }] }),
    .definition (.object {
      name := "Draft"
      fields := [{ name := "title", type := .named "String" }] })]

/-- The registry of that schema. -/
def shadowRegistry : Registry :=
  shadowSchema.tableWithin 100

theorem accepted_shadowRegistry : shadowRegistry.Accepted :=
  Schema.accepted_of_soundWithin (by decide +kernel)

/-- A query that is valid on the interface, where the name means another field. -/
def drafting : Environment Unit where
  registry := shadowRegistry
  behaviour := {
    resolve := fun _ _ _ _ => .finish .null
    hook := fun _ value => .ok value
    convert := fun _ value => .ok value }
  request := { operation := { selections := [
    .inline (some "Drafted") [] [
      .field "__schema" none [] [] none [.field "title" none [] [] none []]]] } }

theorem staticallyValid_drafting (root : ObjectType) (found : drafting.rootType? = some root) :
    drafting.StaticallyValid root := by
  cases found
  have drafted : shadowRegistry.Allows "Query" (.inline (some "Drafted") [] [
      .field "__schema" none [] [] none [.field "title" none [] [] none []]]) := by
    refine .inline fun inner member => ?_
    cases List.mem_singleton.mp member
    refine .field rfl rfl fun inner member => ?_
    cases List.mem_singleton.mp member
    exact .field rfl rfl nofun
  have unaliased : ∀ selection ∈ drafting.request.operation.selections, selection.Unaliased := by
    intro selection member
    cases List.mem_singleton.mp member
    refine .inline fun inner member => ?_
    cases List.mem_singleton.mp member
    refine .field fun inner member => ?_
    cases List.mem_singleton.mp member
    exact .field nofun
  refine ⟨fun selection member => ?_, nofun, fun _ _ _ => merged_of_unaliased unaliased nofun⟩
  cases List.mem_singleton.mp member
  exact drafted

/-- A fault of the class of missing fields. -/
def missingField : Fault where
  kind := .fieldNotFound
  message := "x"

/-- Valid operations may record errors of missing fields: where user code raises one, and where the
root type of queries shadows a field of an interface. -/
theorem execute_misses_fields :
    (petRegistry.Accepted ∧
      (∀ root, (petting (.fail missingField)).rootType? = some root →
        (petting (.fail missingField)).StaticallyValid root) ∧
      ∃ error ∈ ((petting (.fail missingField)).execute.runFrom
        { world := { user := () } }).2.errors, error.cause.kind = .fieldNotFound) ∧
    shadowRegistry.Accepted ∧
      (∀ root, drafting.rootType? = some root → drafting.StaticallyValid root) ∧
      ∃ error ∈ (drafting.execute.runFrom { world := { user := () } }).2.errors,
        error.cause.kind = .fieldNotFound ∧ error.cause.given? = none := by
  refine ⟨⟨accepted_petRegistry, staticallyValid_petting _, ?_⟩, accepted_shadowRegistry,
    staticallyValid_drafting, ?_⟩
  · have recorded : ((petting (.fail missingField)).execute.runFrom
        { world := { user := () } }).2.errors.map (·.cause.kind) = [.fieldNotFound] := rfl
    obtain ⟨error, inside, kind⟩ :=
      List.mem_map.mp (recorded ▸ List.mem_singleton_self FaultKind.fieldNotFound)
    exact ⟨error, inside, kind⟩
  · have recorded : (drafting.execute.runFrom { world := { user := () } }).2.errors.map
        (fun error => (error.cause.kind, error.cause.given?)) = [(.fieldNotFound, none)] := rfl
    obtain ⟨error, inside, same⟩ :=
      List.mem_map.mp (recorded ▸ List.mem_singleton_self (FaultKind.fieldNotFound, none))
    exact ⟨error, inside, congrArg Prod.fst same, congrArg Prod.snd same⟩

end Environment

end GraphQL
