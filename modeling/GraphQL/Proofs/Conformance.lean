import GraphQL.Proofs.Conditions
import GraphQL.Proofs.Execution
import GraphQL.Proofs.Serialization

/-!
# Conformance of responses

The data of a response conforms to the declared types: null stands only where it is admitted, lists
and objects stand where the types have them, the keys of an object are those that its selections
give, and leaves are values of their types. What keeps a response from conforming is a Boolean in
the place of an Int, and nothing else.
-/

namespace GraphQL

variable {σ : Type}

/-- A Boolean in the place of an Int. -/
def IsMisplaced (name : String) (value : Value) : Prop :=
  name = BuiltinScalar.int.name ∧ ∃ b, value = .bool b

/-- The symbol of an internal value is a declared one. -/
theorem EnumType.isSome_valueFor?_of_symbolFor? {type : EnumType} {value : Value} {symbol : String}
    (found : type.symbolFor? value = some symbol) : (type.valueFor? symbol).isSome = true := by
  have declared : ∀ plain : Value, type.symbolOf? plain = some symbol →
      (type.valueFor? symbol).isSome = true := by
    intro plain symbolised
    unfold EnumType.symbolOf? at symbolised
    unfold EnumType.valueFor?
    rw [List.find?_isSome]
    split at symbolised
    · next entry first =>
      cases symbolised
      exact ⟨entry, List.mem_of_find?_eq_some first, beq_self_eq_true _⟩
    · obtain ⟨entry, first, rfl⟩ := Option.map_eq_some_iff.mp symbolised
      exact ⟨entry, List.mem_of_find?_eq_some first, beq_self_eq_true _⟩
  unfold EnumType.symbolFor? at found
  split at found
  · split at found
    · next own =>
      cases found
      exact (Bool.and_eq_true _ _ ▸ own).2
    · exact declared _ found
  · exact declared _ found

/-- An object type that a value may have is the declared one or a possible one. -/
theorem Registry.CanBe.declared_or_possible {registry : Registry} {name : String}
    {object : ObjectType} (admitted : registry.CanBe name object) :
    registry.type? name = some (.object object) ∨ object ∈ registry.possibleTypes name := by
  rcases admitted with declared | ⟨type, _, _, registered, possible⟩
  · exact Or.inl declared
  · refine Or.inr (List.mem_filterMap.mpr ⟨object.name, List.contains_iff_mem.mp possible, ?_⟩)
    unfold Registry.objectType?
    rw [registered]

theorem Response.lost_eq_some {required : Bool} {data : Response} :
    lost required = some data ↔ required = false ∧ data = .null := by
  unfold lost
  cases required with
  | true => exact ⟨nofun, nofun⟩
  | false => exact ⟨fun given => ⟨rfl, by cases given; rfl⟩, fun given => by rw [given.2]; rfl⟩

namespace Position

variable {required : Bool} {items : List Position} {fields : List (String × Position)}

/-- A list has the data of all its items, or was lost where null is admitted. -/
theorem response?_list {data : Response} (given : (list required items).response? = some data) :
    (∃ responses, itemResponses? items = some responses ∧ data = .list responses) ∨
      required = false ∧ data = .null := by
  unfold response? at given
  split at given
  · next responses gathered =>
    cases given
    exact Or.inl ⟨responses, gathered, rfl⟩
  · exact Or.inr (Response.lost_eq_some.mp given)

/-- An object has the data of all its fields, or was lost where null is admitted. -/
theorem response?_object {data : Response}
    (given : (object required fields).response? = some data) :
    (∃ entries, fieldResponses? fields = some entries ∧ data = .object entries) ∨
      required = false ∧ data = .null := by
  unfold response? at given
  split at given
  · next entries gathered =>
    cases given
    exact Or.inl ⟨entries, gathered, rfl⟩
  · exact Or.inr (Response.lost_eq_some.mp given)

theorem itemResponses?_cons {item : Position} {responses : List Response}
    (gathered : itemResponses? (item :: items) = some responses) :
    ∃ response others, item.response? = some response ∧ itemResponses? items = some others ∧
      responses = response :: others := by
  unfold itemResponses? at gathered
  split at gathered
  · next response others given restGathered =>
    cases gathered
    exact ⟨response, others, given, restGathered, rfl⟩
  · cases gathered

theorem fieldResponses?_cons {key : String} {position : Position}
    {entries : List (String × Response)}
    (gathered : fieldResponses? ((key, position) :: fields) = some entries) :
    ∃ response others, position.response? = some response ∧ fieldResponses? fields = some others ∧
      entries = (key, response) :: others := by
  unfold fieldResponses? at gathered
  split at gathered
  · next response others given restGathered =>
    cases gathered
    exact ⟨response, others, given, restGathered, rfl⟩
  · cases gathered

end Position

namespace Environment

variable (env : Environment σ)

/-- A value of a type in a response: a declared symbol of an enum, a value of a built-in scalar, or
what serializing gives for another scalar, unless that is null. -/
inductive LeafConforms (name : String) : Value → Prop where
  | enum {type : EnumType} {symbol : String} :
      env.registry.type? name = some (.enum type) → (type.valueFor? symbol).isSome = true →
      LeafConforms name (.str symbol)
  | builtin {scalar : BuiltinScalar} {value : Value} :
      scalar.name = name → scalar.Holds value → LeafConforms name value
  | given {type : ScalarType} {raw value : Value} :
      env.registry.type? name = some (.scalar type) →
      (∀ scalar : BuiltinScalar, scalar.name ≠ name) →
      type.serialize.apply env.behaviour.convert raw = .ok value → value.isNull = false →
      LeafConforms name value

variable (leafHolds : String → Value → Prop)

mutual

/-- Data conforms to a reference and the selections below it, where `leafHolds` says which leaves
the type of a name has. -/
def Conforms (ref : TypeRef) (selections : List (List Selection)) : Response → Prop
  | .null => ref.isNonNull = false
  | .leaf value => ∃ name required, ref = .named name required ∧ leafHolds name value
  | .list items =>
    ∃ item required, ref = .list item required ∧ ItemsConform item selections items
  | .object entries =>
    ∃ name required object groups, ref = .named name required ∧
      (env.registry.type? name = some (.object object) ∨
        object ∈ env.registry.possibleTypes name) ∧
      env.groups? object selections = some groups ∧ EntriesConform object groups entries

/-- The items of a list conform to the type of an item. -/
def ItemsConform (item : TypeRef) (selections : List (List Selection)) : List Response → Prop
  | [] => True
  | first :: rest => Conforms item selections first ∧ ItemsConform item selections rest

/-- The entries of an object conform to its type: there is one for each group, under its key, which
conforms to the type of the field and is null where there is no such field. -/
def EntriesConform (object : ObjectType) (groups : List FieldGroup) :
    List (String × Response) → Prop
  | [] => groups = []
  | (key, response) :: rest =>
    ∃ group others, groups = group :: others ∧ key = group.key ∧
      (match env.registry.field? (.object object) group.first.name with
        | some field => Conforms field.type (group.nodes.map FieldNode.selections) response
        | none => response = .null) ∧
      EntriesConform object others rest

end

/-- Data holds a Boolean in the place of an Int, somewhere below a reference. -/
inductive Misplaces : TypeRef → List (List Selection) → Response → Prop where
  | leaf {name : String} {required : Bool} {value : Value} {selections : List (List Selection)} :
      IsMisplaced name value → Misplaces (.named name required) selections (.leaf value)
  | item {item : TypeRef} {required : Bool} {selections : List (List Selection)}
      {inner : Response} {items : List Response} :
      inner ∈ items → Misplaces item selections inner →
      Misplaces (.list item required) selections (.list items)
  | entry {name : String} {required : Bool} {object : ObjectType} {groups : List FieldGroup}
      {group : FieldGroup} {field : Field} {selections : List (List Selection)}
      {inner : Response} {entries : List (String × Response)} :
      (env.registry.type? name = some (.object object) ∨
        object ∈ env.registry.possibleTypes name) →
      env.groups? object selections = some groups → group ∈ groups →
      env.registry.field? (.object object) group.first.name = some field →
      (group.key, inner) ∈ entries →
      Misplaces field.type (group.nodes.map FieldNode.selections) inner →
      Misplaces (.named name required) selections (.object entries)

/-- The data of an execution conforms to the root type and the selections of the operation, and is
null where there is no root type. -/
def DataConforms (data : Response) : Prop :=
  match env.rootType? with
  | some root =>
    env.Conforms leafHolds (.named root.name) [env.request.operation.selections] data
  | none => data = .null

/-- The data of an execution holds a Boolean in the place of an Int. -/
def DataMisplaces (data : Response) : Prop :=
  ∃ root, env.rootType? = some root ∧
    env.Misplaces (.named root.name) [env.request.operation.selections] data

variable {env}

/-- A leaf that is laid out is a value of its type, or a Boolean in the place of an Int. -/
theorem IsLeaf.conforms (accepted : env.registry.Accepted) {name : String} {value : Value}
    (leaf : env.IsLeaf name value) : env.LeafConforms name value ∨ IsMisplaced name value := by
  cases leaf with
  | enum typed symbol => exact Or.inl (.enum typed (EnumType.isSome_valueFor?_of_symbolFor? symbol))
  | @scalar type raw _ typed serialized present =>
    by_cases builtin : ∃ scalar : BuiltinScalar, scalar.name = name
    · obtain ⟨scalar, rfl⟩ := builtin
      rw [accepted.type?_scalar scalar] at typed
      cases typed
      have converted : scalar.serialize raw.plain = .ok value :=
        BuiltinScalar.serialize_of_convert serialized
      rcases BuiltinScalar.holds_of_serialize converted with held | ⟨rfl, misplaced⟩
      · exact Or.inl (.builtin rfl held)
      · exact Or.inr ⟨rfl, misplaced⟩
    · exact Or.inl (.given typed (not_exists.mp builtin) serialized present)

mutual

/-- The data of a position that is laid out conforms to its type, but for Booleans in the place of
an Int. -/
theorem conforms_of_fits (accepted : env.registry.Accepted) : ∀ (position : Position)
    {ref : TypeRef} {selections : List (List Selection)} {data : Response},
    env.Fits ref selections position → position.response? = some data →
    env.Conforms (fun name value => env.LeafConforms name value ∨ IsMisplaced name value) ref
      selections data
  | .null, _, _, _, fits, given => by
    cases given
    exact fits
  | .leaf value, _, _, _, ⟨name, required, same, leaf⟩, given => by
    cases given
    exact ⟨name, required, same, leaf.conforms accepted⟩
  | .failed required error, _, _, _, fits, given => by
    obtain ⟨rfl, rfl⟩ := Response.lost_eq_some.mp given
    exact fits.symm
  | .list required items, _, _, _, ⟨item, same, itemsFit⟩, given => by
    rcases Position.response?_list given with ⟨responses, gathered, rfl⟩ | ⟨rfl, rfl⟩
    · exact ⟨item, required, same, itemsConform_of_fit accepted items itemsFit gathered⟩
    · rw [same]
      rfl
  | .object required fields, _, _, _, ⟨name, object, groups, same, admitted, collected, fieldsFit⟩,
      given => by
    rcases Position.response?_object given with ⟨entries, gathered, rfl⟩ | ⟨rfl, rfl⟩
    · exact ⟨name, required, object, groups, same, admitted.declared_or_possible,
        collected.groups? accepted, entriesConform_of_fit accepted fields fieldsFit gathered⟩
    · rw [same]
      rfl

/-- The data of items that are laid out conforms to their type. -/
theorem itemsConform_of_fit (accepted : env.registry.Accepted) : ∀ (items : List Position)
    {item : TypeRef} {selections : List (List Selection)} {responses : List Response},
    env.ItemsFit item selections items → Position.itemResponses? items = some responses →
    env.ItemsConform (fun name value => env.LeafConforms name value ∨ IsMisplaced name value) item
      selections responses
  | [], _, _, _, _, gathered => by
    cases gathered
    trivial
  | first :: rest, _, _, _, ⟨fits, restFit⟩, gathered => by
    obtain ⟨response, responses, given, restGathered, rfl⟩ := Position.itemResponses?_cons gathered
    exact ⟨conforms_of_fits accepted first fits given,
      itemsConform_of_fit accepted rest restFit restGathered⟩

/-- The data of fields that are laid out conforms to their object type. -/
theorem entriesConform_of_fit (accepted : env.registry.Accepted) :
    ∀ (fields : List (String × Position)) {object : ObjectType} {groups : List FieldGroup}
      {entries : List (String × Response)},
    env.FieldsFit object groups fields → Position.fieldResponses? fields = some entries →
    env.EntriesConform (fun name value => env.LeafConforms name value ∨ IsMisplaced name value)
      object groups entries
  | [], _, _, _, fit, gathered => by
    cases gathered
    exact fit
  | (key, position) :: rest, object, _, _, ⟨group, others, grouped, keyed, fits, restFit⟩,
      gathered => by
    obtain ⟨response, entries, given, restGathered, rfl⟩ :=
      Position.fieldResponses?_cons gathered
    refine ⟨group, others, grouped, keyed, ?_,
      entriesConform_of_fit accepted rest restFit restGathered⟩
    cases found : env.registry.field? (.object object) group.first.name with
    | some field =>
      rw [found] at fits
      exact conforms_of_fits accepted position fits given
    | none =>
      rw [found] at fits
      obtain ⟨error, rfl⟩ := fits
      cases given
      rfl

end

mutual

/-- Data conforms entirely, unless it holds a Boolean in the place of an Int. -/
theorem conforms_or_misplaces : ∀ (data : Response) {ref : TypeRef}
    {selections : List (List Selection)},
    env.Conforms (fun name value => env.LeafConforms name value ∨ IsMisplaced name value) ref
      selections data →
    env.Conforms env.LeafConforms ref selections data ∨ env.Misplaces ref selections data
  | .null, _, _, admitted => Or.inl admitted
  | .leaf _, _, _, ⟨name, required, same, leaf⟩ => by
    rcases leaf with conforms | misplaced
    · exact Or.inl ⟨name, required, same, conforms⟩
    · rw [same]
      exact Or.inr (.leaf misplaced)
  | .list items, _, _, ⟨item, required, same, itemsConform⟩ => by
    rcases itemsConform_or_misplaces items itemsConform with conform | ⟨inner, member, misplaced⟩
    · exact Or.inl ⟨item, required, same, conform⟩
    · rw [same]
      exact Or.inr (.item member misplaced)
  | .object entries, _, _,
      ⟨name, required, object, groups, same, admitted, collected, entriesConform⟩ => by
    rcases entriesConform_or_misplaces entries entriesConform with
      conform | ⟨group, grouped, field, found, inner, member, misplaced⟩
    · exact Or.inl ⟨name, required, object, groups, same, admitted, collected, conform⟩
    · rw [same]
      exact Or.inr (.entry admitted collected grouped found member misplaced)

/-- Items conform entirely, unless one holds a Boolean in the place of an Int. -/
theorem itemsConform_or_misplaces : ∀ (items : List Response) {item : TypeRef}
    {selections : List (List Selection)},
    env.ItemsConform (fun name value => env.LeafConforms name value ∨ IsMisplaced name value) item
      selections items →
    env.ItemsConform env.LeafConforms item selections items ∨
      ∃ inner ∈ items, env.Misplaces item selections inner
  | [], _, _, _ => Or.inl trivial
  | first :: rest, _, _, ⟨firstConforms, restConforms⟩ => by
    rcases conforms_or_misplaces first firstConforms with conforms | misplaced
    · rcases itemsConform_or_misplaces rest restConforms with others | ⟨inner, member, misplaced⟩
      · exact Or.inl ⟨conforms, others⟩
      · exact Or.inr ⟨inner, List.mem_cons_of_mem _ member, misplaced⟩
    · exact Or.inr ⟨first, List.mem_cons_self, misplaced⟩

/-- Entries conform entirely, unless one holds a Boolean in the place of an Int. -/
theorem entriesConform_or_misplaces : ∀ (entries : List (String × Response))
    {object : ObjectType} {groups : List FieldGroup},
    env.EntriesConform (fun name value => env.LeafConforms name value ∨ IsMisplaced name value)
      object groups entries →
    env.EntriesConform env.LeafConforms object groups entries ∨
      ∃ group ∈ groups, ∃ field,
        env.registry.field? (.object object) group.first.name = some field ∧
          ∃ inner, (group.key, inner) ∈ entries ∧
            env.Misplaces field.type (group.nodes.map FieldNode.selections) inner
  | [], _, _, empty => Or.inl empty
  | (key, first) :: rest, object, _,
      ⟨group, others, grouped, keyed, firstConforms, restConforms⟩ => by
    have here : (match env.registry.field? (.object object) group.first.name with
        | some field => env.Conforms env.LeafConforms field.type
          (group.nodes.map FieldNode.selections) first
        | none => first = .null) ∨
        ∃ field, env.registry.field? (.object object) group.first.name = some field ∧
          env.Misplaces field.type (group.nodes.map FieldNode.selections) first := by
      cases found : env.registry.field? (.object object) group.first.name with
      | some field =>
        rw [found] at firstConforms
        rcases conforms_or_misplaces first firstConforms with conforms | misplaced
        · exact Or.inl conforms
        · exact Or.inr ⟨field, rfl, misplaced⟩
      | none =>
        rw [found] at firstConforms
        exact Or.inl firstConforms
    subst grouped keyed
    rcases here with conforms | ⟨field, found, misplaced⟩
    · rcases entriesConform_or_misplaces rest restConforms with
        restConform | ⟨other, member, field, found, inner, inside, misplaced⟩
      · exact Or.inl ⟨group, others, rfl, rfl, conforms, restConform⟩
      · exact Or.inr ⟨other, List.mem_cons_of_mem _ member, field, found, inner,
          List.mem_cons_of_mem _ inside, misplaced⟩
    · exact Or.inr ⟨group, List.mem_cons_self, field, found, first, List.mem_cons_self, misplaced⟩

end

/-- The data of an execution that gives a result conforms to the root type of the operation, but for
Booleans in the place of an Int. -/
theorem dataConforms_of_execute (accepted : env.registry.Accepted) {before after : Executor σ}
    {result : ExecutionResult} (ran : env.execute.runFrom before = (.ok result, after)) :
    env.DataConforms (fun name value => env.LeafConforms name value ∨ IsMisplaced name value)
      result.data := by
  unfold DataConforms
  cases found : env.rootType? with
  | none =>
    rw [runFrom_execute_of_none found] at ran
    cases ran
    rfl
  | some root =>
    obtain ⟨noted, _, outcome⟩ :=
      execute_delivers found (fun _ => trivial) (fun _ : before.world.Waits => trivial)
    rw [ran] at outcome
    dsimp only
    cases outcome with
    | uncollected _ empty =>
      rw [empty]
      rfl
    | assembled collected _ assembled _ =>
      rcases assembled with ⟨empty, _⟩ | ⟨fields, ⟨fieldsFit, _⟩, data⟩
      · rw [empty]
        rfl
      · rw [data]
        unfold Position.rootResponse
        split
        · next entries gathered =>
          refine ⟨root.name, false, root, _, rfl, Or.inl (registered_of_rootType? found),
            collected.groups? accepted, ?_⟩
          exact entriesConform_of_fit accepted fields fieldsFit gathered
        · rfl

/-- The data of every execution that gives a result conforms to the declared types, unless it holds
a Boolean in the place of an Int; and an Int is serialized to a Boolean exactly from a flag. -/
theorem execute_conforms (accepted : env.registry.Accepted) {before after : Executor σ}
    {result : ExecutionResult} (ran : env.execute.runFrom before = (.ok result, after)) :
    env.DataConforms (fun name value => env.LeafConforms name value ∨ IsMisplaced name value)
        result.data ∧
      (¬ env.DataMisplaces result.data → env.DataConforms env.LeafConforms result.data) ∧
      ∀ value b, BuiltinScalar.int.serialize value = .ok (.bool b) ↔
        BuiltinScalar.IsFlag b value := by
  have conforms := dataConforms_of_execute accepted ran
  refine ⟨conforms, fun placed => ?_, fun _ _ => BuiltinScalar.serialize_int_eq_bool_iff⟩
  unfold DataConforms at conforms ⊢
  split
  · next root found =>
    rw [found] at conforms
    rcases conforms_or_misplaces _ conforms with strictly | misplaced
    · exact strictly
    · exact absurd ⟨root, found, misplaced⟩ placed
  · next missing =>
    rw [missing] at conforms
    exact conforms

/-- An object type with one field, an Int. -/
def countQuery : ObjectType where
  name := "Query"
  fields := [{ name := "count", type := .named "Int", resolver := .given 0 }]

/-- A schema with a query for an Int. -/
def countSchema : Schema where
  query := some (.definition (.object countQuery))

/-- The registry of that schema. -/
def countRegistry : Registry :=
  countSchema.tableWithin 100

theorem accepted_countRegistry : countRegistry.Accepted :=
  Schema.accepted_of_soundWithin (by decide +kernel)

/-- A query for an Int, for which user code gives some value. -/
def counting (value : Value) : Environment Unit where
  registry := countRegistry
  behaviour := {
    resolve := fun _ _ _ _ => .finish value
    hook := fun _ value => .ok value
    convert := fun _ value => .ok value }
  request := { operation := { selections := [.field "count" none [] [] none []] } }

/-- A Boolean alone is serialized to an integer. -/
theorem execute_conforms_boolean :
    ∃ result after, countRegistry.Accepted ∧
      (counting (.bool true)).execute.runFrom { world := { user := () } } = (.ok result, after) ∧
      result.data = .object [("count", .leaf (.int 1))] ∧
      (counting (.bool true)).DataConforms (counting (.bool true)).LeafConforms result.data := by
  have finished : ∃ result after,
      (counting (.bool true)).execute.runFrom { world := { user := () } } = (.ok result, after) ∧
        result.data = .object [("count", .leaf (.int 1))] := ⟨_, _, rfl, rfl⟩
  obtain ⟨result, after, ran, data⟩ := finished
  refine ⟨result, after, accepted_countRegistry, ran, data, ?_⟩
  refine (execute_conforms accepted_countRegistry ran).2.1 ?_
  rw [data]
  rintro ⟨root, _, misplaced⟩
  cases misplaced with
  | @entry _ _ _ _ group field _ inner _ _ _ _ _ member misplaced =>
    have integer : inner = .leaf (.int 1) := congrArg Prod.snd (List.mem_singleton.mp member)
    rw [integer] at misplaced
    generalize field.type = ref at misplaced
    cases misplaced with
    | leaf boolean =>
      obtain ⟨_, b, same⟩ := boolean
      cases same

/-- A flag for which an Int is declared. -/
def countedFlag : Value :=
  .member "Switch" "ON" (.bool true) [("ON", .bool true)] []

/-- A flag makes the data hold its Boolean, which is no Int. -/
theorem execute_misplaces_flag :
    ∃ result after, countRegistry.Accepted ∧
      (counting countedFlag).execute.runFrom { world := { user := () } } = (.ok result, after) ∧
      result.data = .object [("count", .leaf (.bool true))] ∧
      ¬ (counting countedFlag).DataConforms (counting countedFlag).LeafConforms result.data := by
  refine ⟨_, _, accepted_countRegistry, rfl, rfl, ?_⟩
  rintro ⟨_, _, object, groups, same, admitted, collected, group, others, grouped, _, conforms, _⟩
  cases same
  have declared : countRegistry.type? "Query" = some (.object countQuery) := rfl
  have query : object = countQuery := by
    rcases admitted with itself | possible
    · cases declared.symm.trans itself
      rfl
    · cases (possible : object ∈ [])
  subst query
  subst grouped
  have given : (counting countedFlag).groups? countQuery
      [(counting countedFlag).request.operation.selections] =
        some [{ first := { name := "count", responseKey := "count" } }] := rfl
  cases given.symm.trans collected
  obtain ⟨name, required, typed, leaf⟩ := conforms
  cases typed
  cases leaf with
  | @builtin scalar _ named held =>
    have integer : scalar = .int := by
      cases scalar with
      | int => rfl
      | float | string | boolean | id => exact absurd named (by decide)
    rw [integer] at held
    exact held
  | given _ other _ _ => exact other .int rfl

end Environment

end GraphQL
