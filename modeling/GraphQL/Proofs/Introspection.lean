import GraphQL.Proofs.Metafields

/-!
# Introspection is faithful

A schema describes itself without loss: what a query for a registered type answers can be read back
as the definition, with its members in the order of their declaration and with the references that
they declare. The members of a type are followed one by one from the registry into the answer.
-/

namespace GraphQL

variable {σ : Type}

open Introspection

/-- An attribute that a parent has is found. -/
theorem Introspector.attributeOf_eq {parent : Value} {name : String} {reading : Reading}
    (found : parent.attribute? name = some reading) :
    attributeOf parent name = .ok reading.toValue := by
  unfold attributeOf
  rw [found]

namespace Environment

variable {env : Environment σ} {places : Places}

/-! ## Members -/

section Lists

variable {α β : Type} {item : TypeRef} {required : Bool} {toValue : α → Value}
  {read : Response → Option β} {outline : α → β} {selections : List Selection}

variable (env item toValue selections read outline) in
/-- A member of a type tells data from which its outline is read. -/
def Conveys (member : α) : Prop :=
  (toValue member).isLasting = true ∧
    ∃ data, env.Tells item (toValue member) selections data ∧ read data = some (outline member)

/-- A list of members tells a list from which their outlines are read. -/
theorem exists_tells_list {members : List α}
    (each : ∀ member ∈ members, env.Conveys item toValue read outline selections member) :
    ∃ all, env.Tells (.list item required) (.list (members.map toValue)) selections (.list all) ∧
      all.mapM read = some (members.map outline) := by
  have found : ∃ all, List.Forall₂ (fun value data => value.isLasting = true ∧
      env.Tells item value selections data) (members.map toValue) all ∧
      all.mapM read = some (members.map outline) := by
    induction members with
    | nil => exact ⟨[], .nil, rfl⟩
    | cons member rest ih =>
      obtain ⟨⟨lasts, data, tells, reads⟩, later⟩ := List.forall_mem_cons.mp each
      obtain ⟨all, held, readAll⟩ := ih later
      refine ⟨data :: all, .cons ⟨lasts, tells⟩ held, ?_⟩
      rw [List.mapM_cons, reads, readAll]
      rfl
  obtain ⟨all, held, reads⟩ := found
  exact ⟨all, .list held, reads⟩

/-- Members of a type that has such members or not tell a list or null. -/
theorem exists_tells_part {members : Option (List α)}
    (each : ∀ all, members = some all →
      ∀ member ∈ all, env.Conveys item toValue read outline selections member) :
    ∃ data, env.Tells (.list item)
        ((members.map fun all => Value.list (all.map toValue)).getD .null) selections data ∧
      data.orNull? (Response.items? read) = some (members.map (List.map outline)) := by
  cases members with
  | none => exact ⟨.null, .null rfl rfl, rfl⟩
  | some members =>
    obtain ⟨all, tells, reads⟩ := exists_tells_list (each members rfl)
    refine ⟨.list all, tells, ?_⟩
    show (all.mapM read).map some = _
    rw [reads]
    rfl

end Lists

/-- A parent replies to a selection with an attribute. -/
theorem repliesTo_attribute {object : ObjectType} {field : Field} {name className : String}
    {identity : Nat} {attributes : Entries Value} {methods : List (String × Nat)} {value : Value}
    {below : Places → List Selection} {data : Response}
    (declared : (TypeDefinition.object object).field? name = some field)
    (plain : name ∉ [typenameField.name, schemaField.name, typeField.name])
    (resolved : field.resolver = .default) (bare : field.args = [])
    (found : Entries.get? attributes field.key = some value) (lasts : value.isLasting = true)
    (supplied : value.isUndefined = false)
    (tells : env.Tells field.type value (below fun path => places (name :: path)) data) :
    env.RepliesTo object (.object identity className attributes methods)
      (ask places name [] below) (name, data) := by
  refine repliesTo_ask declared plain (bare ▸ coerced_nothing) ?_ lasts tells
  exact resolves_read resolved fun change => ⟨change, Value.read_mapFaults_object found supplied _⟩

/-- The arguments of a field stand in order behind its attribute for them. -/
theorem resolves_arguments {resolved field : Field} {args : Entries Value}
    (resolver : resolved.resolver = .introspect .arguments) :
    env.Resolves resolved field.toValue args (.list (field.args.map Argument.toValue)) := by
  have holds : ∀ change, Introspector.attributeOf (field.toValue.mapFaults change).bare
      Introspector.argumentsName = .ok ((Argument.toValues field.args).mapFaults change) := by
    intro change
    have found : (field.toValue.mapFaults change).attribute? "args" =
        some (.value ((Argument.toValues field.args).mapFaults change)) :=
      Value.attribute?_mapFaults_object rfl
    exact Introspector.attributeOf_eq found
  refine resolves_inspect resolver (fun change => ?_) fun change => ⟨change, ?_⟩
  · show Introspector.valuesMethod? (field.toValue.mapFaults change).bare = none
    unfold Introspector.valuesMethod?
    rw [holds]
    rfl
  · unfold Introspector.resolve Introspector.resolvePlain
    dsimp only
    have values : Introspector.valuesOf ((Argument.toValues field.args).mapFaults change) =
        .ok ((Value.list (field.args.map Argument.toValue)).mapFaults change) := by
      rw [Argument.toValues, Value.mapFaults, Value.mapFaults, Value.mapFaultsItems_eq,
        Value.mapFaultsEntries_eq]
      simp [Introspector.valuesOf, Value.bare, Entries.values, Function.comp_def]
    have chained : (Introspector.attributeOf (field.toValue.mapFaults change).bare
        Introspector.argumentsName >>= Introspector.valuesOf) =
        .ok ((Value.list (field.args.map Argument.toValue)).mapFaults change) := by
      rw [holds]
      exact values
    rw [chained]
    rfl

section Members

variable (accepted : env.registry.Accepted) {depth : Nat}

include accepted

/-- An argument or input field tells its name and its type. -/
theorem conveys_argument {arg : Argument} {required : Bool}
    (known : (env.registry.type? arg.type.name).isSome = true)
    (fits : arg.type.wrappers ≤ depth) :
    env.Conveys (.named "__InputValue" required) Argument.toValue Response.argument?
      Argument.outline (argumentSelections depth places) arg := by
  have registered : env.registry.type? "__InputValue" = some (.object inputValue) :=
    accepted.type?_of_builtin rfl
  obtain ⟨data, tells, reads⟩ := @exists_tells_reference _ _ accepted true depth
    (fun path => places ("type" :: path)) _ known fits
  have name : env.RepliesTo inputValue arg.toValue (ask places "name")
      ("name", .leaf (.str arg.name)) :=
    repliesTo_attribute rfl (by decide) rfl rfl rfl rfl rfl (tells_text accepted arg.name)
  have type : env.RepliesTo inputValue arg.toValue
      (ask places "type" [] (referenceSelections depth)) ("type", data) :=
    repliesTo_attribute rfl (by decide) rfl rfl rfl arg.type.isLasting_toValue
      arg.type.isUndefined_toValue tells
  refine ⟨rfl, _, .object registered rfl rfl (by simp [argumentSelections]) ?_ accepted <|
    .cons name <| .cons type .nil, ?_⟩
  · simp
  · simp [Response.argument?, Response.name?, Response.entry?, Entries.get?, reads,
      Argument.outline]

/-- A name tells itself. -/
theorem tells_name {required : Bool} (name : String) :
    env.Tells (.named "__Type" required) (.str name) (nameSelections places)
      (.object [("name", .leaf (.str name))]) := by
  have registered : env.registry.type? "__Type" = some (.object Introspection.type) :=
    accepted.type?_of_builtin rfl
  refine .object registered rfl rfl (by simp [nameSelections]) ?_ accepted <|
    .cons (repliesTo_name accepted _) .nil
  simp

/-- A value that is a name tells the name. -/
theorem conveys_name {α : Type} {toValue : α → Value} {title : α → String} {required : Bool}
    {member : α} (named : toValue member = .str (title member)) :
    env.Conveys (.named "__Type" required) toValue Response.name? title (nameSelections places)
      member := by
  unfold Conveys
  rw [named]
  exact ⟨rfl, _, tells_name accepted _, rfl⟩

/-- A symbol of an enum tells its name. -/
theorem conveys_symbol {required : Bool} (entry : EnumValue) :
    env.Conveys (.named "__EnumValue" required) EnumValue.toValue Response.name? EnumValue.symbol
      (nameSelections places) entry := by
  have registered : env.registry.type? "__EnumValue" = some (.object enumValue) :=
    accepted.type?_of_builtin rfl
  have name : env.RepliesTo enumValue entry.toValue (ask places "name")
      ("name", .leaf (.str entry.symbol)) :=
    repliesTo_attribute rfl (by decide) rfl rfl rfl rfl rfl (tells_text accepted entry.symbol)
  refine ⟨rfl, _, .object registered rfl rfl (by simp [nameSelections]) ?_ accepted <|
    .cons name .nil, rfl⟩
  simp

/-- A field tells its name, its arguments in order and its type. -/
theorem conveys_field {field : Field} {required : Bool}
    (known : ∀ reference ∈ field.references, (env.registry.type? reference.target).isSome = true)
    (fits : ∀ reference ∈ field.references, reference.ref.wrappers ≤ depth) :
    env.Conveys (.named "__Field" required) Field.toValue Response.field? Field.outline
      (fieldSelections depth places) field := by
  have registered : env.registry.type? "__Field" = some (.object Introspection.field) :=
    accepted.type?_of_builtin rfl
  obtain ⟨typeData, tellsType, readsType⟩ := @exists_tells_reference _ _ accepted true depth
    (fun path => places ("type" :: path)) field.type (known _ List.mem_cons_self)
    (fits _ List.mem_cons_self)
  have each : ∀ arg ∈ field.args, env.Conveys (.named "__InputValue" true) Argument.toValue
      Response.argument? Argument.outline
      (argumentSelections depth fun path => places ("args" :: path)) arg := by
    intro arg among
    have refers : ⟨.argument field.name arg.name, arg.type⟩ ∈ field.references :=
      List.mem_cons_of_mem _ (List.mem_map.mpr ⟨arg, among, rfl⟩)
    exact conveys_argument accepted (known _ refers) (fits _ refers)
  obtain ⟨argsData, tellsArgs, readsArgs⟩ : ∃ all,
      env.Tells (.list (.named "__InputValue" true) true) (.list (field.args.map Argument.toValue))
        (argumentSelections depth fun path => places ("args" :: path)) (.list all) ∧
      all.mapM Response.argument? = some (field.args.map Argument.outline) :=
    exists_tells_list each
  have name : env.RepliesTo Introspection.field field.toValue (ask places "name")
      ("name", .leaf (.str field.name)) :=
    repliesTo_attribute rfl (by decide) rfl rfl rfl rfl rfl (tells_text accepted field.name)
  have args : env.RepliesTo Introspection.field field.toValue
      (ask places "args" [] (argumentSelections depth)) ("args", .list argsData) := by
    have coerced : ∀ world, ((env.coercion world).coerceArguments defaultCoercionDepth
        [includeDeprecated] []).outcome = .ok [("include_deprecated", .bool false)] :=
      fun world => coerced_flag accepted world (Or.inr ⟨rfl, rfl⟩)
    exact repliesTo_ask rfl (by decide) coerced (resolves_arguments rfl) rfl tellsArgs
  have type : env.RepliesTo Introspection.field field.toValue
      (ask places "type" [] (referenceSelections depth)) ("type", typeData) :=
    repliesTo_attribute rfl (by decide) rfl rfl rfl field.type.isLasting_toValue
      field.type.isUndefined_toValue tellsType
  refine ⟨rfl, _, .object registered rfl rfl (by simp [fieldSelections]) ?_ accepted <|
    .cons name <| .cons args <| .cons type .nil, ?_⟩
  · simp
  · simp [Response.field?, Response.name?, Response.entry?, Entries.get?, Response.items?,
      readsType, readsArgs, Field.outline]

end Members

/-! ## Types -/

/-- A type replies to a selection with its members of some sort, or with null where its kind has
none. -/
theorem exists_repliesTo_part {α β : Type} {item : TypeRef} (toValue : α → Value)
    {read : Response → Option β} {outline : α → β} {what : Introspector} {field : Field}
    {title name : String} {arguments args : Entries Value} {below : Places → List Selection}
    {members : Option (List α)}
    (declared : (TypeDefinition.object Introspection.type).field? title = some field)
    (plain : title ∉ [typenameField.name, schemaField.name, typeField.name])
    (listed : field.type = .list item) (resolved : field.resolver = .introspect what)
    (other : what ≠ .arguments)
    (coerced : ∀ world, ((env.coercion world).coerceArguments defaultCoercionDepth field.args
      arguments).outcome = .ok args)
    (gives : what.resolvePlain env.registry (.str name) args =
      pure ((members.map fun all => Value.list (all.map toValue)).getD .null))
    (each : ∀ all, members = some all → ∀ member ∈ all, env.Conveys item toValue read outline
      (below fun path => places (title :: path)) member) :
    ∃ data, env.RepliesTo Introspection.type (.str name) (ask places title arguments below)
        (title, data) ∧
      data.orNull? (Response.items? read) = some (members.map (List.map outline)) := by
  obtain ⟨data, tells, reads⟩ := exists_tells_part each
  have lasts : ((members.map fun all => Value.list (all.map toValue)).getD .null).isLasting =
      true := by
    cases members with
    | none | some _ => rfl
  refine ⟨data, repliesTo_ask declared plain coerced ?_ lasts (listed ▸ tells), reads⟩
  refine resolves_inspect resolved (fun _ => if_neg other) fun change => ⟨id, ?_⟩
  rw [Value.mapFaults_id]
  exact gives

section Parts

variable (accepted : env.registry.Accepted) {name : String} {type : TypeDefinition}
  (found : env.registry.type? name = some type) {depth : Nat}

include found in
theorem ofDefinition_eq (part : TypeDefinition → Option Value) :
    Introspector.ofDefinition env.registry (.str name) part = (part type).getD .null := by
  show ((env.registry.type? name).bind part).getD .null = _
  rw [found]
  rfl

include accepted found

theorem exists_repliesTo_fields (fits : env.registry.IsWrappedWithin depth) :
    ∃ data, env.RepliesTo Introspection.type (.str name)
        (ask places "fields" withDeprecated (fieldSelections depth)) ("fields", data) ∧
      data.orNull? (Response.items? Response.field?) =
        some (type.fields?.map (List.map Field.outline)) := by
  have member := Registry.mem_of_type? found
  have wanted : ∀ world, ((env.coercion world).coerceArguments defaultCoercionDepth
      [includeDeprecated] withDeprecated).outcome = .ok [("include_deprecated", .bool true)] :=
    fun world => coerced_flag accepted world (Or.inl rfl)
  refine exists_repliesTo_part Field.toValue rfl (by decide) rfl rfl nofun wanted ?_ ?_
  · show pure (Introspector.ofDefinition _ _ _) = _
    rw [ofDefinition_eq found]
    cases type <;> rfl
  · intro fields selectable field among
    have refers : ∀ reference ∈ field.references, reference ∈ type.references := by
      intro reference refers
      cases type with
      | object _ | interface _ =>
        cases selectable
        exact List.mem_append_left _ (List.mem_flatMap.mpr ⟨field, among, refers⟩)
      | scalar _ | enum _ | union _ | input _ | custom _ _ => cases selectable
    exact conveys_field accepted (fun reference inside => accepted.closed member (refers _ inside))
      fun reference inside => fits type member reference (refers _ inside)

theorem exists_repliesTo_inputFields (fits : env.registry.IsWrappedWithin depth) :
    ∃ data, env.RepliesTo Introspection.type (.str name)
        (ask places "inputFields" [] (argumentSelections depth)) ("inputFields", data) ∧
      data.orNull? (Response.items? Response.argument?) =
        some (type.inputFields?.map (List.map Argument.outline)) := by
  have member := Registry.mem_of_type? found
  have unwanted : ∀ world, ((env.coercion world).coerceArguments defaultCoercionDepth
      [includeDeprecated] []).outcome = .ok [("include_deprecated", .bool false)] :=
    fun world => coerced_flag accepted world (Or.inr ⟨rfl, rfl⟩)
  refine exists_repliesTo_part Argument.toValue rfl (by decide) rfl rfl nofun unwanted ?_ ?_
  · show pure (Introspector.ofDefinition _ _ _) = _
    rw [ofDefinition_eq found]
    cases type <;> rfl
  · intro fields given field among
    have refers : ⟨.inputField field.name, field.type⟩ ∈ type.references := by
      cases type with
      | input _ =>
        cases given
        exact List.mem_map.mpr ⟨field, among, rfl⟩
      | scalar _ | enum _ | object _ | interface _ | union _ | custom _ _ => cases given
    exact conveys_argument accepted (accepted.closed member refers) (fits type member _ refers)

theorem exists_repliesTo_symbols :
    ∃ data, env.RepliesTo Introspection.type (.str name)
        (ask places "enumValues" withDeprecated nameSelections) ("enumValues", data) ∧
      data.orNull? (Response.items? Response.name?) =
        some (type.symbols?.map (List.map EnumValue.symbol)) := by
  have wanted : ∀ world, ((env.coercion world).coerceArguments defaultCoercionDepth
      [includeDeprecated] withDeprecated).outcome = .ok [("include_deprecated", .bool true)] :=
    fun world => coerced_flag accepted world (Or.inl rfl)
  refine exists_repliesTo_part EnumValue.toValue rfl (by decide) rfl rfl nofun wanted ?_ ?_
  · show pure (Introspector.ofDefinition _ _ _) = _
    rw [ofDefinition_eq found]
    cases type <;> rfl
  · exact fun _ _ entry _ => conveys_symbol accepted entry

theorem exists_repliesTo_interfaces :
    ∃ data, env.RepliesTo Introspection.type (.str name)
        (ask places "interfaces" [] nameSelections) ("interfaces", data) ∧
      data.orNull? (Response.items? Response.name?) =
        some (type.interfaces?.map (List.map TypeRef.name)) := by
  have member := Registry.mem_of_type? found
  refine exists_repliesTo_part TypeRef.toValue rfl (by decide) rfl rfl nofun coerced_nothing ?_ ?_
  · show pure (Introspector.ofDefinition _ _ _) = _
    rw [ofDefinition_eq found]
    cases type <;> rfl
  · intro interfaces listing ref among
    have listed : ref ∈ type.interfaces := by
      cases type with
      | object _ | interface _ =>
        cases listing
        exact among
      | scalar _ | enum _ | union _ | input _ | custom _ _ => cases listing
    obtain ⟨interface, _, rfl, _⟩ := accepted.implements member listed
    exact conveys_name accepted rfl

theorem exists_repliesTo_possibleTypes :
    ∃ data, env.RepliesTo Introspection.type (.str name)
        (ask places "possibleTypes" [] nameSelections) ("possibleTypes", data) ∧
      data.orNull? (Response.items? Response.name?) =
        some ((env.registry.possibleTypes? type).map (List.map ObjectType.name)) := by
  refine exists_repliesTo_part (fun object : ObjectType => .str object.name) rfl (by decide) rfl rfl
    nofun coerced_nothing ?_ ?_
  · show pure (Introspector.ofDefinition _ _ _) = _
    rw [ofDefinition_eq found]
    unfold Registry.possibleTypes?
    split <;> rfl
  · exact fun _ _ object _ => conveys_name accepted rfl

/-- A registered type tells its definition. -/
theorem exists_tells_type (places : Places) (fits : env.registry.IsWrappedWithin depth) :
    ∃ data outline, env.Tells (.named "__Type") (.str name) (typeSelections depth places) data ∧
      data.type? = some outline ∧ env.registry.outline? type = some outline := by
  have registered : env.registry.type? "__Type" = some (.object Introspection.type) :=
    accepted.type?_of_builtin rfl
  obtain ⟨kind, isKind⟩ :=
    Option.isSome_iff_exists.mp (accepted.kind?_isSome (Registry.mem_of_type? found))
  have kindOf : env.registry.kindOf? (.named name) = some kind :=
    (congrArg (Option.bind · TypeDefinition.kind?) found).trans isKind
  have named : name = type.name := (Registry.name_of_type? found).symm
  obtain ⟨fields, tellsFields, readFields⟩ := exists_repliesTo_fields accepted found fits
  obtain ⟨inputs, tellsInputs, readInputs⟩ := exists_repliesTo_inputFields accepted found fits
  obtain ⟨symbols, tellsSymbols, readSymbols⟩ := exists_repliesTo_symbols accepted found
  obtain ⟨interfaces, tellsInterfaces, readInterfaces⟩ :=
    exists_repliesTo_interfaces accepted found
  obtain ⟨possible, tellsPossible, readPossible⟩ := exists_repliesTo_possibleTypes accepted found
  have outlined : ∃ outline, env.registry.outline? type = some outline := by
    unfold Registry.outline?
    rw [isKind]
    exact ⟨_, rfl⟩
  obtain ⟨outline, isOutline⟩ := outlined
  refine ⟨_, outline, .object registered rfl rfl (by simp [typeSelections]) ?_ accepted <|
    .cons (repliesTo_kind accepted kindOf) <| .cons (repliesTo_name accepted name) <|
    .cons tellsFields <| .cons tellsInputs <| .cons tellsSymbols <| .cons tellsInterfaces <|
    .cons tellsPossible .nil, ?_, isOutline⟩
  · simp
  · rw [← isOutline]
    simp [Response.type?, Response.kind?, Response.name?, Response.entry?, Entries.get?,
      Registry.outline?, readFields, readInputs, readSymbols, readInterfaces, readPossible, named,
      isKind]

end Parts

/-! ## Operations -/

section Roots

variable (accepted : env.registry.Accepted) {root : ObjectType}
  (isRoot : root.name = env.registry.query)

include isRoot in
theorem field?_typeField :
    env.registry.field? (.object root) typeField.name = some typeField := by
  have same : ((TypeDefinition.object root).name == env.registry.query) = true :=
    beq_iff_eq.mpr isRoot
  unfold Registry.field?
  rw [same]
  rfl

include isRoot in
theorem field?_schemaField :
    env.registry.field? (.object root) schemaField.name = some schemaField := by
  have same : ((TypeDefinition.object root).name == env.registry.query) = true :=
    beq_iff_eq.mpr isRoot
  unfold Registry.field?
  rw [same]
  rfl

include accepted isRoot

/-- The query root replies with the type of a name, or with null where it is not registered. -/
theorem repliesTo_type {parent : Value} {name : String} {depth : Nat} {data : Response}
    (tells : env.Tells (.named "__Type") (if env.registry.contains name then .str name else .null)
      (typeSelections depth fun path => places (typeField.name :: path)) data) :
    env.RepliesTo root parent (typeSelection name depth places) (typeField.name, data) := by
  refine .field (.of_value (field?_typeField isRoot) (by decide)
    (fun world => coerced_name accepted world name) ?_ ?_ tells)
  · refine resolves_inspect rfl (fun _ => rfl) fun change => ⟨id, ?_⟩
    rw [Value.mapFaults_id]
    rfl
  · split <;> rfl

/-- The query root replies with the names of all types. -/
theorem repliesTo_types {parent : Value} :
    env.RepliesTo root parent (typesSelection places) (schemaField.name, .object [("types",
      .list (env.registry.names.map fun name => .object [("name", .leaf (.str name))]))]) := by
  have registered : env.registry.type? "__Schema" = some (.object Introspection.schema) :=
    accepted.type?_of_builtin rfl
  have names : env.Tells (listOf "__Type") (.list (env.registry.names.map Value.str))
      (nameSelections fun path => places (schemaField.name :: "types" :: path))
      (.list (env.registry.names.map fun name => .object [("name", .leaf (.str name))])) := by
    refine .list (List.forall₂_map_left_iff.mpr (List.forall₂_map_right_iff.mpr ?_))
    exact List.forall₂_same.mpr fun name _ => ⟨rfl, tells_name accepted name⟩
  have types : env.RepliesTo Introspection.schema .schema
      (ask (fun path => places (schemaField.name :: path)) "types" [] nameSelections)
      ("types", .list (env.registry.names.map fun name =>
        .object [("name", .leaf (.str name))])) := by
    refine repliesTo_ask rfl (by decide) coerced_nothing ?_ rfl names
    refine resolves_inspect rfl (fun _ => rfl) fun change => ⟨id, ?_⟩
    rw [Value.mapFaults_id]
    rfl
  have tells : env.Tells schemaField.type .schema
      [ask (fun path => places (schemaField.name :: path)) "types" [] nameSelections]
      (.object [("types", .list (env.registry.names.map fun name =>
        .object [("name", .leaf (.str name))]))]) := by
    refine .object registered rfl rfl (by simp) ?_ accepted (.cons types .nil)
    simp
  refine .field (.of_value (field?_schemaField isRoot) (by decide) coerced_nothing ?_ rfl tells)
  exact resolves_inspect rfl (fun _ => rfl) fun change => ⟨id, rfl⟩

end Roots

/-- Introspection is faithful. Asked for a registered type, with references as deep as they are
wrapped anywhere, a query gives no error, and the definition can be read back from its data; asked
for another name, it gives null and no error; asked for all types, it lists their names in the order
of the registry. So it does in every world, whatever user code and the rest of the request are. -/
theorem introspection_faithful (accepted : env.registry.Accepted)
    (query : env.request.operation.kind = .query) {before : Executor σ}
    (running : before.isStopping = false) (places : Places) :
    (∀ name depth type,
      env.request.operation.selections = [typeSelection name depth places] →
      env.registry.IsWrappedWithin depth → env.registry.type? name = some type →
      ∃ data outline, env.SucceedsWith before (.object [("__type", data)]) ∧
        data.type? = some outline ∧ env.registry.outline? type = some outline) ∧
    (∀ name depth,
      env.request.operation.selections = [typeSelection name depth places] →
      env.registry.contains name = false →
      env.SucceedsWith before (.object [("__type", .null)])) ∧
    (env.request.operation.selections = [typesSelection places] →
      env.SucceedsWith before (.object [("__schema", .object [("types",
        .list (env.registry.names.map fun name => .object [("name", .leaf (.str name))]))])])) := by
  obtain ⟨root, found⟩ := accepted.query_isObject
  have isRoot : root.name = env.registry.query := Registry.name_of_type? found
  have rooted : env.rootType? = some root := by
    unfold rootType?
    rw [query]
    exact Registry.objectType?_of_type? found
  refine ⟨fun name depth type asked fits registered => ?_, fun name depth asked unknown => ?_,
    fun asked => ?_⟩
  · obtain ⟨data, outline, tells, reads, outlined⟩ := exists_tells_type accepted registered
      (fun path => places (typeField.name :: path)) fits
    refine ⟨data, outline, ?_, reads, outlined⟩
    refine succeedsWith_of_repliesTo accepted rooted asked (repliesTo_type accepted isRoot ?_)
      running
    rw [show env.registry.contains name = true from Option.isSome_iff_exists.mpr ⟨_, registered⟩]
    exact tells
  · refine succeedsWith_of_repliesTo accepted rooted asked (repliesTo_type accepted isRoot ?_)
      running
    rw [unknown]
    exact .null rfl rfl
  · exact succeedsWith_of_repliesTo accepted rooted asked (repliesTo_types accepted isRoot) running

end Environment

/-- A query of the café that only asks about its schema. -/
def inquiring (selection : Selection) : Environment Unit where
  registry := cafeRegistry
  behaviour := {
    resolve := fun _ parent _ _ => .finish parent
    hook := fun _ value => .ok value
    convert := fun _ value => .ok value }
  request := { operation := { selections := [selection] } }

/-- The filter of the café is described with the fields that it declares; a tea is unknown. -/
theorem introspection_faithful_cafe :
    (∃ data, (inquiring (typeSelection "Filter" 3 fun _ => none)).SucceedsWith
        { world := { user := () } } (.object [("__type", data)]) ∧
      data.type? = some {
        kind := .inputObject, name := "Filter", fields := none
        inputFields :=
          some [("served", .named "Serving"), ("either", .list (.named "Filter" true))]
        symbols := none, interfaces := none, possibleTypes := none }) ∧
    (inquiring (typeSelection "Tea" 3 fun _ => none)).SucceedsWith { world := { user := () } }
      (.object [("__type", .null)]) := by
  have filter := (@Environment.introspection_faithful _
    (inquiring (typeSelection "Filter" 3 fun _ => none)) accepted_cafeRegistry rfl
    { world := { user := () } } rfl fun _ => none).1
  have tea := (@Environment.introspection_faithful _
    (inquiring (typeSelection "Tea" 3 fun _ => none)) accepted_cafeRegistry rfl
    { world := { user := () } } rfl fun _ => none).2.1
  refine ⟨?_, tea "Tea" 3 rfl (by decide +kernel)⟩
  have outlined : (cafeRegistry.type? "Filter").bind cafeRegistry.outline? = some {
      kind := .inputObject, name := "Filter", fields := none
      inputFields :=
        some [("served", .named "Serving"), ("either", .list (.named "Filter" true))]
      symbols := none, interfaces := none, possibleTypes := none } := by decide +kernel
  obtain ⟨type, registered, expected⟩ := Option.bind_eq_some_iff.mp outlined
  obtain ⟨data, outline, succeeds, reads, found⟩ :=
    filter "Filter" 3 type rfl (by decide +kernel) registered
  exact ⟨data, succeeds, reads.trans (found.symm.trans expected)⟩

end GraphQL
