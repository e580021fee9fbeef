import GraphQL.Proofs.Achieving
import GraphQL.Proofs.Arguments
import GraphQL.Proofs.Inlining
import GraphQL.Proofs.Lookups
import GraphQL.Proofs.Outlines

/-!
# What the introspection types reply

The introspection types are registered and executed like any others. Here each of their fields is
followed through its resolver and the completion of its value, for parents that stand for types and
members of a registry: references, arguments, fields and symbols.
-/

namespace GraphQL

variable {σ : Type}

open Introspection

/-! ## Parents -/

namespace TypeRef

variable (ref : TypeRef) (change : Fault → Fault)

@[simp] theorem mapFaults_toValue : ref.toValue.mapFaults change = ref.toValue := by
  unfold toValue
  split <;> rfl

@[simp] theorem isNull_toValue : ref.toValue.isNull = false := by
  unfold toValue
  split <;> rfl

@[simp] theorem isUndefined_toValue : ref.toValue.isUndefined = false := by
  unfold toValue
  split <;> rfl

@[simp] theorem isLasting_toValue : ref.toValue.isLasting = true := by
  unfold toValue
  split <;> rfl

@[simp] theorem bare_toValue : ref.toValue.bare = ref.toValue := by
  unfold toValue
  split <;> rfl

/-- Only a name that admits null has nothing inside. -/
theorem exists_name_of_inner? {ref : TypeRef} (bottom : ref.inner? = none) :
    ∃ name, ref = .named name := by
  cases ref with
  | named name nonNull =>
    cases nonNull with
    | true => cases bottom
    | false => exact ⟨name, rfl⟩
  | list item nonNull =>
    cases nonNull with
    | true | false => cases bottom

/-- A reference with another one inside is a parent as it stands. -/
theorem toValue_of_inner? {ref inner : TypeRef} (wrapped : ref.inner? = some inner) :
    ref.toValue = .typeRef ref := by
  cases ref with
  | named name nonNull | list item nonNull =>
    cases nonNull with
    | true | false => first | rfl | cases wrapped

theorem exists_wrapper_of_inner? {ref inner : TypeRef} (wrapped : ref.inner? = some inner) :
    ∃ kind, ref.wrapper? = some kind := by
  cases ref with
  | named name nonNull | list item nonNull =>
    cases nonNull with
    | true | false => first | exact ⟨_, rfl⟩ | cases wrapped

theorem wrappers_of_inner? {ref inner : TypeRef} (wrapped : ref.inner? = some inner) :
    ref.wrappers = inner.wrappers + 1 := by
  cases ref with
  | named name nonNull =>
    cases nonNull with
    | true => cases wrapped; rfl
    | false => cases wrapped
  | list item nonNull =>
    cases nonNull with
    | true | false => cases wrapped; rfl

end TypeRef

namespace Value

variable {identity : Nat} {className name : String} {attributes : Entries Value}
  {methods : List (String × Nat)} {value : Value} {change : Fault → Fault}

/-- An object has an attribute of its own whatever becomes of the error objects in it. -/
theorem attribute?_mapFaults_object (found : Entries.get? attributes name = some value) :
    ((object identity className attributes methods).mapFaults change).attribute? name =
      some (.value (value.mapFaults change)) := by
  rw [mapFaults, mapFaultsEntries_eq]
  have shown : Entries.get? (attributes.map fun entry => (entry.1, entry.2.mapFaults change)) name =
      some (value.mapFaults change) := by
    refine (Entries.get?_map (fun _ value => value.mapFaults change) attributes name).trans ?_
    rw [found]
    rfl
  unfold attribute? ownAttribute?
  simp only [bare]
  rw [shown]
  rfl

/-- The default resolver reads an attribute of an object whatever becomes of the error objects in
it. -/
theorem read_mapFaults_object (found : Entries.get? attributes name = some value)
    (supplied : value.isUndefined = false) (title : String) :
    ((object identity className attributes methods).mapFaults change).read name title =
      .value (value.mapFaults change) := by
  have there : ((object identity className attributes methods).mapFaults change).attribute? name =
      some (.value (value.mapFaults change)) := attribute?_mapFaults_object found
  have plain : (value.mapFaults change).isUndefined = false := by rwa [isUndefined_mapFaults]
  unfold read
  rw [mapFaults] at there ⊢
  simp only [bare]
  rw [there]
  split
  · next missing => cases missing
  · next equal =>
    rw [Reading.value.inj (Option.some.inj equal)] at plain
    cases plain
  · next equal => exact (Option.some.inj equal).symm

end Value

/-! ## Kinds -/

/-- What is known of the kind of a reference: its wrapper, or else the kind of the type that it
names. -/
def Registry.kindOf? (registry : Registry) (ref : TypeRef) : Option TypeKind :=
  ref.wrapper? <|> (registry.type? ref.name).bind TypeDefinition.kind?

/-- Introspection gives the kind of a reference. -/
theorem Introspector.kindOf_toValue {registry : Registry} {ref : TypeRef} {kind : TypeKind}
    (known : registry.kindOf? ref = some kind) :
    kindOf registry ref.toValue = .ok kind.toValue := by
  cases ref with
  | named name nonNull =>
    cases nonNull with
    | true =>
      cases known
      rfl
    | false =>
      have named : (definition? registry (.str name)).bind TypeDefinition.kind? = some kind := known
      show kindOf registry (.str name) = _
      unfold kindOf
      rw [named]
  | list item nonNull =>
    cases nonNull with
    | true | false =>
      cases known
      rfl

/-! ## Arguments -/

/-- The only argument of a field, from its literal or from its default. -/
theorem CoercionContext.coerceArguments_singleton {context : CoercionContext} {depth : Nat}
    {arg : Argument} {literals : Entries Value} {raw value : Value}
    (given : Entries.get? literals arg.name = some raw ∧ context.isUnsupplied raw = false ∨
      Entries.get? literals arg.name = none ∧ arg.default = raw)
    (supplied : raw.isUndefined = false)
    (coerced : context.coerce depth arg.type raw [.key arg.name] = pure value)
    (there : value.isUndefined = false) :
    (context.coerceArguments depth [arg] literals).outcome = .ok [(arg.key, value)] := by
  have part : context.argumentPart depth literals arg = pure (some (arg.key, value)) := by
    rcases given with ⟨found, known⟩ | ⟨missing, rfl⟩
    · rw [argumentPart_of_supplied found known]
      unfold member
      rw [supplied, coerced]
      show (if value.isUndefined then _ else _) = _
      rw [there]
      rfl
    · rw [argumentPart_of_none missing]
      unfold absent Argument.hasDefault
      rw [supplied, coerced]
      rfl
  unfold coerceArguments
  rw [List.map_singleton, part]
  rfl

namespace Environment

variable {env : Environment σ}

/-- What is settled is left to the built-in scalar that is named. -/
theorem parseNamed_builtin (accepted : env.registry.Accepted) (world : World σ)
    (scalar : BuiltinScalar) {raw : Value} (settled : (env.coercion world).settle raw = raw)
    (recur : TypeRef → Value → Path → Coercion Value) (path : Path) :
    (env.coercion world).parseNamed recur scalar.name raw path =
      (env.coercion world).parseScalar scalar.type raw path := by
  have registered : (env.coercion world).registry.type? scalar.name =
      some (.scalar scalar.type) := accepted.type?_scalar scalar
  unfold CoercionContext.parseNamed
  rw [settled, registered]

/-- Whether deprecated members are asked for is a truth value, by default no. -/
theorem coerced_flag (accepted : env.registry.Accepted) (world : World σ)
    {literals : Entries Value} {flag : Bool}
    (given : Entries.get? literals includeDeprecated.name = some (.bool flag) ∨
      Entries.get? literals includeDeprecated.name = none ∧ flag = false) :
    ((env.coercion world).coerceArguments defaultCoercionDepth [includeDeprecated]
      literals).outcome = .ok [("include_deprecated", .bool flag)] := by
  have settled : (env.coercion world).settle (.bool flag) = .bool flag := World.settleValue_eq _ _
  have coerced : (env.coercion world).coerce defaultCoercionDepth includeDeprecated.type
      (.bool flag) [.key includeDeprecated.name] = pure (.bool flag) :=
    parseNamed_builtin accepted world .boolean settled _ _
  refine CoercionContext.coerceArguments_singleton ?_ rfl coerced rfl
  rcases given with found | ⟨missing, rfl⟩
  · exact Or.inl ⟨found, rfl⟩
  · exact Or.inr ⟨missing, rfl⟩

/-- The name of the type that is asked for is a text. -/
theorem coerced_name (accepted : env.registry.Accepted) (world : World σ) (name : String) :
    ((env.coercion world).coerceArguments defaultCoercionDepth typeField.args
      [("name", .str name)]).outcome = .ok [("name", .str name)] := by
  have settled : (env.coercion world).settle (.str name) = .str name := World.settleValue_eq _ _
  have coerced : (env.coercion world).coerce defaultCoercionDepth (.named "String" true)
      (.str name) [.key "name"] = pure (.str name) :=
    parseNamed_builtin accepted world .string settled _ _
  exact CoercionContext.coerceArguments_singleton (Or.inl ⟨rfl, rfl⟩) rfl coerced rfl

/-! ## Fields of introspection types -/

variable {parent value : Value} {places : Places} {name : String} {args arguments : Entries Value}
  {below : Places → List Selection} {object : ObjectType} {field : Field} {data : Response}

/-- An introspection type replies to a selection with what the value of its field tells. -/
theorem repliesTo_ask (declared : (TypeDefinition.object object).field? name = some field)
    (plain : name ∉ [typenameField.name, schemaField.name, typeField.name])
    (coerced : ∀ world, ((env.coercion world).coerceArguments defaultCoercionDepth field.args
      arguments).outcome = .ok args)
    (resolves : env.Resolves field parent args value) (lasts : value.isLasting = true)
    (tells : env.Tells field.type value (below fun path => places (name :: path)) data) :
    env.RepliesTo object parent (ask places name arguments below) (name, data) := by
  simp only [List.mem_cons, List.not_mem_nil, or_false, not_or] at plain
  obtain ⟨notTypename, notSchema, notType⟩ := plain
  have found : env.registry.field? (.object object) name = some field := by
    rw [Registry.field?_of_ne notTypename (Or.inr ⟨notSchema, notType⟩), declared]
  have named : field.name = name := by simpa using List.find?_some declared
  exact .field (.of_value found (named ▸ notTypename) coerced resolves lasts tells)

/-- A field without arguments needs none. -/
theorem coerced_nothing (world : World σ) : ((env.coercion world).coerceArguments
    defaultCoercionDepth [] []).outcome = .ok [] :=
  rfl

/-- A wrapped reference has no name. -/
theorem repliesTo_noName (ref : TypeRef) :
    env.RepliesTo Introspection.type (.typeRef ref) (ask places "name") ("name", .null) := by
  have nothing : env.Tells (.named "String") .null [] .null := .null rfl rfl
  refine repliesTo_ask rfl (by decide) coerced_nothing ?_ rfl nothing
  exact resolves_inspect rfl (fun _ => rfl) fun change => ⟨id, rfl⟩

/-- The reference inside a reference is what is under its wrapper. -/
theorem repliesTo_ofType {ref : TypeRef}
    (tells : env.Tells (.named "__Type") ((ref.inner?.map TypeRef.toValue).getD .null)
      (below fun path => places ("ofType" :: path)) data) :
    env.RepliesTo Introspection.type ref.toValue (ask places "ofType" [] below)
      ("ofType", data) := by
  have lasts : ((ref.inner?.map TypeRef.toValue).getD .null).isLasting = true := by
    cases ref.inner? with
    | none => rfl
    | some inner => exact inner.isLasting_toValue
  refine repliesTo_ask rfl (by decide) coerced_nothing ?_ lasts tells
  refine resolves_inspect rfl (fun _ => rfl) fun change => ⟨id, ?_⟩
  rw [TypeRef.mapFaults_toValue, Value.mapFaults_id, ← Introspector.innerOf_toValue]
  unfold Introspector.resolve Introspector.resolvePlain
  dsimp only
  rw [TypeRef.bare_toValue]

section Types

variable (accepted : env.registry.Accepted) {ref : TypeRef} {kind : TypeKind}

include accepted

theorem repliesTo_kind (known : env.registry.kindOf? ref = some kind) :
    env.RepliesTo Introspection.type ref.toValue (ask places "kind")
      ("kind", .leaf (.str kind.symbol)) := by
  have registered : env.registry.type? "__TypeKind" = some (.enum typeKind) :=
    accepted.type?_of_builtin rfl
  have symbol : ∀ change, typeKind.symbolFor? (kind.toValue.mapFaults change) =
      some kind.symbol := by
    intro change
    cases kind <;> rfl
  have tells : env.Tells (.named "__TypeKind" true) kind.toValue [] (.leaf (.str kind.symbol)) :=
    .leaf rfl (fun _ => head_enum registered symbol) ⟨rfl, rfl⟩
  refine repliesTo_ask rfl (by decide) coerced_nothing ?_ rfl tells
  refine resolves_inspect rfl (fun _ => rfl) fun change => ⟨id, ?_⟩
  rw [TypeRef.mapFaults_toValue]
  unfold Introspector.resolve Introspector.resolvePlain
  dsimp only
  rw [TypeRef.bare_toValue, Introspector.kindOf_toValue known]
  rfl

/-- A text is what a field of texts tells. -/
theorem tells_text {required : Bool} (text : String) {selections : List Selection} :
    env.Tells (.named "String" required) (.str text) selections (.leaf (.str text)) :=
  .leaf rfl (fun _ => head_text accepted text) ⟨rfl, rfl⟩

/-- A type that is referred to by nothing but its name has the name. -/
theorem repliesTo_name (name : String) :
    env.RepliesTo Introspection.type (.str name) (ask places "name")
      ("name", .leaf (.str name)) := by
  refine repliesTo_ask rfl (by decide) coerced_nothing ?_ rfl (tells_text accepted name)
  exact resolves_inspect rfl (fun _ => rfl) fun change => ⟨id, rfl⟩

/-- A registered name is that of a type of a kind, which no wrapper has. -/
theorem exists_kindOf_name {name : String} (known : (env.registry.type? name).isSome = true) :
    ∃ kind : TypeKind, env.registry.kindOf? (.named name) = some kind ∧ kind ≠ .nonNull ∧
      kind ≠ .list := by
  obtain ⟨type, found⟩ := Option.isSome_iff_exists.mp known
  obtain ⟨kind, isKind⟩ :=
    Option.isSome_iff_exists.mp (accepted.kind?_isSome (Registry.mem_of_type? found))
  refine ⟨kind, (congrArg (Option.bind · TypeDefinition.kind?) found).trans isKind, ?_⟩
  cases type with
  | custom _ _ => cases isKind
  | scalar _ | enum _ | object _ | interface _ | union _ | input _ =>
    cases isKind
    exact ⟨nofun, nofun⟩

/-- A name tells that nothing is inside it, however deeply it is asked for. -/
theorem exists_tells_named {required : Bool} (depth : Nat) (places : Places) {name : String}
    (known : (env.registry.type? name).isSome = true) :
    ∃ data, env.Tells (.named "__Type" required) (.str name) (referenceSelections depth places)
      data ∧ data.reference? = some (.named name) := by
  have registered : env.registry.type? "__Type" = some (.object Introspection.type) :=
    accepted.type?_of_builtin rfl
  obtain ⟨kind, isKind, notNonNull, notList⟩ := exists_kindOf_name accepted known
  have kindReply : env.RepliesTo Introspection.type (.str name) (ask places "kind")
      ("kind", .leaf (.str kind.symbol)) := repliesTo_kind accepted isKind
  have nameReply : env.RepliesTo Introspection.type (.str name) (ask places "name")
      ("name", .leaf (.str name)) := repliesTo_name accepted name
  cases depth with
  | zero =>
    refine ⟨_, .object registered rfl rfl (by simp [referenceSelections]) ?_ accepted <|
      .cons kindReply <| .cons nameReply .nil, Response.reference?_named notNonNull notList name []⟩
    simp
  | succ depth =>
    have nothing : env.RepliesTo Introspection.type (.str name)
        (ask places "ofType" [] (referenceSelections depth)) ("ofType", .null) :=
      @repliesTo_ofType _ _ _ _ _ (.named name) (.null rfl rfl)
    refine ⟨_, .object registered rfl rfl (by simp [referenceSelections]) ?_ accepted <|
      .cons kindReply <| .cons nameReply <| .cons nothing .nil,
      Response.reference?_named notNonNull notList name _⟩
    simp

/-- A reference tells what it is, if its wrappers are asked for. The induction is on how deeply they
are. -/
theorem exists_tells_reference {required : Bool} (depth : Nat) (places : Places) {ref : TypeRef}
    (known : (env.registry.type? ref.name).isSome = true) (fits : ref.wrappers ≤ depth) :
    ∃ data, env.Tells (.named "__Type" required) ref.toValue (referenceSelections depth places)
      data ∧ data.reference? = some ref := by
  have registered : env.registry.type? "__Type" = some (.object Introspection.type) :=
    accepted.type?_of_builtin rfl
  induction depth generalizing ref places required with
  | zero =>
    cases wrapped : ref.inner? with
    | some inner =>
      rw [TypeRef.wrappers_of_inner? wrapped] at fits
      cases fits
    | none =>
      obtain ⟨name, rfl⟩ := TypeRef.exists_name_of_inner? wrapped
      exact exists_tells_named accepted 0 places known
  | succ depth ih =>
    cases wrapped : ref.inner? with
    | some inner =>
      have shape := TypeRef.toValue_of_inner? wrapped
      obtain ⟨kind, wrapper⟩ := TypeRef.exists_wrapper_of_inner? wrapped
      have isKind : env.registry.kindOf? ref = some kind := by
        unfold Registry.kindOf?
        rw [wrapper]
        rfl
      rw [TypeRef.wrappers_of_inner? wrapped] at fits
      rw [← TypeRef.name_of_inner? wrapped] at known
      obtain ⟨data, tells, read⟩ := @ih false (fun path => places ("ofType" :: path)) inner known
        (Nat.le_of_succ_le_succ fits)
      have named : env.RepliesTo Introspection.type ref.toValue (ask places "name")
          ("name", .null) := shape ▸ repliesTo_noName ref
      have inside : env.RepliesTo Introspection.type ref.toValue
          (ask places "ofType" [] (referenceSelections depth)) ("ofType", data) := by
        refine repliesTo_ofType ?_
        rw [wrapped]
        exact tells
      refine ⟨_, .object registered rfl ref.isNull_toValue (by simp [referenceSelections]) ?_
        accepted <| .cons (repliesTo_kind accepted isKind) <| .cons named <| .cons inside .nil,
        Response.reference?_wrapped wrapper (read.trans wrapped.symm)⟩
      simp
    | none =>
      obtain ⟨name, rfl⟩ := TypeRef.exists_name_of_inner? wrapped
      exact exists_tells_named accepted (depth + 1) places known

end Types

end Environment

end GraphQL
