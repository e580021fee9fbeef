import GraphQL.Proofs.Reporting

/-!
# Where a coercion failed

The path of a leaf leads from the input to the value that failed: over items of lists and fields of
input objects, through variables, and into a default where one is filled in. What an input object
lacks, or has without a declaration, is reported at the object. Only a variable that is required and
was not supplied is reported without a place.
-/

namespace GraphQL

variable {α β : Type}

namespace Coercion

theorem leavesOf_fail (cause : CoercionCause) (path : Path) :
    leavesOf (fail cause path : Coercion α).outcome = [⟨cause, path⟩] := rfl

/-- Only failures have leaves. -/
theorem exists_of_mem_leavesOf {outcome : Except CoercionStop α} {leaf : CoercionLeaf}
    (among : leaf ∈ leavesOf outcome) :
    ∃ failure, outcome = .error (.failed failure) ∧ leaf ∈ failure.leaves := by
  rcases outcome with (failure | _ | _ | _) | _
  · exact ⟨failure, rfl, among⟩
  all_goals cases among

/-- What is gathered has the leaves of its parts only. -/
theorem exists_of_mem_leavesOf_gather {path : Path} {parts : List (Coercion α)}
    {leaf : CoercionLeaf} (among : leaf ∈ leavesOf (gather path parts).outcome) :
    ∃ part ∈ parts, leaf ∈ leavesOf part.outcome := by
  obtain ⟨failure, failed, inside⟩ := exists_of_mem_leavesOf among
  rw [(reports_gather path parts).leaves failure failed, List.mem_flatMap] at inside
  obtain ⟨outcome, there, inside⟩ := inside
  obtain ⟨part, member, rfl⟩ := List.mem_map.mp there
  exact ⟨part, member, inside⟩

end Coercion

namespace CoercionContext

open Coercion (leavesOf)

section Places

variable (context : CoercionContext)

/-- What a raw value stands for at a type: variables are looked up, and where null is excluded the
value of a variable once more. -/
def standsFor (ref : TypeRef) (raw : Value) : Value :=
  if ref.isNonNull then context.substitute (context.substitute raw) else context.substitute raw

/-- A raw value is a mapping where an input object is expected. -/
structure IsObject (name : String) (nonNull : Bool) (raw : Value) (type : InputType)
    (entries : Entries Value) : Prop where
  found : context.registry.type? name = some (.input type)
  opens : context.Opens (.named name nonNull) raw
  shown : context.settle (context.standsFor (.named name nonNull) raw) = .map entries

/-- Keys and indices lead from a raw value of a type to a value inside, with the type that is expected
there. -/
inductive Descends : TypeRef → Value → Path → TypeRef → Value → Prop where
  | here (ref : TypeRef) (raw : Value) : Descends ref raw [] ref raw
  | item {item : TypeRef} {nonNull : Bool} {raw part : Value} {index : Nat} {steps : Path}
      {target : TypeRef} {value : Value} :
      context.Opens (.list item nonNull) raw →
      (items (context.standsFor (.list item nonNull) raw))[index]? = some part →
      Descends item part steps target value →
      Descends (.list item nonNull) raw (.index index :: steps) target value
  | field {name : String} {nonNull : Bool} {type : InputType} {raw part : Value}
      {entries : Entries Value} {field : Argument} {steps : Path} {target : TypeRef}
      {value : Value} :
      context.IsObject name nonNull raw type entries → field ∈ type.fields →
      Entries.get? entries field.name = some part → Descends field.type part steps target value →
      Descends (.named name nonNull) raw (.key field.name :: steps) target value
  | default {name : String} {nonNull : Bool} {type : InputType} {raw : Value}
      {entries : Entries Value} {field : Argument} {depth : Nat} {path steps : Path}
      {target : TypeRef} {value : Value} :
      context.IsObject name nonNull raw type entries → field ∈ type.fields →
      context.ComesToNothing depth field (Entries.get? entries field.name) path →
      field.hasDefault = true → Descends field.type field.default steps target value →
      Descends (.named name nonNull) raw (.key field.name :: steps) target value

/-- Why a raw value itself does not fit a type. -/
inductive Blames : TypeRef → Value → CoercionCause → Prop where
  | null {ref : TypeRef} {raw : Value} :
      ref.isNonNull = true → (context.substitute raw).isNull = true →
      Blames ref raw (.unexpectedNull ref)
  | scalar {name : String} {nonNull : Bool} {type : ScalarType} {raw : Value} {fault : Fault} :
      context.registry.type? name = some (.scalar type) →
      context.Opens (.named name nonNull) raw →
      type.parse.apply context.convert (context.settle (context.standsFor (.named name nonNull) raw))
        = .error fault →
      Blames (.named name nonNull) raw (.refusedByScalar type.name
        (context.settle (context.standsFor (.named name nonNull) raw)) fault)
  | symbol {name : String} {nonNull : Bool} {type : EnumType} {raw : Value} :
      context.registry.type? name = some (.enum type) →
      context.Opens (.named name nonNull) raw →
      (context.settle (context.standsFor (.named name nonNull) raw)).text?.bind type.valueFor?
        = none →
      Blames (.named name nonNull) raw (.noSuchSymbol type.name
        (context.settle (context.standsFor (.named name nonNull) raw)))
  | output {name : String} {nonNull : Bool} {type : TypeDefinition} {raw : Value} :
      context.registry.type? name = some type → type.isInput = false →
      Blames (.named name nonNull) raw (.notAnInputType type.name)
  | mapping {name : String} {nonNull : Bool} {type : InputType} {raw : Value} :
      context.registry.type? name = some (.input type) →
      context.Opens (.named name nonNull) raw →
      (∀ entries, context.settle (context.standsFor (.named name nonNull) raw) ≠ .map entries) →
      Blames (.named name nonNull) raw (.notAMapping type.name
        (context.settle (context.standsFor (.named name nonNull) raw)))
  | missing {name : String} {nonNull : Bool} {type : InputType} {raw : Value}
      {entries : Entries Value} {field : Argument} {depth : Nat} {path : Path} :
      context.IsObject name nonNull raw type entries → field ∈ type.fields →
      context.ComesToNothing depth field (Entries.get? entries field.name) path →
      field.hasDefault = false → field.type.isNonNull = true →
      Blames (.named name nonNull) raw (.missingField type.name field.name field.type)
  | undeclared {name : String} {nonNull : Bool} {type : InputType} {raw : Value}
      {entries : Entries Value} {key : String} :
      context.IsObject name nonNull raw type entries → key ∈ Entries.keys entries →
      (∀ field ∈ type.fields, field.name ≠ key) → context.policy = .reject →
      Blames (.named name nonNull) raw (.unknownField type.name key)

/-- A leaf is located: its path leads on from the path of the input to what is to blame. -/
def Locates (ref : TypeRef) (raw : Value) (path : Path) (leaf : CoercionLeaf) : Prop :=
  ∃ steps target value, leaf.path = path ++ steps ∧ context.Descends ref raw steps target value ∧
    context.Blames target value leaf.cause

end Places

variable {context : CoercionContext} {recur : TypeRef → Value → Path → Coercion Value} {depth : Nat}
  {ref : TypeRef} {raw : Value} {path : Path} {leaf : CoercionLeaf}

/-- What is to blame at the path of the input itself. -/
theorem Locates.here {cause : CoercionCause} (blames : context.Blames ref raw cause) :
    context.Locates ref raw path ⟨cause, path⟩ :=
  ⟨[], ref, raw, (List.append_nil path).symm, .here ref raw, blames⟩

/-- Where null is excluded, what was supplied is looked up first. -/
theorem coerceWith_of_nonNull (excluded : ref.isNonNull = true)
    (supplied : context.isUnsupplied raw = false) :
    context.coerceWith recur ref raw path =
      coerceWith.required context recur ref path (context.substitute raw) := by
  unfold coerceWith
  rw [if_pos excluded]
  cases raw with
  | var name =>
    dsimp only
    rw [supplied, if_neg Bool.false_ne_true]
  | _ => rfl

/-- A variable that was not supplied is the only leaf where null is excluded. -/
theorem kind_of_isUnsupplied (excluded : ref.isNonNull = true)
    (unsupplied : context.isUnsupplied raw = true)
    (among : leaf ∈ leavesOf (context.coerceWith recur ref raw path).outcome) :
    leaf.kind = .missingVariable := by
  unfold coerceWith at among
  rw [if_pos excluded] at among
  cases raw with
  | var name =>
    dsimp only at among
    rw [unsupplied, if_pos rfl] at among
    rw [List.mem_singleton.mp among]
    rfl
  | _ => cases unsupplied

/-- A leaf of a coercion where null is admitted is a leaf of what the raw value stands for. -/
theorem leaf_of_coerceNullable
    (among : leaf ∈ leavesOf (context.coerceNullable recur ref raw path).outcome) :
    context.isUnsupplied raw = false ∧ context.substitute raw ≠ .null ∧
      leaf ∈ leavesOf (context.coerceInside recur ref (context.substitute raw) path).outcome := by
  by_cases given : context.isUnsupplied raw = false ∧ context.substitute raw ≠ .null
  · rw [coerceNullable_of_supplied given.1 given.2] at among
    exact ⟨given.1, given.2, among⟩
  · exfalso
    unfold coerceNullable at among
    split at among
    · cases among
    · next supplied =>
      have null : context.substitute raw = .null := by
        by_contra other
        exact given ⟨eq_false_of_ne_true supplied, other⟩
      rw [null] at among
      cases among

/-- A leaf of one level of a coercion is a null that is refused, a variable that was not supplied, or
a leaf of what the raw value stands for. -/
theorem leaf_of_coerceWith (among : leaf ∈ leavesOf (context.coerceWith recur ref raw path).outcome)
    (placed : leaf.kind ≠ .missingVariable) :
    context.Locates ref raw path leaf ∨
    (context.Opens ref raw ∧
      leaf ∈ leavesOf (context.coerceInside recur ref (context.standsFor ref raw) path).outcome) := by
  cases excluded : ref.isNonNull with
  | false =>
    have whole : context.coerceWith recur ref raw path = context.coerceNullable recur ref raw path :=
      if_neg (by simp [excluded])
    rw [whole] at among
    obtain ⟨supplied, given, inside⟩ := leaf_of_coerceNullable among
    refine Or.inr ⟨⟨supplied, given, ?_⟩, ?_⟩
    · rw [excluded]
      exact nofun
    · rwa [standsFor, excluded, if_neg Bool.false_ne_true]
  | true =>
    cases supplied : context.isUnsupplied raw with
    | true => exact absurd (kind_of_isUnsupplied excluded supplied among) placed
    | false =>
      rw [coerceWith_of_nonNull excluded supplied, coerceWith.required] at among
      split at among
      · next null =>
        rw [Coercion.leavesOf_fail, List.mem_singleton] at among
        rw [among]
        exact Or.inl (.here (.null excluded null))
      · next something =>
        obtain ⟨_, _, inside⟩ := leaf_of_coerceNullable among
        refine Or.inr ⟨⟨supplied, ?_, fun _ => eq_false_of_ne_true something⟩, ?_⟩
        · intro null
          rw [null] at something
          exact something rfl
        · rwa [standsFor, if_pos excluded]

/-- Coercions of parts are located. -/
def Pinpoints (context : CoercionContext) (recur : TypeRef → Value → Path → Coercion Value) : Prop :=
  ∀ ref raw path, ∀ leaf ∈ leavesOf (recur ref raw path).outcome,
    leaf.kind ≠ .missingVariable → context.Locates ref raw path leaf

theorem leaf_of_memberComes {arg : Argument} {given : Option Value} {missing : CoercionLeaf}
    {outcome : Except CoercionStop (Option (String × Value))}
    (comes : context.MemberComes depth arg given path missing outcome)
    (among : leaf ∈ leavesOf outcome) :
    (∃ part, given = some part ∧
      leaf ∈ leavesOf (context.coerce depth arg.type part path).outcome) ∨
    (context.ComesToNothing depth arg given path ∧ arg.hasDefault = true ∧
      leaf ∈ leavesOf (context.coerce depth arg.type arg.default path).outcome) ∨
    (context.ComesToNothing depth arg given path ∧ arg.hasDefault = false ∧
      arg.type.isNonNull = true ∧ leaf = missing) := by
  cases comes with
  | supplied _ _ _ _ _ => cases among
  | refused supplied _ _ stopped =>
    refine Or.inl ⟨_, supplied, ?_⟩
    rw [stopped]
    cases ‹CoercionStop› <;> exact among
  | defaulted nothing has =>
    rw [Coercion.leavesOf_map] at among
    exact Or.inr (Or.inl ⟨nothing, has, among⟩)
  | required nothing has required =>
    exact Or.inr (Or.inr ⟨nothing, has, required, List.mem_singleton.mp among⟩)
  | omitted _ _ _ => cases among

section Parts

variable (pinpoints : context.Pinpoints (context.coerce depth))

include pinpoints

theorem locates_list {item : TypeRef} {nonNull : Bool}
    (opens : context.Opens (.list item nonNull) raw) (placed : leaf.kind ≠ .missingVariable)
    (among : leaf ∈ leavesOf (context.coerceInside (context.coerce depth) (.list item nonNull)
      (context.standsFor (.list item nonNull) raw) path).outcome) :
    context.Locates (.list item nonNull) raw path leaf := by
  rw [coerceInside, Coercion.outcome_map, Coercion.leavesOf_map] at among
  obtain ⟨part, member, inside⟩ := Coercion.exists_of_mem_leavesOf_gather among
  obtain ⟨index, below, rfl⟩ := List.mem_mapIdx.mp member
  rw [Coercion.outcome_map, Coercion.leavesOf_map] at inside
  obtain ⟨steps, target, value, same, descends, blames⟩ := pinpoints _ _ _ leaf inside placed
  refine ⟨.index index :: steps, target, value, ?_, .item opens ?_ descends, blames⟩
  · rw [same, List.append_assoc, List.singleton_append]
  · exact List.getElem?_eq_getElem below

theorem locates_object {name : String} {nonNull : Bool} {type : InputType} {entries : Entries Value}
    (object : context.IsObject name nonNull raw type entries)
    (placed : leaf.kind ≠ .missingVariable)
    (among : leaf ∈ leavesOf
      (context.parseObject (context.coerce depth) type (.map entries) path).outcome) :
    context.Locates (.named name nonNull) raw path leaf := by
  have whole : context.parseObject (context.coerce depth) type (.map entries) path =
      (fun parts => .map (membersOf parts)) <$> Coercion.gather path
        (type.fields.map (context.fieldPart (context.coerce depth) type entries path) ++
          (unknownKeys type entries).map (context.unknownPart type path)) := rfl
  rw [whole, Coercion.outcome_map, Coercion.leavesOf_map] at among
  obtain ⟨part, member, inside⟩ := Coercion.exists_of_mem_leavesOf_gather among
  rcases List.mem_append.mp member with declared | other
  · obtain ⟨field, there, rfl⟩ := List.mem_map.mp declared
    rcases leaf_of_memberComes (memberComes_fieldPart type entries path field) inside with
      ⟨part, given, inside⟩ | ⟨nothing, has, inside⟩ | ⟨nothing, has, required, rfl⟩
    · obtain ⟨steps, target, value, same, descends, blames⟩ := pinpoints _ _ _ leaf inside placed
      refine ⟨.key field.name :: steps, target, value, ?_, .field object there given descends, blames⟩
      rw [same, List.append_assoc, List.singleton_append]
    · obtain ⟨steps, target, value, same, descends, blames⟩ := pinpoints _ _ _ leaf inside placed
      refine ⟨.key field.name :: steps, target, value, ?_,
        .default object there nothing has descends, blames⟩
      rw [same, List.append_assoc, List.singleton_append]
    · exact .here (.missing object there nothing has required)
  · obtain ⟨key, there, rfl⟩ := List.mem_map.mp other
    rw [unknownKeys_eq, List.mem_filter, decide_eq_true_iff] at there
    unfold unknownPart at inside
    cases policy : context.policy with
    | ignore =>
      rw [policy] at inside
      cases inside
    | reject =>
      rw [policy] at inside
      rw [Coercion.leavesOf_fail, List.mem_singleton] at inside
      rw [inside]
      refine .here (.undeclared object there.1 (fun field among same => ?_) policy)
      exact there.2 (List.mem_map.mpr ⟨field, among, same⟩)

theorem locates_named {name : String} {nonNull : Bool}
    (opens : context.Opens (.named name nonNull) raw) (placed : leaf.kind ≠ .missingVariable)
    (among : leaf ∈ leavesOf (context.coerceInside (context.coerce depth) (.named name nonNull)
      (context.standsFor (.named name nonNull) raw) path).outcome) :
    context.Locates (.named name nonNull) raw path leaf := by
  unfold coerceInside parseNamed at among
  dsimp only at among
  split at among
  · cases among
  · next type found =>
    unfold parseScalar at among
    split at among
    · cases among
    · next fault refused =>
      split at among
      · cases among
      · rw [Coercion.leavesOf_fail, List.mem_singleton] at among
        rw [among]
        exact .here (.scalar found opens refused)
  · next type found =>
    unfold parseSymbol at among
    split at among
    · cases among
    · next other =>
      rw [Coercion.leavesOf_fail, List.mem_singleton] at among
      rw [among]
      exact .here (.symbol found opens other)
  · next type found =>
    by_cases mapping : ∃ entries,
        context.settle (context.standsFor (.named name nonNull) raw) = .map entries
    · obtain ⟨entries, shown⟩ := mapping
      rw [shown] at among
      exact locates_object pinpoints ⟨found, opens, shown⟩ placed among
    · have refused := not_exists.mp mapping
      rw [parseObject_of_not_map type refused, Coercion.leavesOf_fail, List.mem_singleton] at among
      rw [among]
      exact .here (.mapping found opens refused)
  · next type scalar enum input found =>
    rw [Coercion.leavesOf_fail, List.mem_singleton] at among
    rw [among]
    refine .here (.output found ?_)
    cases type with
    | scalar type => exact absurd rfl (scalar type)
    | enum type => exact absurd rfl (enum type)
    | input type => exact absurd rfl (input type)
    | _ => rfl

end Parts

/-- Coercions of any depth are located, by induction on the depth. -/
theorem pinpoints_coerce (depth : Nat) : context.Pinpoints (context.coerce depth) := by
  induction depth with
  | zero =>
    intro ref raw path leaf among
    cases among
  | succ depth ih =>
    intro ref raw path leaf among placed
    rcases leaf_of_coerceWith among placed with here | ⟨opens, inside⟩
    · exact here
    · cases ref with
      | list item nonNull => exact locates_list ih opens placed inside
      | named name nonNull => exact locates_named ih opens placed inside

/-- A missing argument is reported under its name, or as a variable that was not supplied. -/
theorem path_missingArgument (arg : Argument) (given : Option Value) :
    (context.missingArgument arg given).kind = .missingVariable ∨
      (context.missingArgument arg given).path = [.key arg.name] := by
  unfold missingArgument
  split
  · split
    · exact Or.inl rfl
    · exact Or.inr rfl
  · exact Or.inr rfl

/-- The leaves of an argument start with its name. -/
theorem exists_rest_of_argument {arg : Argument} {given : Option Value}
    {outcome : Except CoercionStop (Option (String × Value))}
    (comes : context.MemberComes depth arg given [.key arg.name]
      (context.missingArgument arg given) outcome)
    (among : leaf ∈ leavesOf outcome) (placed : leaf.kind ≠ .missingVariable) :
    ∃ rest, leaf.path = .key arg.name :: rest := by
  rcases leaf_of_memberComes comes among with
    ⟨part, _, inside⟩ | ⟨_, _, inside⟩ | ⟨_, _, _, rfl⟩
  · obtain ⟨steps, _, _, same, _, _⟩ := pinpoints_coerce depth _ _ _ leaf inside placed
    exact ⟨steps, same⟩
  · obtain ⟨steps, _, _, same, _, _⟩ := pinpoints_coerce depth _ _ _ leaf inside placed
    exact ⟨steps, same⟩
  · exact ⟨[], (path_missingArgument arg given).resolve_left placed⟩

/-- An argument fails by itself. -/
def ArgumentFails (context : CoercionContext) (depth : Nat) (literals : Entries Value)
    (arg : Argument) (failure : CoercionFailure) : Prop :=
  context.MemberComes depth arg (Entries.get? literals arg.name) [.key arg.name]
    (context.missingArgument arg (Entries.get? literals arg.name)) (.error (.failed failure))

/-- The leaves of a failed coercion are located, and those of failed arguments start with the name of
an argument that failed, with the exception of variables that were not supplied. -/
theorem coerce_locates (context : CoercionContext) (depth : Nat) {leaf : CoercionLeaf}
    (placed : leaf.kind ≠ .missingVariable) :
    (∀ ref raw path failure,
      (context.coerce depth ref raw path).outcome = .error (.failed failure) →
      leaf ∈ failure.leaves → context.Locates ref raw path leaf) ∧
    (∀ args literals failure,
      (context.coerceArguments depth args literals).outcome = .error (.failed failure) →
      leaf ∈ failure.leaves →
      ∃ arg ∈ args, ∃ own rest, context.ArgumentFails depth literals arg own ∧
        leaf ∈ own.leaves ∧ leaf.path = .key arg.name :: rest) := by
  refine ⟨?_, ?_⟩
  · intro ref raw path failure failed among
    refine pinpoints_coerce depth ref raw path leaf ?_ placed
    rwa [failed]
  · intro args literals failure failed among
    have inside : leaf ∈ leavesOf (context.coerceArguments depth args literals).outcome := by
      rwa [failed]
    have whole : context.coerceArguments depth args literals =
        membersOf <$> Coercion.gather [] (args.map (context.argumentPart depth literals)) := rfl
    rw [whole, Coercion.outcome_map, Coercion.leavesOf_map] at inside
    obtain ⟨part, member, inside⟩ := Coercion.exists_of_mem_leavesOf_gather inside
    obtain ⟨arg, there, rfl⟩ := List.mem_map.mp member
    have comes : context.MemberComes depth arg (Entries.get? literals arg.name) [.key arg.name]
        (context.missingArgument arg (Entries.get? literals arg.name))
        (context.argumentPart depth literals arg).outcome := memberComes_argumentPart literals arg
    obtain ⟨rest, placed⟩ := exists_rest_of_argument comes inside placed
    obtain ⟨own, ended, inside⟩ := Coercion.exists_of_mem_leavesOf inside
    rw [ended] at comes
    exact ⟨arg, there, own, rest, comes, inside, placed⟩

/-- Coercion of filters of pages where the value of a variable has a key that is not declared. -/
def strayContext : CoercionContext :=
  { pageContext with variableValues := [("m", .map [("size", .int 1)])] }

/-- A filter with filters in it, the second of which takes its limit from that variable. -/
def strayFilter : Value :=
  .map [("any", .list [.map [], .map [("limit", .var "m")]])]

/-- The key is reported at the place of the variable, within the argument. -/
theorem coerce_locates_stray :
    ∃ leaf, leaf.kind ≠ FaultKind.missingVariable ∧
      leaf.path = [.key "filter", .key "any", .index 1, .key "limit"] ∧
      strayContext.Locates (.named "Filter" true) strayFilter [.key "filter"] leaf ∧
      ∃ arg ∈ [({ name := "filter", type := .named "Filter" true } : Argument)], ∃ own rest,
        strayContext.ArgumentFails 8 [("filter", strayFilter)] arg own ∧ leaf ∈ own.leaves ∧
          leaf.path = .key arg.name :: rest := by
  have placed : (⟨.unknownField "Limit" "size", [.key "filter", .key "any", .index 1,
      .key "limit"]⟩ : CoercionLeaf).kind ≠ FaultKind.missingVariable := by decide
  have located := coerce_locates strayContext 8 placed
  exact ⟨_, placed, rfl,
    located.1 (.named "Filter" true) strayFilter [.key "filter"] _ rfl List.mem_cons_self,
    located.2 _ [("filter", strayFilter)] _ rfl List.mem_cons_self⟩

/-- A list of numbers whose only item is a variable that was not supplied. -/
def unsuppliedItem : Value :=
  .list [.var "x"]

/-- The variable is reported without a place, though an index leads to it, and no other keys and
indices do; as an argument it is reported without the name of the argument. -/
theorem coerce_misplaces_variable :
    ∃ failure leaf,
      (pageContext.coerce 8 (.list (.named "Int" true)) unsuppliedItem []).outcome =
        .error (.failed failure) ∧
      (pageContext.coerceArguments 8 [{ name := "size", type := .named "Int" true }]
        [("size", .var "x")]).outcome = .error (.failed failure) ∧
      failure.leaves = [leaf] ∧ leaf.path = [] ∧
      pageContext.Descends (.list (.named "Int" true)) unsuppliedItem [.index 0]
        (.named "Int" true) (.var "x") ∧
      ∀ steps target,
        pageContext.Descends (.list (.named "Int" true)) unsuppliedItem steps target (.var "x") →
          steps = [.index 0] := by
  refine ⟨_, _, rfl, rfl, rfl, rfl, ?_, ?_⟩
  · exact .item ⟨rfl, nofun, nofun⟩ rfl (.here _ _)
  · intro steps target descends
    cases descends with
    | @item _ _ _ part index _ _ _ _ among rest =>
      have first : [Value.var "x"][index]? = some part := among
      obtain ⟨rfl, rfl⟩ : index = 0 ∧ part = .var "x" := by
        cases index with
        | zero => exact ⟨rfl, (Option.some.inj first).symm⟩
        | succ index => cases first
      cases rest with
      | here => rfl
      | field object => cases object.found
      | default object => cases object.found

end CoercionContext

end GraphQL
