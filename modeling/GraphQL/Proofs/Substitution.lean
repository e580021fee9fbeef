import GraphQL.Proofs.Coercion
import GraphQL.Proofs.Inlining
import GraphQL.Proofs.Verdicts

/-!
# Variables are looked up as if they were replaced

Arguments come to the same whether variables are looked up while they are coerced or replaced by
their values before. That is so as long as no variable stands inside a literal that a scalar takes
as a whole: there variables are not looked up, and the parse function of the scalar meets them.
-/

namespace GraphQL

namespace CoercionContext

open Coercion (Alike)

variable {context : CoercionContext} {recur : TypeRef → Value → Path → Coercion Value}
  {ref : TypeRef} {raw : Value} {path : Path}

section Constant

variable (constant : raw.isVariable = false)

include constant

theorem coerceWith_of_constant :
    context.coerceWith recur ref raw path =
      if ref.isNonNull = true then coerceWith.required context recur ref path raw
      else context.coerceNullable recur ref raw path := by
  unfold coerceWith
  split
  · split
    · cases constant
    · rfl
  · rfl

/-- Null is refused where it is excluded. -/
theorem coerceWith_refused (excluded : ref.isNonNull = true) (null : raw.isNull = true) :
    context.coerceWith recur ref raw path = .fail (.unexpectedNull ref) path := by
  rw [coerceWith_of_constant constant, if_pos excluded, coerceWith.required, if_pos null]

/-- What is neither null nor a variable is looked into. -/
theorem coerceWith_inside (given : raw ≠ .null)
    (admitted : ref.isNonNull = true → raw.isNull = false) :
    context.coerceWith recur ref raw path = context.coerceInside recur ref raw path := by
  have same : context.substitute raw = raw := substitute_of_not_isVariable constant
  have inside : context.coerceNullable recur ref raw path =
      context.coerceInside recur ref raw path := by
    rw [coerceNullable_of_supplied (isUnsupplied_of_not_isVariable constant), same]
    rwa [same]
  rw [coerceWith_of_constant constant]
  split
  · next excluded =>
    rw [coerceWith.required, admitted excluded, if_neg Bool.false_ne_true, inside]
  · exact inside

end Constant

/-- Null stays null where it is admitted. -/
theorem coerceWith_null (admitted : ref.isNonNull = false) :
    context.coerceWith recur ref .null path = pure .null := by
  rw [coerceWith_of_constant rfl, admitted, if_neg Bool.false_ne_true]
  rfl

/-- A variable that was supplied is coerced as its value. -/
theorem coerceWith_var (closed : context.HasClosedVariables) {name : String}
    (supplied : context.isUnsupplied (.var name) = false) :
    context.coerceWith recur ref (.var name) path =
      context.coerceWith recur ref (context.substitute (.var name)) path := by
  have constant := closed.not_isVariable_substitute (.var name)
  have same : context.coerceNullable recur ref (.var name) path =
      context.coerceNullable recur ref (context.substitute (.var name)) path := by
    unfold coerceNullable
    rw [supplied, closed.isUnsupplied_substitute, closed.substitute_substitute]
  rw [coerceWith_of_constant constant]
  unfold coerceWith
  split
  · dsimp only
    rw [supplied, if_neg Bool.false_ne_true]
  · exact same

/-- A variable that was not supplied is nothing, or a failure where null is excluded. -/
theorem verdict_of_isUnsupplied (unsupplied : context.isUnsupplied raw = true) :
    (context.coerceWith recur ref raw path).verdict =
      if ref.isNonNull then .error none else .ok .undefined := by
  cases raw with
  | var name =>
    unfold coerceWith coerceNullable
    rw [unsupplied]
    cases ref.isNonNull <;> rfl
  | _ => cases unsupplied

section Settled

variable (settles : context.Settles)

include settles

theorem parseNamed_settle (name : String) :
    context.parseNamed recur name (context.settle raw) path =
      context.parseNamed recur name raw path := by
  unfold parseNamed
  rw [settles.settle_settle]

/-- A value is coerced to what it is coerced to when it is shown before. -/
theorem coerce_settle (depth : Nat) (ref : TypeRef) (raw : Value) (path : Path) :
    context.coerce depth ref (context.settle raw) path = context.coerce depth ref raw path := by
  induction depth generalizing ref raw path with
  | zero => rfl
  | succ depth ih =>
    cases constant : raw.isVariable with
    | true =>
      cases raw with
      | var name => rw [settles.eq_var_iff.mpr rfl]
      | _ => cases constant
    | false =>
      have still : (context.settle raw).isVariable = false := by
        rw [settles.isVariable, constant]
      rw [coerce]
      by_cases refused : ref.isNonNull = true ∧ raw.isNull = true
      · have null : (context.settle raw).isNull = true := by rw [settles.isNull, refused.2]
        rw [coerceWith_refused constant refused.1 refused.2,
          coerceWith_refused still refused.1 null]
      · by_cases null : raw = .null
        · rw [settles.eq_null_iff.mpr null, null]
        · have admitted : ref.isNonNull = true → raw.isNull = false := by
            intro excluded
            exact eq_false_of_ne_true fun same => refused ⟨excluded, same⟩
          rw [coerceWith_inside constant null admitted, coerceWith_inside still]
          · cases ref with
            | named name nonNull => exact parseNamed_settle settles name
            | list item nonNull =>
              have parts : itemParts (context.coerce depth) item path
                  (items (context.settle raw)) =
                  itemParts (context.coerce depth) item path (items raw) := by
                rw [settles.items]
                apply List.ext_getElem
                · simp only [itemParts, List.length_mapIdx, List.length_map]
                · intro index _ _
                  simp only [itemParts, List.getElem_mapIdx, List.getElem_map, ih]
              rw [coerceInside, coerceInside, parts]
          · rwa [ne_eq, settles.eq_null_iff]
          · rwa [settles.isNull]

theorem rawField_settle (entries : Entries Value) (field : Argument) :
    context.rawField (entries.map fun entry => (entry.1, context.settle entry.2)) field =
      context.settle (context.rawField entries field) := by
  obtain ⟨change, _, shows⟩ := settles
  have unsupplied : ∀ value, context.isUnsupplied (context.settle value) =
      context.isUnsupplied value := by
    intro value
    rw [shows]
    cases value <;> rfl
  have nothing : context.settle .undefined = .undefined := shows .undefined
  have shown : (Entries.get? (entries.map fun entry => (entry.1, context.settle entry.2))
      field.name).getD .undefined =
      context.settle ((Entries.get? entries field.name).getD .undefined) := by
    rw [Entries.get?_map fun _ => context.settle]
    cases Entries.get? entries field.name with
    | none => exact nothing.symm
    | some value => rfl
  unfold rawField
  dsimp only
  rw [shown, unsupplied]
  split
  · exact nothing.symm
  · rfl

theorem member_settle (depth : Nat) (arg : Argument) (raw : Value) (path : Path)
    (missing : Coercion (Option (String × Value))) :
    member (context.coerce depth) arg (context.settle raw) path missing =
      member (context.coerce depth) arg raw path missing := by
  unfold member
  rw [settles.isUndefined, coerce_settle settles]

theorem settle_map (entries : Entries Value) : context.settle (.map entries) =
    .map (entries.map fun entry => (entry.1, context.settle entry.2)) :=
  settles.eq_map_iff.mpr ⟨entries, rfl, rfl⟩

omit settles in
theorem unknownKeys_settle (type : InputType) (entries : Entries Value) :
    unknownKeys type (entries.map fun entry => (entry.1, context.settle entry.2)) =
      unknownKeys type entries := by
  unfold unknownKeys Entries.keys
  rw [List.map_map]
  rfl

end Settled

/-- A literal that a scalar takes as a whole in the course of a coercion. -/
inductive Hands (context : CoercionContext) : TypeRef → Value → Value → Prop where
  | scalar {name : String} {nonNull : Bool} {raw : Value} {type : ScalarType} :
      context.registry.type? name = some (.scalar type) →
      Hands context (.named name nonNull) raw raw
  | item {item : TypeRef} {nonNull : Bool} {raw part taken : Value} :
      part ∈ items raw → Hands context item part taken →
      Hands context (.list item nonNull) raw taken
  | field {name : String} {nonNull : Bool} {entries : Entries Value} {type : InputType}
      {field : Argument} {part taken : Value} :
      context.registry.type? name = some (.input type) → field ∈ type.fields →
      Entries.get? entries field.name = some part → Hands context field.type part taken →
      Hands context (.named name nonNull) (.map entries) taken

/-- No variable stands inside a literal that a scalar takes as a whole. -/
def PlainAtScalars (context : CoercionContext) (ref : TypeRef) (raw : Value) : Prop :=
  ∀ taken, context.Hands ref raw taken → taken.isVariable = true ∨ taken.isClosed = true

theorem isClosed_of_mem_items (closed : raw.isClosed = true) : ∀ part ∈ items raw,
    part.isClosed = true := by
  cases raw with
  | list items => exact Value.isClosed_list.mp closed
  | tuple items => exact Value.isClosed_tuple.mp closed
  | _ =>
    intro part among
    rw [List.mem_singleton.mp among]
    exact closed

theorem isClosed_of_get? {entries : Entries Value} {key : String} {part : Value}
    (closed : ∀ entry ∈ entries, entry.2.isClosed = true)
    (found : Entries.get? entries key = some part) : part.isClosed = true := by
  obtain ⟨entry, there, rfl⟩ := Option.map_eq_some_iff.mp found
  exact closed entry (List.mem_of_find?_eq_some there)

theorem plainAtScalars_of_isClosed (closed : raw.isClosed = true) :
    context.PlainAtScalars ref raw := by
  intro taken hands
  refine Or.inr ?_
  induction hands with
  | scalar => exact closed
  | item among _ ih => exact ih (isClosed_of_mem_items closed _ among)
  | field _ _ found _ ih => exact ih (isClosed_of_get? (Value.isClosed_map.mp closed) found)

/-- What replacing variables by their values relies on: the values are there and closed, and so are
the defaults of input fields, which have names of their own. -/
structure Replaceable (context : CoercionContext) : Prop where
  settles : context.Settles
  closed : context.HasClosedVariables
  present : ∀ entry ∈ context.variableValues, entry.2.isUndefined = false
  default : ∀ {name type}, context.registry.type? name = some (.input type) →
    ∀ field ∈ type.fields, field.default.isClosed = true
  distinct : ∀ {name type}, context.registry.type? name = some (.input type) →
    (type.fields.map Argument.name).Nodup

/-- Coercion without variables, where the conversions of scalars may be others. -/
def withoutVariables (context : CoercionContext) (convert : Handle → Value → Except Fault Value) :
    CoercionContext :=
  { context with convert, variableValues := [] }

theorem isUnsupplied_withoutVariables (convert : Handle → Value → Except Fault Value)
    (raw : Value) : (context.withoutVariables convert).isUnsupplied raw = raw.isVariable := by
  cases raw <;> rfl

section Replaced

variable (replaceable : context.Replaceable)

include replaceable

section Supplied

variable (supplied : context.isUnsupplied raw = false)

include supplied

theorem inline_substitute :
    context.inline ref (context.substitute raw) = context.inline ref raw := by
  cases constant : raw.isVariable with
  | false => rw [substitute_of_not_isVariable constant]
  | true =>
    cases raw with
    | var name =>
      rw [inline_of_isClosed ref (replaceable.closed.substitute_var name), inline_var supplied]
    | _ => cases constant

theorem isUndefined_substitute : (context.substitute raw).isUndefined = raw.isUndefined := by
  cases constant : raw.isVariable with
  | false => rw [substitute_of_not_isVariable constant]
  | true =>
    cases raw with
    | var name =>
      obtain ⟨entry, there, same⟩ := exists_substitute_var supplied
      rw [same, replaceable.present entry there]
      rfl
    | _ => cases constant

theorem coerceWith_substitute :
    context.coerceWith recur ref (context.substitute raw) path =
      context.coerceWith recur ref raw path := by
  cases constant : raw.isVariable with
  | false => rw [substitute_of_not_isVariable constant]
  | true =>
    cases raw with
    | var name => rw [coerceWith_var replaceable.closed supplied]
    | _ => cases constant

omit supplied in
theorem plainAtScalars_substitute (plain : context.PlainAtScalars ref raw) :
    context.PlainAtScalars ref (context.substitute raw) := by
  cases constant : raw.isVariable with
  | false => rwa [substitute_of_not_isVariable constant]
  | true =>
    cases raw with
    | var name => exact plainAtScalars_of_isClosed (replaceable.closed.substitute_var name)
    | _ => cases constant

theorem isVariable_inline : (context.inline ref raw).isVariable = false := by
  have constant := replaceable.closed.not_isVariable_substitute raw
  rw [← inline_substitute replaceable supplied, (sameShape_inline constant ref).isVariable,
    constant]

theorem isUndefined_inline : (context.inline ref raw).isUndefined = raw.isUndefined := by
  have constant := replaceable.closed.not_isVariable_substitute raw
  rw [← inline_substitute replaceable supplied, (sameShape_inline constant ref).isUndefined,
    isUndefined_substitute replaceable supplied]

end Supplied

variable {convert : Handle → Value → Except Fault Value}

/-- What is supplied for a field stands for what is supplied for it after the replacement. -/
theorem rawField_inlineMembers {name : String} {type : InputType} {entries : Entries Value}
    {field : Argument} (found : context.registry.type? name = some (.input type))
    (among : field ∈ type.fields) :
    (context.withoutVariables convert).rawField (context.inlineMembers type.fields entries) field =
      context.inline field.type (context.rawField entries field) := by
  have declared : Member.find? type.fields field.name = some field :=
    find?_of_distinct (replaceable.distinct found) among
  have nothing : context.inline field.type .undefined = .undefined := rfl
  unfold rawField
  rw [get?_inlineMembers declared]
  dsimp only
  cases unsupplied : context.isUnsupplied ((Entries.get? entries field.name).getD .undefined) with
  | true => rfl
  | false =>
    rw [if_neg Bool.false_ne_true, if_neg Bool.false_ne_true]
    have same :
        ((Entries.get? entries field.name).map (context.inline field.type)).getD .undefined =
          context.inline field.type ((Entries.get? entries field.name).getD .undefined) := by
      cases Entries.get? entries field.name <;> rfl
    rw [same, isUnsupplied_withoutVariables, isVariable_inline replaceable unsupplied,
      if_neg Bool.false_ne_true]

section Alike

variable (agrees : ∀ handle value, value.isClosed = true →
  context.convert handle value = convert handle value)

/-- Coercions come to the same on a literal and on the literal after the replacement. -/
def Replaces (context : CoercionContext) (convert : Handle → Value → Except Fault Value)
    (depth : Nat) : Prop :=
  ∀ ref raw path, context.isUnsupplied raw = false → context.PlainAtScalars ref raw →
    Alike (context.coerce depth ref raw path)
      ((context.withoutVariables convert).coerce depth ref (context.inline ref raw) path)

variable {depth : Nat} (replaces : context.Replaces convert depth)

include replaces

omit replaceable in
theorem alike_absent (path : Path) {arg : Argument} (closed : arg.default.isClosed = true)
    {missing missed : Coercion (Option (String × Value))} (alike : Alike missing missed) :
    Alike (absent (context.coerce depth) arg path missing)
      (absent ((context.withoutVariables convert).coerce depth) arg path missed) := by
  have default := replaces arg.type arg.default path (isUnsupplied_of_isClosed closed)
    (plainAtScalars_of_isClosed closed)
  rw [inline_of_isClosed arg.type closed] at default
  unfold absent
  split
  · exact default.map _
  · split
    · exact alike
    · exact .refl _

theorem alike_member (path : Path) {arg : Argument} (closed : arg.default.isClosed = true)
    (supplied : context.isUnsupplied raw = false) (plain : context.PlainAtScalars arg.type raw)
    {missing missed : Coercion (Option (String × Value))} (alike : Alike missing missed) :
    Alike (member (context.coerce depth) arg raw path missing)
      (member ((context.withoutVariables convert).coerce depth) arg (context.inline arg.type raw)
        path missed) := by
  have absence := alike_absent replaces path closed alike
  unfold member
  rw [isUndefined_inline replaceable supplied]
  split
  · exact absence
  · apply (replaces arg.type raw path supplied plain).bind
    intro value
    split
    · exact absence
    · exact .refl _

omit replaceable in
/-- A variable that was not supplied is null in a list. -/
theorem alike_item {item : TypeRef} (plain : context.PlainAtScalars item raw) :
    Alike (itemValue <$> context.coerce depth item raw path)
      (itemValue <$> (context.withoutVariables convert).coerce depth item
        (context.inlineItem item raw) path) := by
  cases unsupplied : context.isUnsupplied raw with
  | false =>
    rw [inlineItem, unsupplied, if_neg Bool.false_ne_true]
    exact (replaces item raw path unsupplied plain).map _
  | true =>
    rw [inlineItem, unsupplied, if_pos rfl]
    cases depth with
    | zero => exact .refl _
    | succ depth =>
      unfold Alike
      rw [coerce, coerce, Coercion.verdict_map, Coercion.verdict_map,
        verdict_of_isUnsupplied unsupplied]
      cases admitted : item.isNonNull with
      | false =>
        rw [coerceWith_null admitted]
        rfl
      | true =>
        rw [coerceWith_refused rfl admitted rfl]
        rfl

omit replaceable in
theorem alike_itemParts {item : TypeRef} {values : List Value}
    (plain : ∀ part ∈ values, context.PlainAtScalars item part) :
    Alike (Coercion.gather path (itemParts (context.coerce depth) item path values))
      (Coercion.gather path (itemParts ((context.withoutVariables convert).coerce depth) item path
        (values.map (context.inlineItem item)))) := by
  apply Alike.gather
  rw [List.forall₂_iff_get]
  refine ⟨by simp only [itemParts, List.length_mapIdx, List.length_map], fun index inside _ => ?_⟩
  simp only [itemParts, List.get_eq_getElem, List.getElem_mapIdx, List.getElem_map]
  exact alike_item replaces (plain _ (List.getElem_mem _))

omit replaces replaceable in
/-- What is supplied for a field is plain at scalars if the whole mapping is. -/
theorem plainAtScalars_rawField {name : String} {nonNull : Bool} {type : InputType}
    (found : context.registry.type? name = some (.input type)) {entries : Entries Value}
    (plain : context.PlainAtScalars (.named name nonNull) (.map entries)) {field : Argument}
    (among : field ∈ type.fields) :
    context.PlainAtScalars field.type (context.rawField entries field) := by
  have nothing : context.PlainAtScalars field.type .undefined := plainAtScalars_of_isClosed rfl
  unfold rawField
  dsimp only
  split
  · exact nothing
  · cases part : Entries.get? entries field.name with
    | none => exact nothing
    | some value => exact fun taken hands => plain taken (.field found among part hands)

theorem alike_parseObject {name : String} {nonNull : Bool} {type : InputType}
    (found : context.registry.type? name = some (.input type)) {entries : Entries Value}
    (plain : context.PlainAtScalars (.named name nonNull) (.map entries)) :
    Alike (context.parseObject (context.coerce depth) type
        (context.settle (.map entries)) path)
      ((context.withoutVariables convert).parseObject
        ((context.withoutVariables convert).coerce depth) type
        (context.settle (.map (context.inlineMembers type.fields entries))) path) := by
  have settles := replaceable.settles
  have still : (context.withoutVariables convert).Settles := settles
  rw [settle_map settles, settle_map settles, parseObject, parseObject, unknownKeys_settle,
    unknownKeys_settle, unknownKeys_inlineMembers]
  refine (Alike.gather (List.rel_append ?_ ?_) path path).bind fun _ => .refl _
  · rw [List.forall₂_map_left_iff, List.forall₂_map_right_iff, List.forall₂_same]
    intro field among
    have shown : (context.withoutVariables convert).rawField ((context.inlineMembers type.fields
        entries).map fun entry => (entry.1, context.settle entry.2)) field =
        context.settle (context.inline field.type (context.rawField entries field)) := by
      rw [← rawField_inlineMembers replaceable found among]
      exact rawField_settle still _ field
    unfold fieldPart
    rw [rawField_settle settles, member_settle settles, shown]
    have alike := alike_member replaceable replaces (path ++ [.key field.name])
      (replaceable.default found field among) (isUnsupplied_rawField entries field)
      (plainAtScalars_rawField found plain among)
      (.fail (.missingField type.name field.name field.type) (.missingField type.name field.name
        field.type) path path)
    exact alike.trans (congrArg Coercion.verdict (member_settle still depth field _ _ _)).symm
  · rw [List.forall₂_map_left_iff, List.forall₂_map_right_iff, List.forall₂_same]
    intro key _
    exact .refl _

include agrees

omit replaces replaceable in
theorem alike_parseScalar (type : ScalarType) (closed : raw.isClosed = true) :
    Alike (context.parseScalar type raw path)
      ((context.withoutVariables convert).parseScalar type raw path) := by
  have same : type.parse.apply context.convert raw = type.parse.apply convert raw := by
    cases type.parse with
    | given handle => exact agrees handle raw.plain (by rwa [Value.isClosed_plain])
    | identity | builtin => rfl
  unfold parseScalar withoutVariables
  dsimp only
  rw [same]
  exact .refl _

omit agrees replaces replaceable in
theorem alike_parseSymbol (type : EnumType) {other : Value} {elsewhere : Path}
    (same : other.text? = raw.text?) :
    Alike (parseSymbol type raw path) (parseSymbol type other elsewhere) := by
  unfold parseSymbol
  rw [same]
  split
  · exact .refl _
  · exact .fail _ _ _ _

omit agrees replaces replaceable in
theorem parseObject_of_not_map (type : InputType) (refused : ∀ entries, raw ≠ .map entries) :
    context.parseObject recur type raw path = .fail (.notAMapping type.name raw) path := by
  unfold parseObject
  split
  · next entries => exact absurd rfl (refused entries)
  · rfl

omit agrees replaces replaceable in
theorem alike_notAMapping (type : InputType) {other : CoercionContext}
    {more : TypeRef → Value → Path → Coercion Value} {value : Value}
    (refused : ∀ entries, raw ≠ .map entries) (still : ∀ entries, value ≠ .map entries) :
    Alike (context.parseObject recur type raw path) (other.parseObject more type value path) := by
  rw [parseObject_of_not_map type refused, parseObject_of_not_map type still]
  exact .fail _ _ _ _

theorem alike_parseNamed {name : String} {nonNull : Bool} (constant : raw.isVariable = false)
    (plain : context.PlainAtScalars (.named name nonNull) raw) :
    Alike (context.parseNamed (context.coerce depth) name raw path)
      ((context.withoutVariables convert).parseNamed
        ((context.withoutVariables convert).coerce depth) name
        (context.inline (.named name nonNull) raw) path) := by
  have settles := replaceable.settles
  have lookup : (context.withoutVariables convert).registry.type? name =
      context.registry.type? name := rfl
  unfold parseNamed
  dsimp only
  rw [lookup]
  cases found : context.registry.type? name with
  | none => exact .refl _
  | some type =>
    cases type with
    | scalar type =>
      have closed : raw.isClosed = true := by
        refine (plain raw (.scalar found)).resolve_left fun other => ?_
        rw [constant] at other
        cases other
      rw [inline_of_isClosed _ closed]
      apply alike_parseScalar agrees
      rwa [settles.isClosed]
    | enum type =>
      apply alike_parseSymbol
      have still : (context.withoutVariables convert).Settles := settles
      rw [still.text?, settles.text?, (sameShape_inline constant _).text?]
    | input type =>
      by_cases object : ∃ entries, raw = .map entries
      · obtain ⟨entries, rfl⟩ := object
        rw [inline_map found]
        exact alike_parseObject replaceable replaces found plain
      · have refused : ∀ entries, context.settle raw ≠ .map entries := by
          intro entries shown
          obtain ⟨own, same, _⟩ := settles.eq_map_iff.mp shown
          exact object ⟨own, same⟩
        have still : ∀ entries, context.settle (context.inline (.named name nonNull) raw) ≠
            .map entries := by
          intro entries shown
          obtain ⟨own, same, _⟩ := settles.eq_map_iff.mp shown
          exact object ((sameShape_inline constant _).exists_map same)
        exact alike_notAMapping type refused still
    | object | interface | union | custom => exact .fail _ _ _ _

omit replaces in
/-- A literal is coerced as it is after the replacement, whatever parse functions make of
variables. -/
theorem alike_coerce (depth : Nat) : context.Replaces convert depth := by
  induction depth with
  | zero => exact fun _ _ _ _ _ => .refl _
  | succ depth ih =>
    intro ref raw path supplied plain
    have constant := replaceable.closed.not_isVariable_substitute raw
    have plain := plainAtScalars_substitute replaceable plain
    rw [coerce, coerce, ← coerceWith_substitute replaceable supplied,
      ← inline_substitute replaceable supplied]
    generalize context.substitute raw = value at constant plain
    have shape : SameShape value (context.inline ref value) := sameShape_inline constant ref
    have still : (context.inline ref value).isVariable = false := by
      rw [shape.isVariable, constant]
    by_cases refused : ref.isNonNull = true ∧ value.isNull = true
    · rw [coerceWith_refused constant refused.1 refused.2, coerceWith_refused still refused.1]
      · exact .refl _
      · rw [shape.isNull, refused.2]
    · by_cases null : value = .null
      · subst null
        have admitted : ref.isNonNull = false := eq_false_of_ne_true fun excluded =>
          refused ⟨excluded, rfl⟩
        have same : context.inline ref .null = .null := rfl
        rw [same, coerceWith_null admitted, coerceWith_null admitted]
        exact .refl _
      · have admitted : ref.isNonNull = true → value.isNull = false := fun excluded =>
          eq_false_of_ne_true fun same => refused ⟨excluded, same⟩
        rw [coerceWith_inside constant null admitted, coerceWith_inside still]
        · cases ref with
          | named name nonNull => exact alike_parseNamed replaceable agrees ih constant plain
          | list item nonNull =>
            rw [coerceInside, coerceInside, items_inline constant]
            exact (alike_itemParts ih fun part among taken hands =>
              plain taken (.item among hands)).map _
        · rwa [ne_eq, shape.eq_null_iff]
        · rwa [shape.isNull]

end Alike

end Replaced

end CoercionContext

end GraphQL
