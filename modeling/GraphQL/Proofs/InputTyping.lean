import GraphQL.Proofs.Accepted
import GraphQL.Proofs.Gathering
import GraphQL.Proofs.Parts
import Mathlib.Data.List.Nodup

/-!
# Types of coerced input

Whatever input is coerced from, its internal value conforms to the type that it was coerced to: null
only where null is admitted, lists for lists, and mappings with every member that has to be there.
Only a variable that was not supplied leaves nothing, and only where nothing is required.
-/

namespace GraphQL

namespace Value

/-- A value that is neither null nor the marker of a value that was not supplied. -/
structure IsPresent (value : Value) : Prop where
  notNull : value.isNull = false
  supplied : value.isUndefined = false

theorem isPresent_iff {value : Value} :
    value.IsPresent ↔ value.isNull = false ∧ value.isUndefined = false :=
  ⟨fun present => ⟨present.notNull, present.supplied⟩, fun present => ⟨present.1, present.2⟩⟩

instance : DecidablePred IsPresent := fun _ => decidable_of_iff _ isPresent_iff.symm

/-- Whether a value is a reference to a variable. -/
def isVariable : Value → Bool
  | var _ => true
  | _ => false

/-- Whether a value is raw input with nothing left out in it, however deep. -/
def isGapless (value : Value) : Bool :=
  value.everywhere fun
    | undefined | chosen .. => false
    | _ => true

/-- Input without gaps is something, if it is not null. -/
theorem isPresent_of_isGapless {value : Value} (gapless : value.isGapless = true)
    (given : value ≠ .null) : value.IsPresent := by
  have passes := of_everywhere gapless
  cases value with
  | null => exact absurd rfl given
  | undefined | chosen => cases passes
  | _ => exact ⟨rfl, rfl⟩

end Value

namespace BuiltinScalar

theorem isPresent_of_checkRange {n : Int} {value : Value} (checked : checkRange n = .ok value) :
    value.IsPresent := by
  unfold checkRange at checked
  split at checked
  · cases checked
  · split at checked <;> cases checked
    exact ⟨rfl, rfl⟩

theorem isPresent_of_checkFinite {x : Float} {value : Value} (checked : checkFinite x = .ok value) :
    value.IsPresent := by
  unfold checkFinite at checked
  split at checked <;> cases checked
  exact ⟨rfl, rfl⟩

theorem isPresent_of_intToFloat {n : Int} {value : Value} (nearest : intToFloat n = .ok value) :
    value.IsPresent := by
  unfold intToFloat at nearest
  dsimp only at nearest
  split at nearest <;> cases nearest
  exact ⟨rfl, rfl⟩

/-- The built-in scalars parse nothing to null. -/
theorem isPresent_of_parse {scalar : BuiltinScalar} {raw value : Value}
    (parsed : scalar.parse raw = .ok value) : value.IsPresent := by
  unfold parse at parsed
  split at parsed
  · exact isPresent_of_checkRange parsed
  · cases parsed
  · exact isPresent_of_checkFinite parsed
  · exact isPresent_of_intToFloat parsed
  all_goals
    cases parsed
    try exact ⟨rfl, rfl⟩

end BuiltinScalar

/-- A conversion that hands on what it gets or parses for a built-in scalar. -/
def Conversion.isTame : Conversion → Bool
  | .identity | .builtin _ .parse => true
  | _ => false

/-- A tame conversion makes something of input without gaps. -/
theorem Conversion.isPresent_of_apply {conversion : Conversion}
    {convert : Handle → Value → Except Fault Value} {raw value : Value}
    (tame : conversion.isTame = true) (gapless : raw.isGapless = true) (given : raw ≠ .null)
    (applied : conversion.apply convert raw = .ok value) : value.IsPresent := by
  cases conversion with
  | identity =>
    cases applied
    exact Value.isPresent_of_isGapless gapless given
  | builtin scalar direction =>
    cases direction with
    | parse =>
      unfold apply BuiltinScalar.convert at applied
      dsimp only at applied
      split at applied
      · next parsed =>
        cases applied
        exact BuiltinScalar.isPresent_of_parse parsed
      · cases applied
    | serialize => cases tame
  | given handle => cases tame

/-- The internal value of a symbol is as present as the value that the symbol was given. -/
theorem EnumType.isPresent_internalValue {type : EnumType} {entry : EnumValue}
    (present : entry.value.IsPresent) : (type.internalValue entry).IsPresent := by
  unfold internalValue
  split
  · exact present
  · exact ⟨present.notNull, rfl⟩

namespace CoercionContext

/-- The internal values that conform to a type. -/
inductive Conforms (context : CoercionContext) : TypeRef → Value → Prop where
  | null {ref : TypeRef} : ref.isNonNull = false → Conforms context ref .null
  | list {item : TypeRef} {nonNull : Bool} {items : List Value} :
      (∀ value ∈ items, Conforms context item value) →
      Conforms context (.list item nonNull) (.list items)
  | scalar {name : String} {nonNull : Bool} {type : ScalarType} {raw value : Value} :
      context.registry.type? name = some (.scalar type) →
      type.parse.apply context.convert raw = .ok value → value.IsPresent →
      Conforms context (.named name nonNull) value
  | enum {name : String} {nonNull : Bool} {type : EnumType} {entry : EnumValue} :
      context.registry.type? name = some (.enum type) → entry ∈ type.values →
      (type.internalValue entry).IsPresent →
      Conforms context (.named name nonNull) (type.internalValue entry)
  | input {name : String} {nonNull : Bool} {type : InputType} {entries : Entries Value} :
      context.registry.type? name = some (.input type) →
      (Entries.keys entries).Sublist (type.fields.map Argument.key) →
      (∀ field ∈ type.fields, field.type.isNonNull = true ∨ field.hasDefault = true →
        field.key ∈ Entries.keys entries) →
      (∀ field ∈ type.fields, ∀ value, (field.key, value) ∈ entries →
        Conforms context field.type value) →
      Conforms context (.named name nonNull) (.map entries)

namespace Conforms

variable {context : CoercionContext} {ref : TypeRef} {value : Value}

/-- What conforms to a type is not left out. -/
theorem isUndefined (conforms : context.Conforms ref value) : value.isUndefined = false := by
  cases conforms with
  | null admitted => rfl
  | list items => rfl
  | scalar found parsed present => exact present.supplied
  | enum found member present => exact present.supplied
  | input found keys there members => rfl

/-- What conforms to a type that excludes null is not null. -/
theorem isPresent (conforms : context.Conforms ref value) (required : ref.isNonNull = true) :
    value.IsPresent := by
  cases conforms with
  | null admitted =>
    rw [required] at admitted
    cases admitted
  | list items => exact ⟨rfl, rfl⟩
  | scalar found parsed present => exact present
  | enum found member present => exact present
  | input found keys there members => exact ⟨rfl, rfl⟩

end Conforms

/-- What user code and the schema keep to where coercion is sound. `Admitted` are the raw values
that may come up, with a value also its parts: everything, say, or all values without a gap. -/
structure Sound (context : CoercionContext) (Admitted : Value → Prop) : Prop where
  item : ∀ {raw items}, Admitted raw → raw = .list items ∨ raw = .tuple items →
    ∀ item ∈ items, Admitted item
  entry : ∀ {raw entries}, Admitted raw → context.settle raw = .map entries →
    ∀ entry ∈ entries, Admitted entry.2
  /-- Variables do not stand for variables. -/
  supplied : ∀ entry ∈ context.variableValues, Admitted entry.2 ∧ entry.2.isVariable = false
  /-- Parse functions give neither null nor nothing. -/
  parsed : ∀ {name type}, context.registry.type? name = some (.scalar type) →
    ∀ {raw value}, Admitted raw → raw ≠ .null →
      type.parse.apply context.convert (context.settle raw) = .ok value → value.IsPresent
  symbol : ∀ {name type}, context.registry.type? name = some (.enum type) →
    ∀ entry ∈ type.values, entry.value.IsPresent
  /-- Defaults are not variables. -/
  default : ∀ {name type}, context.registry.type? name = some (.input type) →
    ∀ field ∈ type.fields, field.hasDefault = true →
      Admitted field.default ∧ field.default.isVariable = false
  /-- The members of one input object are handed on under different keys. -/
  distinct : ∀ {name type}, context.registry.type? name = some (.input type) →
    (type.fields.map Argument.key).Nodup

/-- Nothing, from a variable that was not supplied and where null is admitted. -/
structure LeftOut (context : CoercionContext) (ref : TypeRef) (raw value : Value) : Prop where
  nothing : value = .undefined
  unsupplied : context.isUnsupplied raw = true
  admitted : ref.isNonNull = false

/-- Parts of a coercion conform to their types, unless they are left out. -/
def AllConform (context : CoercionContext) (Admitted : Value → Prop)
    (recur : TypeRef → Value → Path → Coercion Value) : Prop :=
  ∀ {ref raw path value}, Admitted raw → (recur ref raw path).outcome = .ok value →
    context.LeftOut ref raw value ∨ context.Conforms ref value

variable {context : CoercionContext} {Admitted : Value → Prop}
  {recur : TypeRef → Value → Path → Coercion Value} {raw value : Value} {path : Path}

theorem isUnsupplied_of_not_isVariable (constant : raw.isVariable = false) :
    context.isUnsupplied raw = false := by
  unfold isUnsupplied
  split
  · cases constant
  · rfl

theorem substitute_of_not_isVariable (constant : raw.isVariable = false) :
    context.substitute raw = raw := by
  unfold substitute
  split
  · cases constant
  · rfl

/-- A member of an input object under its key, or none where none is needed. -/
def Supplies (context : CoercionContext) (field : Argument) : Option (String × Value) → Prop
  | none => field.type.isNonNull = false ∧ field.hasDefault = false
  | some entry => entry.1 = field.key ∧ context.Conforms field.type entry.2

section

variable (parts : context.AllConform Admitted recur)

include parts

theorem AllConform.of_constant {ref : TypeRef} (admitted : Admitted raw)
    (constant : raw.isVariable = false) (found : (recur ref raw path).outcome = .ok value) :
    context.Conforms ref value := by
  rcases parts admitted found with leftOut | conforms
  · have supplied : context.isUnsupplied raw = false := isUnsupplied_of_not_isVariable constant
    rw [leftOut.unsupplied] at supplied
    cases supplied
  · exact conforms

theorem supplies_of_absent {field : Argument} {missing : Coercion (Option (String × Value))}
    {part : Option (String × Value)}
    (default : field.hasDefault = true → Admitted field.default ∧ field.default.isVariable = false)
    (fails : ∀ part, missing.outcome ≠ .ok part)
    (found : (absent recur field path missing).outcome = .ok part) :
    context.Supplies field part := by
  unfold absent at found
  split at found
  · next has =>
    obtain ⟨admitted, constant⟩ := default has
    obtain ⟨value, coerced, rfl⟩ := Coercion.exists_of_outcome_map found
    exact ⟨rfl, parts.of_constant admitted constant coerced⟩
  · next without =>
    split at found
    · exact absurd found (fails part)
    · next nullable =>
      cases found
      exact ⟨by simpa using nullable, by simpa using without⟩

theorem supplies_of_member {field : Argument} {missing : Coercion (Option (String × Value))}
    {part : Option (String × Value)} (admitted : raw.isUndefined = false → Admitted raw)
    (default : field.hasDefault = true → Admitted field.default ∧ field.default.isVariable = false)
    (fails : ∀ part, missing.outcome ≠ .ok part)
    (found : (member recur field raw path missing).outcome = .ok part) :
    context.Supplies field part := by
  unfold member at found
  split at found
  · exact supplies_of_absent parts default fails found
  · next given =>
    obtain ⟨value, coerced, found⟩ := Coercion.exists_of_outcome_bind found
    split at found
    · exact supplies_of_absent parts default fails found
    · next present =>
      cases found
      refine ⟨rfl, (parts (admitted (by simpa using given)) coerced).resolve_left fun leftOut => ?_⟩
      rw [leftOut.nothing] at present
      exact present rfl

end

section

variable {fields : List Argument} {entries : List (Option (String × Value))}
  (supplied : List.Forall₂ context.Supplies fields entries)

include supplied

theorem keys_sublist_of_supplies :
    (Entries.keys (entries.filterMap id)).Sublist (fields.map Argument.key) := by
  induction supplied with
  | nil => exact .slnil
  | @cons field entry fields entries first _ ih =>
    cases entry with
    | none => exact ih.cons _
    | some entry =>
      rw [List.map_cons, ← first.1]
      exact ih.cons_cons _

theorem key_mem_of_supplies {field : Argument} (among : field ∈ fields)
    (needed : field.type.isNonNull = true ∨ field.hasDefault = true) :
    field.key ∈ Entries.keys (entries.filterMap id) := by
  induction supplied with
  | nil => cases among
  | @cons other entry fields entries first _ ih =>
    rcases List.mem_cons.mp among with rfl | later
    · cases entry with
      | none =>
        obtain ⟨nullable, without⟩ := first
        rw [nullable, without] at needed
        simp at needed
      | some entry => exact List.mem_cons.mpr (Or.inl first.1.symm)
    · cases entry with
      | none => exact ih later
      | some entry => exact List.mem_cons_of_mem _ (ih later)

theorem exists_supplies_of_mem {entry : String × Value} (there : entry ∈ entries.filterMap id) :
    ∃ field ∈ fields, context.Supplies field (some entry) := by
  obtain ⟨found, among, rfl⟩ := List.mem_filterMap.mp there
  exact exists_mem_of_forall₂ supplied among

end

/-- The members of an input object make up a mapping that conforms to its type. -/
theorem conforms_of_supplies {name : String} {nonNull : Bool} {type : InputType}
    (found : context.registry.type? name = some (.input type))
    (distinct : (type.fields.map Argument.key).Nodup) {entries : List (Option (String × Value))}
    (supplied : List.Forall₂ context.Supplies type.fields entries) :
    context.Conforms (.named name nonNull) (.map (Entries.ofList (entries.filterMap id))) := by
  have keys := keys_sublist_of_supplies supplied
  rw [Entries.ofList_of_nodup (distinct.sublist keys)]
  refine .input found keys (fun field => key_mem_of_supplies supplied) ?_
  intro field among value there
  obtain ⟨other, otherAmong, sameKey, conforms⟩ := exists_supplies_of_mem supplied there
  have same : field = other := List.inj_on_of_nodup_map distinct among otherAmong sameKey
  rw [same]
  exact conforms

section

variable (sound : context.Sound Admitted) (parts : context.AllConform Admitted recur)

include sound

theorem conforms_of_parseScalar {name : String} {nonNull : Bool} {type : ScalarType}
    (found : context.registry.type? name = some (.scalar type)) (admitted : Admitted raw)
    (given : raw ≠ .null)
    (parsed : (context.parseScalar type (context.settle raw) path).outcome = .ok value) :
    context.Conforms (.named name nonNull) value := by
  unfold parseScalar at parsed
  split at parsed
  · next result applied =>
    cases parsed
    exact .scalar found applied (sound.parsed found admitted given applied)
  · split at parsed <;> cases parsed

theorem conforms_of_parseSymbol {name : String} {nonNull : Bool} {type : EnumType}
    (found : context.registry.type? name = some (.enum type))
    (parsed : (parseSymbol type raw path).outcome = .ok value) :
    context.Conforms (.named name nonNull) value := by
  unfold parseSymbol at parsed
  split at parsed
  · next entry symbol =>
    cases parsed
    obtain ⟨text, _, chosen⟩ := Option.bind_eq_some_iff.mp symbol
    have member : entry ∈ type.values := List.mem_of_find?_eq_some chosen
    exact .enum found member (EnumType.isPresent_internalValue (sound.symbol found entry member))
  · cases parsed

include parts

theorem supplies_of_fieldPart {name : String} {type : InputType}
    (found : context.registry.type? name = some (.input type)) {entries : Entries Value}
    (admitted : ∀ entry ∈ entries, Admitted entry.2) {field : Argument}
    (among : field ∈ type.fields) {part : Option (String × Value)}
    (coerced : (context.fieldPart recur type entries path field).outcome = .ok part) :
    context.Supplies field part := by
  refine supplies_of_member parts ?_ (sound.default found field among) (fun _ => by rintro ⟨⟩)
    coerced
  intro given
  unfold rawField at given ⊢
  dsimp only at given ⊢
  split
  · next unsupplied =>
    rw [if_pos unsupplied] at given
    cases given
  · next supplied =>
    rw [if_neg supplied] at given
    cases there : entries.find? (·.1 == field.name) with
    | none =>
      rw [Entries.get?, there] at given
      cases given
    | some entry =>
      rw [Entries.get?, there]
      exact admitted entry (List.mem_of_find?_eq_some there)

omit sound parts in
theorem filterMap_of_unknownPart {type : InputType} {keys : List String}
    {entries : List (Option (String × Value))}
    (coerced : List.Forall₂ (fun part entry => part.outcome = .ok entry)
      (keys.map (context.unknownPart type path)) entries) : entries.filterMap id = [] := by
  rw [List.forall₂_map_left_iff] at coerced
  induction coerced with
  | nil => rfl
  | @cons key entry keys entries first _ ih =>
    unfold unknownPart at first
    split at first
    · cases first
    · cases first
      exact ih

theorem conforms_of_parseObject {name : String} {nonNull : Bool} {type : InputType}
    (found : context.registry.type? name = some (.input type)) (admitted : Admitted raw)
    (parsed : (context.parseObject recur type (context.settle raw) path).outcome = .ok value) :
    context.Conforms (.named name nonNull) value := by
  unfold parseObject at parsed
  split at parsed
  · next entries shown =>
    obtain ⟨members, gathered, parsed⟩ := Coercion.exists_of_outcome_bind parsed
    cases parsed
    have coerced := Coercion.forall₂_of_gather gathered
    have declared := List.forall₂_take type.fields.length coerced
    have others := List.forall₂_drop type.fields.length coerced
    rw [List.take_left' (List.length_map _), List.forall₂_map_left_iff] at declared
    rw [List.drop_left' (List.length_map _)] at others
    rw [← List.take_append_drop type.fields.length members, List.filterMap_append,
      filterMap_of_unknownPart others, List.append_nil]
    refine conforms_of_supplies found (sound.distinct found) ?_
    refine List.Forall₂.imp (fun field entry => ?_)
      ((List.forall₂_and_left _ _).mpr ⟨fun field among => among, declared⟩)
    intro part
    exact supplies_of_fieldPart sound parts found (sound.entry admitted shown) part.1 part.2
  · cases parsed

theorem conforms_of_parseNamed {name : String} {nonNull : Bool} (admitted : Admitted raw)
    (given : raw ≠ .null) (parsed : (context.parseNamed recur name raw path).outcome = .ok value) :
    context.Conforms (.named name nonNull) value := by
  unfold parseNamed at parsed
  dsimp only at parsed
  split at parsed
  · cases parsed
  · next found => exact conforms_of_parseScalar sound found admitted given parsed
  · next found => exact conforms_of_parseSymbol sound found parsed
  · next found => exact conforms_of_parseObject sound parts found admitted parsed
  · cases parsed

omit parts in
theorem admitted_of_mem_items (admitted : Admitted raw) {item : Value} (among : item ∈ items raw) :
    Admitted item := by
  unfold items at among
  split at among
  · exact sound.item admitted (Or.inl rfl) item among
  · exact sound.item admitted (Or.inr rfl) item among
  · rw [List.mem_singleton.mp among]
    exact admitted

omit sound in
/-- An item that is left out is null in the list. -/
theorem conforms_of_itemParts {item : TypeRef} {items values : List Value}
    (admitted : ∀ raw ∈ items, Admitted raw)
    (coerced : List.Forall₂ (fun part value => part.outcome = .ok value)
      (itemParts recur item path items) values) :
    ∀ value ∈ values, context.Conforms item value := by
  intro value among
  obtain ⟨part, partAmong, ended⟩ := exists_mem_of_forall₂ coerced among
  obtain ⟨index, there, rfl⟩ := List.mem_mapIdx.mp partAmong
  obtain ⟨result, found, rfl⟩ := Coercion.exists_of_outcome_map ended
  unfold itemValue
  rcases parts (admitted _ (List.getElem_mem there)) found with leftOut | conforms
  · rw [leftOut.nothing]
    exact .null leftOut.admitted
  · rw [conforms.isUndefined, if_neg Bool.false_ne_true]
    exact conforms

/-- What is made of a value that is supplied and not null. -/
theorem conforms_of_coerceNullable {ref : TypeRef} (supplied : context.isUnsupplied raw = false)
    (admitted : Admitted (context.substitute raw)) (given : context.substitute raw ≠ .null)
    (coerced : (context.coerceNullable recur ref raw path).outcome = .ok value) :
    context.Conforms ref value := by
  unfold coerceNullable at coerced
  rw [supplied, if_neg Bool.false_ne_true] at coerced
  split at coerced
  · next null => exact absurd null given
  · obtain ⟨values, gathered, rfl⟩ := Coercion.exists_of_outcome_map coerced
    refine .list (conforms_of_itemParts parts (fun item among => ?_)
      (Coercion.forall₂_of_gather gathered))
    exact admitted_of_mem_items sound admitted among
  · exact conforms_of_parseNamed sound parts admitted given coerced

omit sound parts in
theorem exists_substitute_var {name : String}
    (supplied : context.isUnsupplied (.var name) = false) :
    ∃ entry ∈ context.variableValues, context.substitute (.var name) = entry.2 := by
  have there : context.variableValues.any (·.1 == name) = true := by
    simpa [isUnsupplied, Entries.contains] using supplied
  obtain ⟨entry, found⟩ := Option.isSome_iff_exists.mp (List.find?_isSome.mpr
    (List.any_eq_true.mp there))
  refine ⟨entry, List.mem_of_find?_eq_some found, ?_⟩
  rw [substitute, Entries.get?, found]
  rfl

omit parts in
theorem admitted_substitute (admitted : Admitted raw)
    (supplied : context.isUnsupplied raw = false) : Admitted (context.substitute raw) := by
  cases constant : raw.isVariable with
  | false =>
    rw [substitute_of_not_isVariable constant]
    exact admitted
  | true =>
    cases raw with
    | var name =>
      obtain ⟨entry, among, same⟩ := exists_substitute_var supplied
      rw [same]
      exact (sound.supplied entry among).1
    | _ => cases constant

theorem conforms_of_required {ref : TypeRef} (admitted : Admitted raw)
    (constant : raw.isVariable = false)
    (coerced : (coerceWith.required context recur ref path raw).outcome = .ok value) :
    context.Conforms ref value := by
  have same : context.substitute raw = raw := substitute_of_not_isVariable constant
  unfold coerceWith.required at coerced
  split at coerced
  · cases coerced
  · next notNull =>
    refine conforms_of_coerceNullable sound parts (isUnsupplied_of_not_isVariable constant)
      (by rwa [same]) ?_ coerced
    rw [same]
    rintro rfl
    exact notNull rfl

theorem allConform_coerceWith : context.AllConform Admitted (context.coerceWith recur) := by
  intro ref raw path value admitted coerced
  unfold coerceWith at coerced
  split at coerced
  · refine Or.inr ?_
    split at coerced
    · next name =>
      split at coerced
      · cases coerced
      · next supplied =>
        obtain ⟨entry, among, same⟩ := exists_substitute_var (eq_false_of_ne_true supplied)
        obtain ⟨fits, constant⟩ := sound.supplied entry among
        rw [same] at coerced
        exact conforms_of_required sound parts fits constant coerced
    · next notVariable =>
      refine conforms_of_required sound parts admitted ?_ coerced
      cases raw with
      | var name => exact absurd rfl (notVariable name)
      | _ => rfl
  · next nullable =>
    have admitsNull : ref.isNonNull = false := eq_false_of_ne_true nullable
    cases unsupplied : context.isUnsupplied raw with
    | true =>
      unfold coerceNullable at coerced
      rw [if_pos unsupplied] at coerced
      exact Or.inl ⟨(Except.ok.inj coerced).symm, unsupplied, admitsNull⟩
    | false =>
      refine Or.inr ?_
      by_cases null : context.substitute raw = .null
      · unfold coerceNullable at coerced
        rw [unsupplied, null] at coerced
        cases coerced
        exact .null admitsNull
      · exact conforms_of_coerceNullable sound parts unsupplied
          (admitted_substitute sound admitted unsupplied) null coerced

end

/-- The result of a coercion conforms to the type, or it is nothing: then the raw value is a
variable that was not supplied, and the type admits null. -/
theorem conforms_of_coerce (sound : context.Sound Admitted) {depth : Nat} {ref : TypeRef}
    (admitted : Admitted raw) (coerced : (context.coerce depth ref raw path).outcome = .ok value) :
    context.LeftOut ref raw value ∨ context.Conforms ref value := by
  induction depth generalizing ref raw path value with
  | zero => cases coerced
  | succ depth ih => exact allConform_coerceWith sound ih admitted coerced

/-- A type to which input without gaps is coerced soundly: conversions are tame, symbols stand for
something, and defaults have no gaps. -/
def isTame : TypeDefinition → Bool
  | .scalar type => type.parse.isTame
  | .enum type => type.values.all fun entry => decide entry.value.IsPresent
  | .input type =>
    (type.fields.all fun field =>
      !field.hasDefault || field.default.isGapless && !field.default.isVariable) &&
      decide (type.fields.map Argument.key).Nodup
  | _ => true

/-- Input without gaps is coerced soundly where all types are tame. -/
theorem sound_of_isTame (tame : ∀ type ∈ context.registry.types, isTame type = true)
    (shows : context.settle = id)
    (supplied : ∀ entry ∈ context.variableValues,
      entry.2.isGapless = true ∧ entry.2.isVariable = false) :
    context.Sound fun raw => raw.isGapless = true where
  item := by
    rintro _ _ gapless (rfl | rfl) item among
    · exact Value.everywhere_of_mem_list gapless item among
    · exact Value.everywhere_of_mem_tuple gapless item among
  entry := by
    intro raw entries gapless same entry among
    rw [shows] at same
    cases same
    exact Value.everywhere_of_mem_map gapless entry among
  supplied := supplied
  parsed := by
    intro name type found raw value gapless given applied
    rw [shows] at applied
    exact Conversion.isPresent_of_apply (tame _ (mem_of_lookupType? found)) gapless given applied
  symbol := by
    intro name type found entry among
    have checked := tame _ (mem_of_lookupType? found)
    exact of_decide_eq_true (List.all_eq_true.mp checked entry among)
  default := by
    intro name type found field among has
    have checked := tame _ (mem_of_lookupType? found)
    have fits := List.all_eq_true.mp (Bool.and_eq_true_iff.mp checked).1 field among
    simpa [has] using fits
  distinct := by
    intro name type found
    have checked := tame _ (mem_of_lookupType? found)
    exact of_decide_eq_true (Bool.and_eq_true_iff.mp checked).2

/-- A scalar that hands on what it gets. -/
def anyScalar : ScalarType where
  name := "Any"

/-- Two symbols, of which one stands for a number. -/
def shadeEnum : EnumType where
  name := "Shade"
  values := [⟨"DARK", .int 1, none, none⟩, ⟨"LIGHT", .str "LIGHT", none, none⟩]

/-- An input object with required, defaulted and optional members. -/
def pointInput : InputType where
  name := "Point"
  fields := [
    { name := "x", type := .named "Int" true },
    { name := "y", type := .named "Int", default := .int 7 },
    { name := "shades", type := .list (.named "Shade"), source := some "shade_list" },
    { name := "note", type := .named "Any" }]

/-- A schema that takes points. -/
def pointSchema : Schema where
  query := some (.definition (.object {
    name := "Query"
    fields := [{
      name := "find"
      type := .named "Int"
      args := [{ name := "at", type := .named "Point" true }] }] }))
  types := [.definition (.input pointInput), .definition (.enum shadeEnum),
    .definition (.scalar anyScalar)]

/-- Coercion in its registry, where one variable is supplied. -/
def pointContext : CoercionContext where
  registry := pointSchema.tableWithin 100
  convert := fun _ value => .ok value
  variableValues := [("shade", .str "DARK")]

theorem accepted_pointContext : pointContext.registry.Accepted :=
  Schema.accepted_of_soundWithin (by decide +kernel)

/-- A point with a single symbol for a list, with variables and without its second coordinate. -/
def rawPoint : Value :=
  .map [("shades", .list [.var "shade", .var "gone"]), ("note", .var "gone"), ("x", .int 3)]

/-- The default is filled in, a missing variable is null in a list and no member otherwise. -/
theorem conforms_of_coerce_point :
    pointContext.registry.Accepted ∧
      (pointContext.coerce 3 (.named "Point" true) rawPoint []).outcome =
        .ok (.map [("x", .int 3), ("y", .int 7), ("shade_list", .list [.int 1, .null])]) ∧
      pointContext.Conforms (.named "Point" true)
        (.map [("x", .int 3), ("y", .int 7), ("shade_list", .list [.int 1, .null])]) := by
  have sound : pointContext.Sound fun raw => raw.isGapless = true :=
    sound_of_isTame (by decide +kernel) rfl (by decide +kernel)
  have coerced : (pointContext.coerce 3 (.named "Point" true) rawPoint []).outcome =
      .ok (.map [("x", .int 3), ("y", .int 7), ("shade_list", .list [.int 1, .null])]) := rfl
  refine ⟨accepted_pointContext, coerced, ?_⟩
  exact (conforms_of_coerce sound rfl coerced).resolve_left fun leftOut => nomatch leftOut.nothing

end CoercionContext

end GraphQL
