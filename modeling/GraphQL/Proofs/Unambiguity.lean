import GraphQL.Proofs.Depth
import GraphQL.Proofs.Members
import GraphQL.Proofs.Spelling

/-!
# Printed defaults are unambiguous

The literal under which introspection shows a default tells what the default is coerced to. All
input that is coerced is spelled by a literal, which can be read back from the characters that are
shown; and input that is spelled alike resembles each other, so that it comes to the same.
-/

namespace GraphQL

namespace Value

/-- Input with no variable and nothing left out in it, however deep. -/
structure IsWhole (raw : Value) : Prop where
  closed : raw.isClosed = true
  gapless : raw.isGapless = true

namespace IsWhole

variable {raw : Value}

theorem isUndefined (whole : raw.IsWhole) : raw.isUndefined = false := by
  cases raw with
  | undefined => cases of_everywhere whole.gapless
  | _ => rfl

theorem of_mem_items (whole : raw.IsWhole) :
    ∀ part ∈ CoercionContext.items raw, part.IsWhole := by
  intro part among
  refine ⟨CoercionContext.isClosed_of_mem_items whole.closed part among, ?_⟩
  cases raw with
  | list items => exact everywhere_of_mem_list whole.gapless part among
  | tuple items => exact everywhere_of_mem_tuple whole.gapless part among
  | _ =>
    rw [List.mem_singleton.mp among]
    exact whole.gapless

theorem of_get? {entries : Entries Value} (whole : (Value.map entries).IsWhole) {key : String}
    {part : Value} (given : Entries.get? entries key = some part) : part.IsWhole where
  closed := CoercionContext.isClosed_of_get? (isClosed_map.mp whole.closed) given
  gapless := by
    obtain ⟨entry, there, rfl⟩ := Option.map_eq_some_iff.mp given
    exact everywhere_of_mem_map whole.gapless entry (List.mem_of_find?_eq_some there)

end IsWhole

end Value

namespace CoercionContext

open Coercion (Alike)

variable {context : CoercionContext} {ref : TypeRef} {raw other : Value} {literal : Literal}

theorem items_of_not_isSequence (single : raw.isSequence = false) : items raw = [raw] := by
  cases raw with
  | list | tuple => cases single
  | _ => rfl

/-- What a built-in scalar makes of a text depends on the text alone. -/
theorem alike_parseScalar_of_text (scalar : BuiltinScalar) {text : String}
    (shown : raw.text? = some text) (likewise : other.text? = some text) (place elsewhere : Path) :
    Alike (context.parseScalar scalar.type raw place)
      (context.parseScalar scalar.type other elsewhere) := by
  have parsed : ∀ value : Value, value.text? = some text →
      scalar.parse value.plain = scalar.parse (.str text) := by
    intro value shown
    rcases Value.plain_of_text shown with same | ⟨family, same⟩
    · rw [same]
    · rw [same]
      cases scalar <;> rfl
  have applied : ∀ value : Value, scalar.type.parse.apply context.convert value =
      scalar.convert .parse value.plain := fun _ => rfl
  unfold parseScalar
  rw [applied, applied, BuiltinScalar.convert, BuiltinScalar.convert, parsed raw shown,
    parsed other likewise]
  cases scalar.parse (.str text) with
  | ok value => exact .refl _
  | error reason => exact .fail _ _ place elsewhere

/-- Texts that are the same resemble each other for built-in scalars and enums. -/
theorem resembles_of_text (settles : context.Settles) {name text : String} {nonNull : Bool}
    (shown : raw.text? = some text) (likewise : other.text? = some text)
    (leaf : (∃ scalar : BuiltinScalar, context.registry.type? name = some (.scalar scalar.type)) ∨
      ∃ type, context.registry.type? name = some (.enum type)) :
    context.Resembles (.named name nonNull) raw other := by
  obtain ⟨constant, _, present⟩ := Value.given_of_text shown
  obtain ⟨still, _, there⟩ := Value.given_of_text likewise
  refine .named constant present still there fun recur place elsewhere => ?_
  rw [← settles.text?] at shown likewise
  unfold parseNamed
  rcases leaf with ⟨scalar, found⟩ | ⟨type, found⟩
  · rw [found]
    exact alike_parseScalar_of_text scalar shown likewise place elsewhere
  · rw [found]
    exact alike_parseSymbol type (likewise.trans shown.symm)

/-- What is supplied for a field is what stands in the mapping. -/
theorem rawField_of_given {entries : Entries Value} {field : Argument}
    (constant : ∀ part, Entries.get? entries field.name = some part → part.isVariable = false) :
    context.rawField entries field = (Entries.get? entries field.name).getD .undefined := by
  unfold rawField
  dsimp only
  cases given : Entries.get? entries field.name with
  | none => rfl
  | some part =>
    rw [Option.getD_some, isUnsupplied_of_not_isVariable (constant part given),
      if_neg Bool.false_ne_true]

/-- Lists of items that resemble each other do so too. -/
theorem resembles_of_items {item : TypeRef} {nonNull : Bool}
    (given : raw.isVariable = false ∧ raw.isNull = false)
    (likewise : other.isVariable = false ∧ other.isNull = false)
    (resemble : List.Forall₂ (context.Resembles item) (items raw) (items other)) :
    context.Resembles (.list item nonNull) raw other := by
  rw [List.forall₂_iff_get] at resemble
  refine .list given.1 given.2 likewise.1 likewise.2 resemble.1 ?_
  intro index part shown here there
  obtain ⟨inside, rfl⟩ := List.getElem?_eq_some_iff.mp here
  obtain ⟨within, rfl⟩ := List.getElem?_eq_some_iff.mp there
  exact resemble.2 index inside within

/-- Input objects whose fields are spelled alike resemble each other. -/
theorem resembles_of_fields {name : String} {nonNull : Bool} {type : InputType}
    (found : context.registry.type? name = some (.input type))
    (distinct : (type.fields.map Argument.name).Nodup) {entries others : Entries Value}
    (unknown : unknownKeys type entries = [] ∧ unknownKeys type others = [])
    (constant : ∀ field ∈ type.fields, ∀ part, (Entries.get? entries field.name = some part ∨
      Entries.get? others field.name = some part) →
        part.isVariable = false ∧ part.isUndefined = false)
    {spelling spelled : Argument → Literal}
    (same : (type.fields.filterMap fun field =>
        (Entries.get? entries field.name).map fun _ => (field.name, spelling field)) =
      type.fields.filterMap fun field =>
        (Entries.get? others field.name).map fun _ => (field.name, spelled field))
    (resemble : ∀ field ∈ type.fields, ∀ part shown, Entries.get? entries field.name = some part →
      Entries.get? others field.name = some shown → spelling field = spelled field →
        context.Resembles field.type part shown) :
    context.Resembles (.named name nonNull) (.map entries) (.map others) := by
  have paired : ∀ field ∈ type.fields,
      (Entries.get? entries field.name = none ∧ Entries.get? others field.name = none) ∨
        ∃ part shown, Entries.get? entries field.name = some part ∧
          Entries.get? others field.name = some shown ∧ spelling field = spelled field := by
    intro field among
    have here := Entries.get?_filterMap distinct
      (fun field => (Entries.get? entries field.name).map fun _ => spelling field) among
    have there := Entries.get?_filterMap distinct
      (fun field => (Entries.get? others field.name).map fun _ => spelled field) among
    simp only [Option.map_map, Function.comp_def] at here there
    rw [same, there] at here
    cases given : Entries.get? entries field.name <;>
      cases still : Entries.get? others field.name <;> simp_all
  have raws : ∀ field ∈ type.fields,
      context.rawField entries field = (Entries.get? entries field.name).getD .undefined ∧
        context.rawField others field = (Entries.get? others field.name).getD .undefined :=
    fun field among =>
      ⟨rawField_of_given fun part given => (constant field among part (Or.inl given)).1,
        rawField_of_given fun part given => (constant field among part (Or.inr given)).1⟩
  have undeclared := unknown.1.trans unknown.2.symm
  refine .object found undeclared (fun field among => ?_) fun field among => ?_
  · rw [(raws field among).1, (raws field among).2]
    rcases paired field among with ⟨here, there⟩ | ⟨part, shown, here, there, _⟩
    · rw [here, there]
    · rw [here, there]
      exact (constant field among part (Or.inl here)).2.trans
        (constant field among shown (Or.inr there)).2.symm
  · rw [(raws field among).1, (raws field among).2]
    rcases paired field among with ⟨here, there⟩ | ⟨part, shown, here, there, alike⟩
    · rw [here, there]
      exact .same _ _
    · rw [here, there]
      exact resemble field among part shown here there alike

/-- Values that are spelled alike resemble each other. -/
theorem resembles_of_spells (settles : context.Settles) (legible : context.registry.Legible)
    (spells : Spells context.registry ref raw literal) :
    ∀ other, Spells context.registry ref other literal → context.Resembles ref raw other := by
  -- The type alone does not tell how the other value is spelled: a list type also takes a single
  -- value. What rules the other ways out is the kind of the literal.
  induction spells with
  | null ref =>
    intro other likewise
    rw [likewise.eq_null legible]
    exact .same _ _
  | @list item nonNull raw parts spelling sequence _ ih =>
    intro other likewise
    generalize same : Literal.list (parts.map spelling) = literal at likewise
    cases likewise with
    | null => cases same
    | single single _ spells =>
      subst same
      rw [spells.isSequence] at single
      cases single
    | @list _ _ _ others spelled still there =>
      have here : items raw = parts ∧ raw.isVariable = false ∧ raw.isNull = false := by
        rcases sequence with rfl | rfl <;> exact ⟨rfl, rfl, rfl⟩
      have likewise : items other = others ∧ other.isVariable = false ∧ other.isNull = false := by
        rcases still with rfl | rfl <;> exact ⟨rfl, rfl, rfl⟩
      have alike : List.Forall₂ (fun part shown => spelling part = spelled shown) parts others := by
        rw [Literal.list.injEq, ← List.forall₂_eq_eq_eq, List.forall₂_map_left_iff,
          List.forall₂_map_right_iff] at same
        exact same
      refine resembles_of_items here.2 likewise.2 ?_
      rw [here.1, likewise.1]
      refine forall₂_imp_of_mem alike fun part among shown member equal => ih part among shown ?_
      rw [equal]
      exact there shown member
  | @single item nonNull raw literal single given spells ih =>
    intro other likewise
    have here := spells.given
    cases likewise with
    | null => exact absurd (spells.eq_null legible) given
    | list =>
      rw [spells.isSequence] at single
      cases single
    | single still present likewise =>
      have there := likewise.given
      refine resembles_of_items ⟨here.1, here.2.2 given⟩ ⟨there.1, there.2.2 present⟩ ?_
      rw [items_of_not_isSequence single, items_of_not_isSequence still]
      exact .cons (ih other likewise) .nil
  | @scalar name nonNull scalar raw literal found spelled =>
    intro other likewise
    cases likewise with
    | null => exact absurd rfl spelled.ne_null
    | enum still | input still => cases found.symm.trans still
    | scalar _ likewise =>
      rcases spelled.eq_or_text likewise with rfl | ⟨text, shown, there⟩
      · exact .same _ _
      · exact resembles_of_text settles shown there (Or.inl ⟨scalar, found⟩)
  | @enum name nonNull type raw symbol found text known =>
    intro other likewise
    generalize same : Literal.word symbol = literal at likewise
    cases likewise with
    | null =>
      cases same
      obtain ⟨entry, among, same⟩ := EnumType.exists_of_valueFor? known
      exact absurd same (legible.symbol found entry among).2
    | scalar still | input still => cases found.symm.trans still
    | enum still there =>
      cases same
      exact resembles_of_text settles text there (Or.inr ⟨type, found⟩)
  | @input name nonNull type entries spelling found unknown spelled ih =>
    intro other likewise
    generalize same : Literal.object _ = literal at likewise
    cases likewise with
    | null => cases same
    | scalar still | enum still => cases found.symm.trans still
    | @input _ _ _ others spelling still missing likewise =>
      cases found.symm.trans still
      refine resembles_of_fields found (legible.distinct found) ⟨unknown, missing⟩ ?_
        (Literal.object.inj same) ?_
      · rintro field among part (given | given)
        · obtain ⟨constant, supplied, _⟩ := (spelled field among part given).given
          exact ⟨constant, supplied⟩
        · obtain ⟨constant, supplied, _⟩ := (likewise field among part given).given
          exact ⟨constant, supplied⟩
      · intro field among part shown here there alike
        refine ih field among part here shown ?_
        rw [alike]
        exact likewise field among shown there

/-! ## All input that is coerced is spelled -/

/-- A scalar other than `Float` parses what a literal spells. -/
theorem exists_spellsScalar_of_parse {scalar : BuiltinScalar} {value : Value}
    (whole : scalar ≠ .float) (parsed : scalar.parse raw = .ok value) :
    ∃ literal, SpellsScalar raw literal := by
  cases raw with
  | int n => exact ⟨_, .int n⟩
  | str text => exact ⟨_, .text text⟩
  | keyword family text => exact ⟨_, .keyword family text⟩
  | bool b =>
    cases b with
    | true => exact ⟨_, .yes⟩
    | false => exact ⟨_, .no⟩
  | _ => cases scalar <;> first | exact absurd rfl whole | cases parsed

theorem exists_spellsScalar (settles : context.Settles) (whole : raw.IsWhole)
    {scalar : BuiltinScalar} (other : scalar ≠ .float) {path : Path} {value : Value}
    (parsed : (context.parseScalar scalar.type (context.settle raw) path).outcome = .ok value) :
    ∃ literal, SpellsScalar raw literal := by
  have converts : scalar.type.parse.apply context.convert (context.settle raw) =
      scalar.convert .parse (context.settle raw).plain := rfl
  unfold parseScalar at parsed
  rw [converts, BuiltinScalar.convert] at parsed
  have parses : ∃ result, scalar.parse (context.settle raw).plain = .ok result := by
    cases came : scalar.parse (context.settle raw).plain with
    | ok result => exact ⟨result, rfl⟩
    | error reason =>
      rw [came] at parsed
      cases parsed
  obtain ⟨result, parses⟩ := parses
  obtain ⟨literal, spelled⟩ := exists_spellsScalar_of_parse other parses
  obtain ⟨change, _, shows⟩ := settles
  rw [shows] at spelled
  cases raw with
  | chosen => cases Value.of_everywhere whole.gapless
  | int | str | keyword | bool => exact ⟨literal, spelled⟩
  | _ => cases spelled

theorem exists_of_member {recur : TypeRef → Value → Path → Coercion Value} {arg : Argument}
    {path : Path} {missing : Coercion (Option (String × Value))}
    {result : Option (String × Value)} (supplied : raw.isUndefined = false)
    (succeeded : (member recur arg raw path missing).outcome = .ok result) :
    ∃ value, (recur arg.type raw path).outcome = .ok value := by
  unfold member at succeeded
  rw [supplied, if_neg Bool.false_ne_true] at succeeded
  obtain ⟨value, coerced, _⟩ := Coercion.exists_of_outcome_bind succeeded
  exact ⟨value, coerced⟩

/-- Under the strict policy, keys of input objects that are coerced are declared. -/
theorem unknownKeys_eq_nil (strict : context.policy = .reject) {type : InputType}
    {entries : Entries Value} {path : Path}
    (each : ∀ key ∈ unknownKeys type entries, ∃ part,
      (context.unknownPart type path key).outcome = .ok part) : unknownKeys type entries = [] := by
  rw [List.eq_nil_iff_forall_not_mem]
  intro key among
  obtain ⟨part, came⟩ := each key among
  unfold unknownPart at came
  rw [strict] at came
  cases came

section Spelled

variable (accepted : context.registry.Accepted) (settles : context.Settles)
  (strict : context.policy = .reject) {outer : TypeRef}
  (spellable : context.registry.Spellable outer)

/-- Input to types inside a given one that is coerced at most so deep is spelled. -/
def Spelled (context : CoercionContext) (outer : TypeRef) (depth : Nat) : Prop :=
  ∀ {ref raw path value}, context.registry.Inside outer ref → raw.IsWhole →
    (context.coerce depth ref raw path).outcome = .ok value →
      ∃ literal, Spells context.registry ref raw literal

/-- Items of lists that are coerced are spelled, and so are the lists. -/
theorem Spelled.list {depth : Nat} (spelled : context.Spelled outer depth) {item : TypeRef}
    {nonNull : Bool} (inside : context.registry.Inside outer (.list item nonNull))
    (whole : raw.IsWhole) (given : raw ≠ .null) {path : Path} {values : List Value}
    (gathered : (Coercion.gather path
      (itemParts (context.coerce depth) item path (items raw))).outcome = .ok values) :
    ∃ literal, Spells context.registry (.list item nonNull) raw literal := by
  have each : ∀ part ∈ items raw, ∃ literal, Spells context.registry item part literal := by
    intro part among
    obtain ⟨index, there, rfl⟩ := List.mem_iff_getElem.mp among
    obtain ⟨result, came⟩ := Coercion.exists_of_gather gathered _
      (List.mem_mapIdx.mpr ⟨index, there, rfl⟩)
    obtain ⟨value, coerced, _⟩ := Coercion.exists_of_outcome_map came
    exact spelled inside.item (whole.of_mem_items _ among) coerced
  cases single : raw.isSequence with
  | false =>
    rw [items_of_not_isSequence single] at each
    obtain ⟨literal, spells⟩ := each raw (List.mem_singleton_self raw)
    exact ⟨literal, .single single given spells⟩
  | true =>
    have sequence : raw = .list (items raw) ∨ raw = .tuple (items raw) := by
      cases raw with
      | list => exact Or.inl rfl
      | tuple => exact Or.inr rfl
      | _ => cases single
    have : Nonempty Literal := ⟨.list []⟩
    choose! spelling spells using each
    exact ⟨_, .list sequence spells⟩

include settles strict

/-- Fields of input objects that are coerced are spelled, and so are the objects. -/
theorem Spelled.input {depth : Nat} (spelled : context.Spelled outer depth) {name : String}
    {nonNull : Bool} (inside : context.registry.Inside outer (.named name nonNull))
    {type : InputType} (found : context.registry.type? name = some (.input type))
    {entries : Entries Value} (whole : (Value.map entries).IsWhole) {path : Path} {value : Value}
    (coerced : (context.coerce (depth + 1) (.named name nonNull) (.map entries) path).outcome =
      .ok value) :
    ∃ literal, Spells context.registry (.named name nonNull) (.map entries) literal := by
  rw [coerce_map settles found] at coerced
  obtain ⟨parts, gathered, _⟩ := Coercion.exists_of_outcome_map coerced
  have came := Coercion.exists_of_gather gathered
  have known : unknownKeys type entries = [] := unknownKeys_eq_nil strict fun key among =>
    came _ (List.mem_append_right _ (List.mem_map_of_mem among))
  have each : ∀ field, field ∈ type.fields → ∃ literal, ∀ part,
      Entries.get? entries field.name = some part →
        Spells context.registry field.type part literal := by
    intro field among
    obtain ⟨result, ended⟩ := came _ (List.mem_append_left _ (List.mem_map_of_mem among))
    cases there : Entries.get? entries field.name with
    | none => exact ⟨.list [], nofun⟩
    | some part =>
      have own : part.IsWhole := whole.of_get? there
      have raws : context.rawField entries field = part := by
        rw [rawField_of_given fun other given => Value.not_isVariable_of_isClosed
          (whole.of_get? given).closed, there]
        rfl
      rw [fieldPart, raws] at ended
      obtain ⟨value, coerced⟩ := exists_of_member own.isUndefined ended
      obtain ⟨literal, spells⟩ := spelled (inside.field found among) own coerced
      refine ⟨literal, ?_⟩
      rintro _ ⟨⟩
      exact spells
  have : Nonempty Literal := ⟨.list []⟩
  choose! spelling spells using each
  exact ⟨_, .input found known spells⟩

include accepted spellable

/-- All input to the types inside a given one that is coerced is spelled. -/
theorem spelled_coerce (depth : Nat) : context.Spelled outer depth := by
  induction depth with
  | zero => exact fun _ _ coerced => nomatch coerced
  | succ depth ih =>
    intro ref raw path value inside whole coerced
    by_cases null : raw = .null
    · rw [null]
      exact ⟨_, .null ref⟩
    have constant := Value.not_isVariable_of_isClosed whole.closed
    have present := Value.isPresent_of_isGapless whole.gapless null
    have looked := coerced
    rw [coerce, coerceWith_inside constant null fun _ => present.notNull] at looked
    cases ref with
    | list item nonNull =>
      obtain ⟨values, gathered, _⟩ := Coercion.exists_of_outcome_map looked
      exact ih.list inside whole null gathered
    | named name nonNull =>
      rw [coerceInside] at looked
      unfold parseNamed at looked
      dsimp only at looked
      split at looked
      · cases looked
      · next type found =>
        obtain ⟨scalar, other, rfl⟩ := spellable inside found
        cases found.symm.trans (accepted.type?_scalar scalar)
        obtain ⟨literal, spelled⟩ := exists_spellsScalar settles whole other looked
        exact ⟨literal, .scalar found spelled⟩
      · next type found =>
        unfold parseSymbol at looked
        split at looked
        · next entry chosen =>
          obtain ⟨symbol, text, entry⟩ := Option.bind_eq_some_iff.mp chosen
          rw [settles.text?] at text
          exact ⟨_, .enum found text (Option.isSome_of_eq_some entry)⟩
        · cases looked
      · next type found =>
        by_cases object : ∃ entries, raw = .map entries
        · obtain ⟨entries, rfl⟩ := object
          exact ih.input settles strict inside found whole coerced
        · have refused : ∀ entries, context.settle raw ≠ .map entries := by
            intro entries shown
            obtain ⟨own, same, _⟩ := settles.eq_map_iff.mp shown
            exact object ⟨own, same⟩
          rw [parseObject_of_not_map type refused] at looked
          cases looked
      · cases looked

end Spelled

/-- Input that is coerced as deep as it goes is coerced to the same however deep it may go. -/
theorem coerce_of_deeper {depth more : Nat} (above : depth ≤ more) {path : Path} {value : Value}
    (coerced : (context.coerce depth ref raw path).outcome = .ok value) :
    (context.coerce more ref raw path).outcome = .ok value := by
  rw [coerce_deeper above ref raw path (fun met => by rw [coerced] at met; cases met)]
  exact coerced

/-- The literal under which input is shown determines what it is coerced to. The type is made of
input objects, enums and built-in scalars other than `Float`, their fields and symbols have names of
the query language, and nothing is left out of the input. -/
theorem literal_determines (accepted : context.registry.Accepted) (settles : context.Settles)
    (strict : context.policy = .reject) (legible : context.registry.Legible)
    (spellable : context.registry.Spellable ref) (whole : raw.IsWhole) (complete : other.IsWhole)
    {depth more : Nat} {place elsewhere : Path} {value result : Value}
    (coerced : (context.coerce depth ref raw place).outcome = .ok value)
    (likewise : (context.coerce more ref other elsewhere).outcome = .ok result)
    (same : context.registry.literal raw ref = context.registry.literal other ref) :
    value = result := by
  obtain ⟨literal, spells⟩ :=
    spelled_coerce accepted settles strict spellable depth .itself whole coerced
  obtain ⟨shown, spelled⟩ :=
    spelled_coerce accepted settles strict spellable more .itself complete likewise
  have alike : literal = shown := by
    apply (spells.proper legible).eq_of_chars (spelled.proper legible)
    rw [← spells.chars_literal legible, ← spelled.chars_literal legible, same]
  subst alike
  have resembles := resembles_of_spells settles legible spells other spelled
  have agrees := follows_coerce settles (max depth more) resembles place elsewhere
  have here := coerce_of_deeper (Nat.le_max_left depth more) coerced
  have there := coerce_of_deeper (Nat.le_max_right depth more) likewise
  rw [agrees.ok_iff, there] at here
  exact (Except.ok.inj here).symm

/-- Units with numbers behind them. -/
def unitEnum : EnumType where
  name := "Unit"
  values := [⟨"M", .int 1, none, none⟩, ⟨"KM", .int 1000, none, none⟩]

/-- A leg of a route, which may lead to another one. -/
def legInput : InputType where
  name := "Leg"
  fields := [
    { name := "label", type := .named "String" true },
    { name := "unit", type := .named "Unit", default := .str "KM" },
    { name := "stops", type := .list (.named "ID" true) },
    { name := "next", type := .named "Leg" },
    { name := "paved", type := .named "Boolean", default := .bool true }]

/-- A schema that takes routes. -/
def routeSchema : Schema where
  query := some (.definition (.object {
    name := "Query"
    fields := [{
      name := "length"
      type := .named "Int"
      args := [{ name := "route", type := .list (.named "Leg" true) }] }] }))
  types := [.definition (.input legInput), .definition (.enum unitEnum)]

/-- Coercion in its registry. -/
def routeContext : CoercionContext where
  registry := routeSchema.tableWithin 100
  convert := fun _ value => .ok value

/-- A route of two legs. -/
def rawRoute : Value :=
  .list [.map [("label", .str "the \"old\" road"), ("stops", .list [.int 7, .str "7"]),
    ("unit", .str "M"), ("next", .map [("label", .str "home")])]]

/-- The same route with keywords, with tuples and in another order. -/
def otherRoute : Value :=
  .tuple [.map [("unit", .keyword "Unit" "M"), ("next", .map [("label", .keyword "Place" "home")]),
    ("stops", .tuple [.int 7, .str "7"]), ("label", .str "the \"old\" road")]]

/-- What the route is coerced to. -/
def route : Value :=
  .list [.map [("label", .str "the \"old\" road"), ("unit", .int 1),
    ("stops", .list [.str "7", .str "7"]),
    ("next", .map [("label", .str "home"), ("unit", .int 1000), ("paved", .bool true)]),
    ("paved", .bool true)]]

/-- Routes that are shown alike are the same, with the defaults filled in. -/
theorem literal_determines_route :
    (routeContext.coerce 4 (.list (.named "Leg" true)) rawRoute []).outcome = .ok route ∧
      routeContext.registry.literal rawRoute (.list (.named "Leg" true)) =
        "[\x7blabel: \"the \\\"old\\\" road\", unit: M, stops: [7, \"7\"], " ++
          "next: \x7blabel: \"home\"\x7d\x7d]" ∧
      routeContext.registry.literal otherRoute (.list (.named "Leg" true)) =
        routeContext.registry.literal rawRoute (.list (.named "Leg" true)) ∧
      ∃ result, (routeContext.coerce 5 (.list (.named "Leg" true)) otherRoute
        [.key "route"]).outcome = .ok result ∧ result = route := by
  have accepted : routeContext.registry.Accepted :=
    Schema.accepted_of_soundWithin (by decide +kernel)
  have legible : routeContext.registry.Legible := by decide +kernel
  have spellable : routeContext.registry.Spellable (.list (.named "Leg" true)) :=
    Registry.spellable_of_names ["Leg", "String", "Unit", "ID", "Boolean"] (by decide)
      (by decide +kernel)
  have coerced : (routeContext.coerce 4 (.list (.named "Leg" true)) rawRoute []).outcome =
      .ok route := rfl
  have same : routeContext.registry.literal otherRoute (.list (.named "Leg" true)) =
      routeContext.registry.literal rawRoute (.list (.named "Leg" true)) := by decide +kernel
  obtain ⟨result, likewise⟩ : ∃ result, (routeContext.coerce 5 (.list (.named "Leg" true))
      otherRoute [.key "route"]).outcome = .ok result := ⟨_, rfl⟩
  exact ⟨coerced, by decide +kernel, same, result, likewise, literal_determines accepted
    (settles_of_id rfl) rfl legible spellable ⟨rfl, rfl⟩ ⟨rfl, rfl⟩ likewise coerced same⟩

end CoercionContext

end GraphQL
