import GraphQL.Introspection.Literal
import GraphQL.Proofs.InputKinds
import GraphQL.Proofs.InputTyping
import GraphQL.Proofs.Readability
import GraphQL.Proofs.Retention

/-!
# Literals that spell values

Introspection shows a default by a text. Where the default is input to a type that is made of input
objects, enums and built-in scalars other than `Float`, and the names in these can be read, it is
spelled by a literal of the query language, and the characters of the literal are those of the text.
-/

namespace GraphQL

namespace Entries

variable {α β : Type}

/-- What stands under names that differ is found under its name. -/
theorem get?_filterMap {items : List α} {name : α → String} (distinct : (items.map name).Nodup)
    (value : α → Option β) {item : α} (among : item ∈ items) :
    get? (items.filterMap fun item => (value item).map fun own => (name item, own)) (name item) =
      value item := by
  induction items with
  | nil => cases among
  | cons first rest ih =>
    rw [List.map_cons, List.nodup_cons] at distinct
    obtain ⟨fresh, distinct⟩ := distinct
    have elsewhere : name first ∉ keys (rest.filterMap fun item =>
        (value item).map fun own => (name item, own)) := by
      intro there
      obtain ⟨entry, made, same⟩ := List.mem_map.mp there
      obtain ⟨other, later, made⟩ := List.mem_filterMap.mp made
      obtain ⟨own, _, rfl⟩ := Option.map_eq_some_iff.mp made
      exact fresh (same ▸ List.mem_map_of_mem later)
    rw [List.filterMap_cons]
    rcases List.mem_cons.mp among with rfl | later
    · cases value item with
      | none => exact get?_of_not_mem elsewhere
      | some own => exact get?_cons_self (name item, own) _
    · have other : name first ≠ name item := fun same => fresh (same ▸ List.mem_map_of_mem later)
      cases value first with
      | none => exact ih distinct later
      | some own => exact (get?_cons_of_ne other).trans (ih distinct later)

end Entries

namespace Value

/-- Whether a value is a list or a tuple. -/
def isSequence : Value → Bool
  | list _ | tuple _ => true
  | _ => false

end Value

/-- The literals of values that scalars other than `Float` take. -/
inductive SpellsScalar : Value → Literal → Prop where
  | int (n : Int) : SpellsScalar (.int n) (.number n)
  | text (text : String) : SpellsScalar (.str text) (.text text)
  | keyword (family text : String) : SpellsScalar (.keyword family text) (.text text)
  | yes : SpellsScalar (.bool true) (.word "true")
  | no : SpellsScalar (.bool false) (.word "false")

/-- A raw value is spelled by a literal of a type: input objects with the fields that are there, in
the order of declaration. -/
inductive Spells (registry : Registry) : TypeRef → Value → Literal → Prop where
  | null (ref : TypeRef) : Spells registry ref .null (.word "null")
  | list {item : TypeRef} {nonNull : Bool} {raw : Value} {items : List Value}
      {spelling : Value → Literal} :
      raw = .list items ∨ raw = .tuple items →
      (∀ part ∈ items, Spells registry item part (spelling part)) →
      Spells registry (.list item nonNull) raw (.list (items.map spelling))
  | single {item : TypeRef} {nonNull : Bool} {raw : Value} {literal : Literal} :
      raw.isSequence = false → raw ≠ .null → Spells registry item raw literal →
      Spells registry (.list item nonNull) raw literal
  | scalar {name : String} {nonNull : Bool} {scalar : BuiltinScalar} {raw : Value}
      {literal : Literal} :
      registry.type? name = some (.scalar scalar.type) → SpellsScalar raw literal →
      Spells registry (.named name nonNull) raw literal
  | enum {name : String} {nonNull : Bool} {type : EnumType} {raw : Value} {symbol : String} :
      registry.type? name = some (.enum type) → raw.text? = some symbol →
      (type.valueFor? symbol).isSome = true →
      Spells registry (.named name nonNull) raw (.word symbol)
  | input {name : String} {nonNull : Bool} {type : InputType} {entries : Entries Value}
      {spelling : Argument → Literal} :
      registry.type? name = some (.input type) →
      CoercionContext.unknownKeys type entries = [] →
      (∀ field ∈ type.fields, ∀ part, Entries.get? entries field.name = some part →
        Spells registry field.type part (spelling field)) →
      Spells registry (.named name nonNull) (.map entries)
        (.object (type.fields.filterMap fun field =>
          (Entries.get? entries field.name).map fun _ => (field.name, spelling field)))

/-- Symbols and input fields have names of the query language. None of the symbols is the word for
null, and the fields have names of their own. -/
def TypeDefinition.IsLegible : TypeDefinition → Prop
  | .enum type => ∀ entry ∈ type.values, IsName entry.symbol ∧ entry.symbol ≠ "null"
  | .input type =>
    (∀ field ∈ type.fields, IsName field.name) ∧ (type.fields.map Argument.name).Nodup
  | _ => True

instance : DecidablePred TypeDefinition.IsLegible
  | .enum type => inferInstanceAs (Decidable (∀ entry ∈ type.values, _))
  | .input type => inferInstanceAs (Decidable ((∀ field ∈ type.fields, _) ∧ _))
  | .scalar _ | .object _ | .interface _ | .union _ | .custom .. =>
    inferInstanceAs (Decidable True)

/-- The fields of an input object that is published have names of their own. -/
theorem InputType.isLegible_of_publishAll {type : InputType} {declared : List (String × Argument)}
    (published : Member.publishAll declared = .ok type.fields)
    (named : ∀ field ∈ type.fields, IsName field.name) : (TypeDefinition.input type).IsLegible :=
  ⟨named, Member.nodup_of_publishAll published⟩

/-- The names in all types of a registry are legible. -/
def Registry.Legible (registry : Registry) : Prop :=
  ∀ type ∈ registry.types, type.IsLegible

instance (registry : Registry) : Decidable registry.Legible :=
  inferInstanceAs (Decidable (∀ type ∈ registry.types, type.IsLegible))

namespace Registry.Legible

variable {registry : Registry} (legible : registry.Legible) {name : String}

include legible

theorem symbol {type : EnumType} (found : registry.type? name = some (.enum type)) :
    ∀ entry ∈ type.values, IsName entry.symbol ∧ entry.symbol ≠ "null" :=
  legible _ (mem_of_lookupType? found)

theorem field {type : InputType} (found : registry.type? name = some (.input type)) :
    ∀ field ∈ type.fields, IsName field.name :=
  (legible _ (mem_of_lookupType? found)).1

theorem distinct {type : InputType} (found : registry.type? name = some (.input type)) :
    (type.fields.map Argument.name).Nodup :=
  (legible _ (mem_of_lookupType? found)).2

end Registry.Legible

/-- A type is made of input objects, enums and built-in scalars other than `Float`. -/
def Registry.Spellable (registry : Registry) (ref : TypeRef) : Prop :=
  ∀ {name nonNull type}, registry.Inside ref (.named name nonNull) →
    registry.type? name = some (.scalar type) →
    ∃ scalar : BuiltinScalar, scalar ≠ .float ∧ name = scalar.name

/-- Whether the fields of the input objects among some types are of these types, and the scalars
among them are built in and not `Float`. -/
def Registry.spellsWithin (registry : Registry) (names : List String) : Bool :=
  names.all fun name =>
    match registry.type? name with
    | some (.input type) => type.fields.all fun field => names.contains field.type.name
    | some (.scalar _) =>
      BuiltinScalar.all.any fun scalar => scalar != .float && scalar.name == name
    | _ => true

theorem Registry.spellable_of_names {registry : Registry} {ref : TypeRef} (names : List String)
    (among : ref.name ∈ names) (spells : registry.spellsWithin names = true) :
    registry.Spellable ref := by
  have each := List.all_eq_true.mp spells
  have closed : ∀ {inner}, registry.Inside ref inner → inner.name ∈ names := by
    intro inner inside
    induction inside with
    | itself => exact among
    | item _ ih => exact ih
    | field _ found member ih =>
      have checked := each _ ih
      rw [TypeRef.name, found] at checked
      exact List.contains_iff_mem.mp (List.all_eq_true.mp checked _ member)
  intro name nonNull type inside found
  have checked := each name (closed inside)
  rw [found] at checked
  obtain ⟨scalar, _, fits⟩ := List.any_eq_true.mp checked
  rw [Bool.and_eq_true, bne_iff_ne, beq_iff_eq] at fits
  exact ⟨scalar, fits.1, fits.2.symm⟩

theorem EnumType.exists_of_valueFor? {type : EnumType} {symbol : String}
    (known : (type.valueFor? symbol).isSome = true) :
    ∃ entry ∈ type.values, entry.symbol = symbol := by
  obtain ⟨entry, chosen⟩ := Option.isSome_iff_exists.mp known
  exact ⟨entry, List.mem_of_find?_eq_some chosen, eq_of_beq (List.find?_some chosen :)⟩

theorem Value.plain_of_text {raw : Value} {text : String} (shown : raw.text? = some text) :
    raw.plain = .str text ∨ ∃ family, raw.plain = .keyword family text := by
  induction raw using Value.bare.induct with
  | case1 name symbol value ih => exact ih shown
  | case2 raw other =>
    cases raw with
    | str =>
      cases shown
      exact Or.inl rfl
    | keyword family =>
      cases shown
      exact Or.inr ⟨family, rfl⟩
    | chosen => exact absurd rfl (other _ _ _)
    | _ => cases shown

/-- A text is neither a variable nor nothing nor null. -/
theorem Value.given_of_text {raw : Value} {text : String} (shown : raw.text? = some text) :
    raw.isVariable = false ∧ raw.isUndefined = false ∧ raw.isNull = false := by
  refine ⟨?_, ?_, ?_⟩
  · cases raw with
    | var => cases shown
    | _ => rfl
  · cases raw with
    | undefined => cases shown
    | _ => rfl
  · unfold Value.text? at shown
    unfold Value.isNull
    cases bare : raw.bare with
    | null =>
      rw [bare] at shown
      cases shown
    | _ => rfl

namespace SpellsScalar

variable {raw other : Value} {literal : Literal}

theorem proper (spells : SpellsScalar raw literal) : literal.Proper := by
  cases spells with
  | int n => exact .number n
  | text | keyword => exact .text _
  | yes | no => exact .word (by decide)

/-- Values that are spelled alike are the same, or they are texts. -/
theorem eq_or_text (spells : SpellsScalar raw literal) (likewise : SpellsScalar other literal) :
    raw = other ∨ ∃ text, raw.text? = some text ∧ other.text? = some text := by
  generalize same : literal = shown at likewise
  cases spells <;> cases likewise <;> simp_all [Value.text?, Value.bare]

/-- Scalars do not take null. -/
theorem ne_null (spells : SpellsScalar raw literal) : literal ≠ .word "null" := by
  cases spells <;> simp

end SpellsScalar

namespace Spells

variable {registry : Registry} {ref : TypeRef} {raw : Value} {literal : Literal}

/-- Literals of types are proper. -/
theorem proper (legible : registry.Legible) (spells : Spells registry ref raw literal) :
    literal.Proper := by
  induction spells with
  | null ref => exact .word (by decide)
  | @list item nonNull raw items spelling _ _ ih =>
    refine .list fun literal among => ?_
    obtain ⟨part, there, rfl⟩ := List.mem_map.mp among
    exact ih part there
  | single _ _ _ ih => exact ih
  | scalar _ spelled => exact spelled.proper
  | @enum name nonNull type raw symbol found text known =>
    obtain ⟨entry, among, rfl⟩ := EnumType.exists_of_valueFor? known
    exact .word (legible.symbol found entry among).1
  | @input name nonNull type entries spelling found unknown _ ih =>
    have there : ∀ pair ∈ type.fields.filterMap (fun field =>
        (Entries.get? entries field.name).map fun _ => (field.name, spelling field)),
        ∃ field ∈ type.fields, ∃ part, Entries.get? entries field.name = some part ∧
          pair = (field.name, spelling field) := by
      intro pair among
      obtain ⟨field, member, made⟩ := List.mem_filterMap.mp among
      obtain ⟨part, given, same⟩ := Option.map_eq_some_iff.mp made
      exact ⟨field, member, part, given, same.symm⟩
    refine .object (fun pair among => ?_) fun pair among => ?_
    · obtain ⟨field, member, _, _, rfl⟩ := there pair among
      exact legible.field found field member
    · obtain ⟨field, member, part, given, rfl⟩ := there pair among
      exact ih field member part given

/-- What is spelled is there, and it counts as null only where it is null. -/
theorem given (spells : Spells registry ref raw literal) :
    raw.isVariable = false ∧ raw.isUndefined = false ∧ (raw ≠ .null → raw.isNull = false) := by
  induction spells with
  | null ref => exact ⟨rfl, rfl, fun other => absurd rfl other⟩
  | list same => rcases same with rfl | rfl <;> exact ⟨rfl, rfl, fun _ => rfl⟩
  | single _ _ _ ih => exact ih
  | scalar _ spelled => cases spelled <;> exact ⟨rfl, rfl, fun _ => rfl⟩
  | @enum name nonNull type raw symbol found text known =>
    obtain ⟨constant, supplied, present⟩ := Value.given_of_text text
    exact ⟨constant, supplied, fun _ => present⟩
  | input => exact ⟨rfl, rfl, fun _ => rfl⟩

/-- Only null is spelled as null. -/
theorem eq_null (legible : registry.Legible) (spells : Spells registry ref raw (.word "null")) :
    raw = .null := by
  generalize same : Literal.word "null" = literal at spells
  induction spells with
  | null ref => rfl
  | list | input => cases same
  | single _ _ _ ih => exact ih same
  | scalar _ spelled => exact absurd same.symm spelled.ne_null
  | @enum name nonNull type raw symbol found text known =>
    cases same
    obtain ⟨entry, among, same⟩ := EnumType.exists_of_valueFor? known
    exact absurd same (legible.symbol found entry among).2

/-- Only lists and tuples are spelled as lists. -/
theorem isSequence {items : List Literal} (spells : Spells registry ref raw (.list items)) :
    raw.isSequence = true := by
  generalize same : Literal.list items = literal at spells
  induction spells with
  | null | input | enum => cases same
  | list sequence => rcases sequence with rfl | rfl <;> rfl
  | single _ _ _ ih => exact ih same
  | scalar _ spelled => cases spelled <;> cases same

end Spells

namespace Registry

variable {registry : Registry}

theorem literals_eq (items : List Value) (ref : TypeRef) :
    registry.literals items ref = items.map fun item => registry.literal item ref := by
  induction items with
  | nil => rfl
  | cons item rest ih => rw [literals, ih, List.map_cons]

/-- A value that is no sequence is shown at a list type as at the type of the items. -/
theorem literal_of_single {raw : Value} (single : raw.isSequence = false) (item : TypeRef)
    (nonNull : Bool) : registry.literal raw (.list item nonNull) = registry.literal raw item := by
  cases raw with
  | list | tuple => cases single
  | _ => simp only [literal, TypeRef.name]

/-- The literals of the fields that an input object has are found under their names. -/
theorem get?_entryLiterals {type : InputType} (distinct : (type.fields.map Argument.name).Nodup)
    (entries : Entries Value) {field : Argument} (among : field ∈ type.fields) :
    Entries.get? (registry.entryLiterals entries type) field.name =
      (Entries.get? entries field.name).map fun part => registry.literal part field.type := by
  have declared : Member.find? type.fields field.name = some field :=
    find?_of_distinct distinct among
  induction entries with
  | nil => rfl
  | cons entry rest ih =>
    obtain ⟨key, value⟩ := entry
    rw [entryLiterals]
    by_cases same : key = field.name
    · subst same
      rw [declared, Entries.get?_cons_self, Entries.get?_cons_self]
      rfl
    · rw [Entries.get?_cons_of_ne same, ← ih]
      split
      · exact Entries.get?_cons_of_ne same
      · rfl

theorem chars_enum {type : EnumType} {raw : Value} {symbol : String}
    (text : raw.text? = some symbol) (known : (type.valueFor? symbol).isSome = true) :
    type.literal raw = symbol := by
  rw [EnumType.literal, text]
  exact if_pos known

theorem literal_of_text {raw : Value} {symbol : String} (text : raw.text? = some symbol)
    {name : String} {nonNull : Bool} {type : EnumType}
    (found : registry.type? name = some (.enum type)) :
    registry.literal raw (.named name nonNull) = type.literal raw := by
  cases raw with
  | str | keyword | chosen => simp only [literal, TypeRef.name, found]
  | _ => cases text

theorem chars_scalar {raw : Value} {literal : Literal} (spelled : SpellsScalar raw literal)
    {name : String} {nonNull : Bool} {type : ScalarType}
    (found : registry.type? name = some (.scalar type)) :
    (registry.literal raw (.named name nonNull)).toList = literal.chars := by
  have quoted : ∀ text, (Text.jsonString text).toList = (Literal.text text).chars := by
    intro text
    rw [Text.jsonString, String.toList_ofList, Literal.chars, Text.jsonBody]
  have plain : registry.literal raw (.named name nonNull) = raw.plainLiteral := by
    cases spelled <;> simp only [Registry.literal, TypeRef.name, found]
  rw [plain]
  cases spelled with
  | int n =>
    rw [Literal.chars]
    rfl
  | text text => exact quoted text
  | keyword family text => exact quoted text
  | yes | no =>
    rw [Literal.chars]
    rfl

end Registry

/-- The printed characters are those of the literal. -/
theorem Spells.chars_literal {registry : Registry} (legible : registry.Legible) {ref : TypeRef}
    {raw : Value} {literal : Literal} (spells : Spells registry ref raw literal) :
    (registry.literal raw ref).toList = literal.chars := by
  induction spells with
  | null ref =>
    rw [Registry.literal, Literal.chars]
  | @list item nonNull raw items spelling sequence _ ih =>
    have shown : registry.literal raw (.list item nonNull) =
        "[" ++ ", ".intercalate (items.map fun part => registry.literal part item) ++ "]" := by
      rcases sequence with rfl | rfl <;> rw [Registry.literal, Registry.literals_eq]
    have parts : items.map (String.toList ∘ fun part => registry.literal part item) =
        items.map (Literal.chars ∘ spelling) := List.map_congr_left ih
    rw [shown, Literal.chars, Literal.itemChars_eq, String.toList_append, String.toList_append,
      String.toList_intercalate, List.map_map, List.map_map, parts]
    rfl
  | single single _ _ ih => rw [Registry.literal_of_single single, ih]
  | scalar found spelled => exact Registry.chars_scalar spelled found
  | enum found text known =>
    rw [Registry.literal_of_text text found, Registry.chars_enum text known, Literal.chars]
  | @input name nonNull type entries spelling found _ _ ih =>
    have shown : registry.literal (.map entries) (.named name nonNull) =
        type.literal (registry.entryLiterals entries type) := by
      simp only [Registry.literal, TypeRef.name, found]
    have parts : (type.fields.filterMap fun field =>
        (Entries.get? (registry.entryLiterals entries type) field.name).map fun text =>
          field.name ++ ": " ++ text).map String.toList =
        (type.fields.filterMap fun field => (Entries.get? entries field.name).map fun _ =>
          (field.name, spelling field)).map Literal.writeField := by
      rw [List.map_filterMap, List.map_filterMap]
      refine List.filterMap_congr fun field among => ?_
      rw [Registry.get?_entryLiterals (legible.distinct found) entries among, Option.map_map,
        Option.map_map, Option.map_map]
      cases given : Entries.get? entries field.name with
      | none => rfl
      | some part =>
        have spelled := ih field among part given
        simp [Literal.writeField, spelled]
    rw [shown, InputType.literal, Literal.chars, Literal.fieldChars_eq, ← parts,
      String.toList_append, String.toList_append, String.toList_intercalate]
    rfl

end GraphQL
