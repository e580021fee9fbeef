import GraphQL.Execution
import GraphQL.Proofs.Lookups
import GraphQL.Reference

/-!
# Outlines of types

What a query for a type asks introspection for, and how the answer is read back. References are
asked for as deeply as they may be wrapped; a reader that knows nothing of the registry takes the
wrappers off the answer again and puts them around the name at the bottom.
-/

namespace GraphQL

/-! ## Queries -/

namespace Introspection

/-- The places of selections in the source text, by the names of the fields that lead to them. -/
abbrev Places := List String → Option Location

/-- The selection of a field, with selections below it. -/
def ask (places : Places) (name : String) (arguments : Entries Value := [])
    (below : Places → List Selection := fun _ => []) : Selection :=
  .field name none arguments [] (places [name]) (below fun path => places (name :: path))

/-- The literal that asks for deprecated members too. -/
def withDeprecated : Entries Value :=
  [(includeDeprecated.name, .bool true)]

/-- Asks for a name. -/
def nameSelections (places : Places) : List Selection :=
  [ask places "name"]

/-- Asks for a reference, with at most so many wrappers around a name. -/
def referenceSelections : Nat → Places → List Selection
  | 0, places => [ask places "kind", ask places "name"]
  | depth + 1, places =>
    [ask places "kind", ask places "name", ask places "ofType" [] (referenceSelections depth)]

/-- Asks for the name and the type of an argument or input field. -/
def argumentSelections (depth : Nat) (places : Places) : List Selection :=
  [ask places "name", ask places "type" [] (referenceSelections depth)]

/-- Asks for the name, the arguments and the type of a field. -/
def fieldSelections (depth : Nat) (places : Places) : List Selection :=
  [ask places "name", ask places "args" [] (argumentSelections depth),
    ask places "type" [] (referenceSelections depth)]

/-- Asks for the parts of a type. -/
def typeSelections (depth : Nat) (places : Places) : List Selection :=
  [ask places "kind", ask places "name",
    ask places "fields" withDeprecated (fieldSelections depth),
    ask places "inputFields" [] (argumentSelections depth),
    ask places "enumValues" withDeprecated nameSelections,
    ask places "interfaces" [] nameSelections,
    ask places "possibleTypes" [] nameSelections]

/-- Asks for the type of a name. -/
def typeSelection (name : String) (depth : Nat) (places : Places) : Selection :=
  ask places typeField.name [("name", .str name)] (typeSelections depth)

/-- Asks for the names of all types. -/
def typesSelection (places : Places) : Selection :=
  ask places schemaField.name [] fun places => [ask places "types" [] nameSelections]

end Introspection

/-! ## Reading answers -/

/-- The kind of a symbol. -/
def TypeKind.ofSymbol? (symbol : String) : Option TypeKind :=
  all.find? (·.symbol == symbol)

@[simp] theorem TypeKind.ofSymbol?_symbol (kind : TypeKind) :
    ofSymbol? kind.symbol = some kind := by
  cases kind <;> decide

namespace Response

/-- The text that a leaf is. -/
def text? : Response → Option String
  | .leaf (.str text) => some text
  | _ => none

/-- The data under a key of an object. -/
def entry? (data : Response) (key : String) : Option Response :=
  match data with
  | .object entries => Entries.get? entries key
  | _ => none

/-- The name that an object has. -/
def name? (data : Response) : Option String :=
  (data.entry? "name").bind text?

/-- The kind that an object has. -/
def kind? (data : Response) : Option TypeKind :=
  ((data.entry? "kind").bind text?).bind TypeKind.ofSymbol?

/-- The items of a list, each as it is read. -/
def items? {α : Type} (read : Response → Option α) : Response → Option (List α)
  | .list items => items.mapM read
  | _ => none

/-- Null, or data as it is read. -/
def orNull? {α : Type} (read : Response → Option α) : Response → Option (Option α)
  | .null => some none
  | data => (read data).map some

mutual

/-- The reference that an answer describes: a name, or wrappers around another reference. -/
def reference? : Response → Option TypeRef
  | .object entries =>
    match (Response.object entries).kind? with
    | some .nonNull => (innerReference? entries).bind fun inner => inner.require.toOption
    | some .list => (innerReference? entries).map fun inner => .list inner
    | some _ => (Response.object entries).name?.map fun name => .named name
    | none => none
  | _ => none

/-- The reference under the wrapper that the entries of an answer describe. -/
def innerReference? : List (String × Response) → Option TypeRef
  | [] => none
  | (key, data) :: rest => if key = "ofType" then reference? data else innerReference? rest

end

@[simp] theorem text?_text (text : String) : (leaf (.str text)).text? = some text :=
  rfl

/-- An answer with a kind and a name describes the reference of that name. -/
theorem reference?_named {kind : TypeKind} (notNonNull : kind ≠ .nonNull) (notList : kind ≠ .list)
    (name : String) (others : List (String × Response)) :
    reference? (.object
      (("kind", .leaf (.str kind.symbol)) :: ("name", .leaf (.str name)) :: others)) =
      some (.named name) := by
  have kinds : kind? (.object
      (("kind", .leaf (.str kind.symbol)) :: ("name", .leaf (.str name)) :: others)) =
      some kind := TypeKind.ofSymbol?_symbol kind
  unfold reference?
  rw [kinds]
  cases kind <;> first | contradiction | rfl

/-- An answer with the kind of a wrapper describes a wrapped reference. -/
theorem reference?_wrapped {ref : TypeRef} {data : Response}
    {kind : TypeKind} (wrapper : ref.wrapper? = some kind)
    (inside : data.reference? = ref.inner?) :
    reference? (.object
      [("kind", .leaf (.str kind.symbol)), ("name", .null), ("ofType", data)]) = some ref := by
  have kinds : kind? (.object
      [("kind", .leaf (.str kind.symbol)), ("name", .null), ("ofType", data)]) = some kind :=
    TypeKind.ofSymbol?_symbol kind
  have inner : innerReference?
      [("kind", .leaf (.str kind.symbol)), ("name", .null), ("ofType", data)] =
      data.reference? := by
    simp [innerReference?]
  unfold reference?
  rw [kinds, inner, inside]
  cases ref with
  | named name nonNull =>
    cases nonNull with
    | true => cases wrapper; rfl
    | false => cases wrapper
  | list item nonNull =>
    cases nonNull with
    | true | false => cases wrapper; rfl

/-- The name and the type of an argument or input field. -/
def argument? (data : Response) : Option (String × TypeRef) := do
  return (← data.name?, ← (← data.entry? "type").reference?)

end Response

/-- What an answer says of a field. -/
structure FieldOutline where
  name : String
  args : List (String × TypeRef)
  type : TypeRef
  deriving DecidableEq

/-- The field that an answer describes. -/
def Response.field? (data : Response) : Option FieldOutline := do
  return {
    name := ← data.name?
    args := ← (← data.entry? "args").items? argument?
    type := ← (← data.entry? "type").reference? }

/-- What an answer says of a type; parts that types of its kind do not have are null. -/
structure TypeOutline where
  kind : TypeKind
  name : String
  fields : Option (List FieldOutline)
  inputFields : Option (List (String × TypeRef))
  symbols : Option (List String)
  interfaces : Option (List String)
  possibleTypes : Option (List String)
  deriving DecidableEq

/-- The type that an answer describes. -/
def Response.type? (data : Response) : Option TypeOutline := do
  return {
    kind := ← data.kind?
    name := ← data.name?
    fields := ← (← data.entry? "fields").orNull? (items? field?)
    inputFields := ← (← data.entry? "inputFields").orNull? (items? argument?)
    symbols := ← (← data.entry? "enumValues").orNull? (items? name?)
    interfaces := ← (← data.entry? "interfaces").orNull? (items? name?)
    possibleTypes := ← (← data.entry? "possibleTypes").orNull? (items? name?) }

/-! ## Definitions -/

/-- How many wrappers a reference has around its name. -/
def TypeRef.wrappers : TypeRef → Nat
  | .named _ nonNull => nonNull.toNat
  | .list item nonNull => item.wrappers + 1 + nonNull.toNat

/-- No reference of a registry has more than so many wrappers around its name. -/
def Registry.IsWrappedWithin (registry : Registry) (depth : Nat) : Prop :=
  ∀ type ∈ registry.types, ∀ reference ∈ type.references, reference.ref.wrappers ≤ depth

instance (registry : Registry) (depth : Nat) : Decidable (registry.IsWrappedWithin depth) :=
  inferInstanceAs (Decidable (∀ type ∈ registry.types, ∀ reference ∈ type.references, _ ≤ depth))

/-- The name and the type of an argument or input field. -/
def Argument.outline (arg : Argument) : String × TypeRef :=
  (arg.name, arg.type)

/-- The name, the arguments and the type of a field. -/
def Field.outline (field : Field) : FieldOutline where
  name := field.name
  args := field.args.map Argument.outline
  type := field.type

namespace TypeDefinition

/-- The fields of a type whose fields can be selected. -/
def fields? : TypeDefinition → Option (List Field)
  | object type => some type.fields
  | interface type => some type.fields
  | _ => none

/-- The interfaces that a type lists, if it may list any. -/
def interfaces? : TypeDefinition → Option (List TypeRef)
  | object type => some type.interfaces
  | interface type => some type.interfaces
  | _ => none

/-- The symbols of an enum. -/
def symbols? : TypeDefinition → Option (List EnumValue)
  | enum type => some type.values
  | _ => none

/-- The fields of an input object type. -/
def inputFields? : TypeDefinition → Option (List Argument)
  | input type => some type.fields
  | _ => none

end TypeDefinition

/-- The possible types of an abstract type. -/
def Registry.possibleTypes? (registry : Registry) (type : TypeDefinition) :
    Option (List ObjectType) :=
  if type.isAbstract then some (registry.possibleTypes type.name) else none

/-- The outline of a definition of a kind that introspection tells apart: its parts in the order in
which they are declared, with the references that are declared, and the possible types that a
registry finds. -/
def Registry.outline? (registry : Registry) (type : TypeDefinition) : Option TypeOutline :=
  type.kind?.map fun kind =>
    { kind
      name := type.name
      fields := type.fields?.map (List.map Field.outline)
      inputFields := type.inputFields?.map (List.map Argument.outline)
      symbols := type.symbols?.map (List.map EnumValue.symbol)
      interfaces := type.interfaces?.map (List.map TypeRef.name)
      possibleTypes := (registry.possibleTypes? type).map (List.map ObjectType.name) }

end GraphQL
