import GraphQL.Registry
import GraphQL.Value.Text

/-!
# Literals of the query language

The text under which introspection shows a default value: enum values by their symbols, input
objects with their fields in the order of declaration, everything else as in JSON.
-/

namespace GraphQL

/-- The literal of a value of no enum and no input object type. -/
def Value.plainLiteral : Value → String
  | .bool b => if b then "true" else "false"
  | .int n => toString n
  | .float x => Decimal.floatText x
  | value => value.json

/-- The literal of a value of an enum type: its symbol, given as such or by its internal value. -/
def EnumType.literal (type : EnumType) (value : Value) : String :=
  match value.text? with
  | some symbol =>
    if (type.valueFor? symbol).isSome then symbol
    else (type.symbolFor? value).getD value.plainLiteral
  | none => (type.symbolFor? value).getD value.plainLiteral

/-- The literal of an input object from the literals of its entries. -/
def InputType.literal (type : InputType) (entries : List (String × String)) : String :=
  let parts := type.fields.filterMap fun field =>
    (Entries.get? entries field.name).map fun text => field.name ++ ": " ++ text
  "\x7b" ++ ", ".intercalate parts ++ "\x7d"

namespace Registry

mutual

/-- The literal of a value of a type. -/
def literal (registry : Registry) : Value → TypeRef → String
  | .null, _ => "null"
  | .list items, .list item _ => "[" ++ ", ".intercalate (literals registry items item) ++ "]"
  | .tuple items, .list item _ => "[" ++ ", ".intercalate (literals registry items item) ++ "]"
  | .map entries, ref =>
    match registry.type? ref.name with
    | some (.input type) => type.literal (entryLiterals registry entries type)
    | some (.enum type) => type.literal (.map entries)
    | _ => (Value.map entries).plainLiteral
  | value, ref =>
    match registry.type? ref.name with
    | some (.enum type) => type.literal value
    | _ => value.plainLiteral

/-- The literals of the items of a list. -/
def literals (registry : Registry) : List Value → TypeRef → List String
  | [], _ => []
  | item :: rest, ref => literal registry item ref :: literals registry rest ref

/-- The literals of those entries that the fields of an input object type declare. -/
def entryLiterals (registry : Registry) : List (String × Value) → InputType → List (String × String)
  | [], _ => []
  | (key, value) :: rest, type =>
    match Member.find? type.fields key with
    | some field => (key, literal registry value field.type) :: entryLiterals registry rest type
    | none => entryLiterals registry rest type

end

end Registry

end GraphQL
