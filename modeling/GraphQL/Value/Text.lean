import GraphQL.Decimal.Shortest
import GraphQL.Text.Json
import GraphQL.Value

/-!
# Texts of values

`describe` is how a message shows a value, `display` the text that stands for it where a text is
wanted, and `json` its JSON form, in which whatever JSON lacks appears as its `display`.
-/

namespace GraphQL.Value

/-- A Boolean as a message shows it. -/
def describeBool (b : Bool) : String :=
  if b then "True" else "False"

mutual

/-- The value as a message shows it. -/
def describe : Value → String
  | null => "None"
  | undefined => "Undefined"
  | bool b => describeBool b
  | int n => toString n
  | float x => Decimal.floatText x
  | str text => Text.quoted text
  | bytes data => Text.quotedBytes data
  | list items => "[" ++ ", ".intercalate (describeItems items) ++ "]"
  | tuple [item] => "(" ++ describe item ++ ",)"
  | tuple items => "(" ++ ", ".intercalate (describeItems items) ++ ")"
  | map entries => "\x7b" ++ ", ".intercalate (describeEntries entries) ++ "\x7d"
  | var name => "VariableNode(name=" ++ Text.quoted name ++ ")"
  | member enumeration symbol value .. =>
    "<" ++ enumeration ++ "." ++ symbol ++ ": " ++ describe value ++ ">"
  | keyword family text => "<" ++ family ++ "." ++ text ++ ": " ++ Text.quoted text ++ ">"
  | fault f => f.describe
  | stream .. => "<Iter>"
  | pending _ | failing _ => "<awaitable>"
  | promise _ => "<coroutine>"
  | location place =>
    "Location(line=" ++ toString place.line ++ ", column=" ++ toString place.column ++ ")"
  | object _ className _ _ => "<" ++ className ++ ">"
  | typeRef ref => ref.describe
  | definition name => name
  | schema => "<TypeRegistry>"
  | chosen _ _ value => describe value

/-- Each item as a message shows it. -/
def describeItems : List Value → List String
  | [] => []
  | item :: rest => describe item :: describeItems rest

/-- Each entry of a mapping as a message shows it. -/
def describeEntries : List (String × Value) → List String
  | [] => []
  | (key, value) :: rest => (Text.quoted key ++ ": " ++ describe value) :: describeEntries rest

end

/-- The text that stands for a value. -/
def display : Value → String
  | str text => text
  | fault f => f.text
  | member enumeration symbol .. => enumeration ++ "." ++ symbol
  | keyword family text => family ++ "." ++ text
  | chosen _ _ value => display value
  | value => describe value

/-- A float inside JSON text. -/
def jsonFloat (x : Float) : String :=
  match Decimal.Binary.ofFloat x with
  | .nan => "NaN"
  | .infinite negative => if negative then "-Infinity" else "Infinity"
  | .finite .. => Decimal.floatText x

mutual

/-- The value in JSON. -/
def json : Value → String
  | null => "null"
  | bool b => if b then "true" else "false"
  | int n => toString n
  | float x => jsonFloat x
  | list items => "[" ++ ", ".intercalate (jsonItems items) ++ "]"
  | tuple items => "[" ++ ", ".intercalate (jsonItems items) ++ "]"
  | map entries => "\x7b" ++ ", ".intercalate (jsonEntries entries) ++ "\x7d"
  | keyword _ text => Text.jsonString text
  | chosen _ _ value => json value
  | value => Text.jsonString (display value)

/-- Each item in JSON. -/
def jsonItems : List Value → List String
  | [] => []
  | item :: rest => json item :: jsonItems rest

/-- Each entry of a mapping in JSON. -/
def jsonEntries : List (String × Value) → List String
  | [] => []
  | (key, value) :: rest => (Text.jsonString key ++ ": " ++ json value) :: jsonEntries rest

end

end GraphQL.Value
