import GraphQL.Definition
import GraphQL.Value.Method

/-!
# Attributes of values

What a parent has under a name. A mapping has its entries; an object has its attributes and methods,
a member of an enumeration its name, its value and the other members, a number its parts, and a
fault what it was made with.
A method that belongs to the engine or to user code is called with the arguments of the field.
-/

namespace GraphQL

/-- A method of an object of the engine. -/
inductive EngineMethod where
  /-- Gives a field error a path and locations. -/
  | locate (fault : Fault)
  /-- Gives the line and the column of a location by name. -/
  | entries (location : Location)

/-- What a parent has under a name. -/
inductive Reading where
  | value (value : Value)
  /-- A method of user code, known by number, which still has to be called. -/
  | method (handle : Nat)
  /-- A method of the engine, which still has to be called. -/
  | engine (method : EngineMethod)

/-- The name under which a method has the function behind it. -/
def functionName : String :=
  "__func__"

/-- A reading as a value, where methods are not called. -/
def Reading.toValue : Reading → Value
  | value found => found
  | method _ | engine _ => .object 0 "method" [(functionName, .object 0 "function" [] [])] []

/-- A key of a path as a value. -/
def PathKey.toValue : PathKey → Value
  | .key name => .str name
  | .index i => .int i

/-- A path as a value. -/
def Path.toValue (path : Path) : Value :=
  .list (path.map PathKey.toValue)

namespace Location

/-- The line and the column by name. -/
def toEntries (location : Location) : Entries Value :=
  [("line", .int location.line), ("column", .int location.column)]

/-- What a location has under a name. -/
def attribute? (location : Location) (name : String) : Option Reading :=
  if name = "to_dict" then some (.engine (.entries location))
  else (Entries.get? location.toEntries name).map .value

end Location

namespace Fault

/-- What the fault was made with. -/
def arguments (fault : Fault) : List Value :=
  if fault.isMute then [] else [.str fault.message]

/-- The path of a fault, null where it has none. -/
def pathValue (fault : Fault) : Value :=
  (fault.path.map Path.toValue).getD .null

/-- The message, the path and the locations of a field error, as a response shows them. -/
def formatted (fault : Fault) : Value :=
  .map [("message", .str fault.message), ("path", fault.pathValue),
    ("locations", .list (fault.locations.map fun location => .map location.toEntries))]

/-- An attribute that only field errors have. -/
def fieldErrorAttribute? (fault : Fault) : String → Option Value
  | "message" => some (.str fault.message)
  | "path" => some fault.pathValue
  | "locations" => some (.list (fault.locations.map Value.location))
  | "original_error" => some .null
  | "formatted" => some fault.formatted
  | "input_path" =>
    if fault.kind = .coercion then some (Path.toValue fault.inputPath) else none
  | "errors" => if fault.kind = .coercion then some (.list [.fault fault]) else none
  | _ => none

/-- An attribute of a fault. -/
def attribute? (fault : Fault) (name : String) : Option Value :=
  if name = "args" then some (.tuple fault.arguments)
  else if name = "__suppress_context__" then some (.bool false)
  else if fault.kind.isFieldError then fault.fieldErrorAttribute? name
  else match fault.kind, name with
    | .typeNotFound, "name" => some (.str fault.message)
    | .schemaBuild, "problems" => some (.list [.str fault.message])
    | .missingAttribute, "name" | .missingAttribute, "obj" => some .null
    | _, _ => none

/-- What a fault has under a name. -/
def read? (fault : Fault) (name : String) : Option Reading :=
  if name = "with_location" ∧ fault.kind.isFieldError then some (.engine (.locate fault))
  else (fault.attribute? name).map .value

end Fault

namespace Value

/-- A part of an integer as a number: its real and imaginary part, its numerator and denominator. -/
def intPart? (n : Int) : String → Option Value
  | "real" | "numerator" => some (.int n)
  | "imag" => some (.int 0)
  | "denominator" => some (.int 1)
  | _ => none

/-- A part of a float as a number: its real and imaginary part. -/
def floatPart? (x : Float) : String → Option Value
  | "real" => some (.float x)
  | "imag" => some (.float 0)
  | _ => none

/-- The name under which a value has its class. -/
def className : String :=
  "__class__"

/-- The class of a value as a value. -/
def classOf (value : Value) : Value :=
  let kind := match value.bare with
    | .member .. | .keyword .. => "EnumType"
    | _ => "type"
  .object 0 kind [("__name__", .str value.typeName), ("__qualname__", .str value.typeName)] []

/-- How many members of an enumeration stand before a symbol. -/
def placeOf (enumeration : String) (symbols others : Entries Value) (symbol : String) : Nat :=
  (symbols.takeWhile (·.1 != symbol)).countP fun entry =>
    match ofSymbol? enumeration symbols others entry.1 with
    | some (.member _ first ..) => first == entry.1
    | _ => false

/-- What a member of an enumeration has under a name: its symbol, the value behind it, another
member, or something else that the enumeration has. -/
def memberPart? (symbol : String) (value : Value) (other : String → Option Value)
    (name : String) : Option Value :=
  match name with
  | "name" | "_name_" => some (.str symbol)
  | "value" | "_value_" => some value
  | _ => other name

/-- What a value other than a mapping has under a name of its own, if that is anything. -/
def ownAttribute? (parent : Value) (name : String) : Option Reading :=
  match parent.bare with
  | .object _ _ attributes methods =>
    match Entries.get? attributes name with
    | some value => some (.value value)
    | none => (Entries.get? methods name).map .method
  | .member enumeration symbol value symbols others =>
    let other (name : String) : Option Value :=
      match name with
      | "_sort_order_" => some (.int (placeOf enumeration symbols others symbol))
      | "__objclass__" => some parent.classOf
      | _ => ofSymbol? enumeration symbols others name <|> Entries.get? others name
    (memberPart? symbol value other name).map .value
  | .keyword family text =>
    (memberPart? text (.str text)
      (fun name => (keywordsOf family).find? (·.text? == some name)) name).map .value
  | .var variableName => if name = "name" then some (.value (.str variableName)) else none
  | .int n => (intPart? n name).map .value
  | .bool b => (intPart? (if b then 1 else 0) name).map .value
  | .float x => (floatPart? x name).map .value
  | .fault raised => raised.read? name
  | .location place => place.attribute? name
  | _ => none

/-- What a value other than a mapping has under a name, if that is anything. -/
def attribute? (parent : Value) (name : String) : Option Reading :=
  parent.ownAttribute? name <|> (parent.method? name).map .value <|>
    if name = className then some (.value parent.classOf) else none

/-- The class that is said to lack an attribute that a value does not have. A method passes the
question on to its function. -/
def attributeClass (value : Value) : String :=
  match value.bare with
  | .object _ className attributes _ =>
    ((Entries.get? attributes functionName).map typeName).getD className
  | other => other.typeName

/-- What a value gives one by one, however often it is asked. -/
def elements? (value : Value) : Option (List Value) :=
  match value.bare with
  | .list items | .tuple items => some items
  | .str text | .keyword _ text => some (text.toList.map fun c => .str c.toString)
  | .bytes data => some (data.map fun byte => .int byte.toNat)
  | .map entries => some ((Entries.keys entries).map Value.str)
  | _ => none

/-- The fault of asking a value for its elements that has none. -/
def notIterable (value : Value) : Fault where
  kind := .type
  message := Text.quoted value.typeName ++ " object is not iterable"

/-- What a parent has under a key, or else under a name. An attribute that is not supplied is passed
over. -/
def read (parent : Value) (key name : String) : Reading :=
  match parent.bare with
  | .map entries =>
    .value ((Entries.get? entries key <|> Entries.get? entries name).getD .null)
  | value =>
    match value.attribute? key with
    | none | some (.value .undefined) => (value.attribute? name).getD (.value .null)
    | some found => found

end Value

namespace EngineMethod

/-- The method as an error names it. -/
def title : EngineMethod → String
  | locate _ => "GraphQLError.with_location()"
  | entries _ => "Location.to_dict()"

/-- The arguments that a method takes. -/
def parameters : EngineMethod → List String
  | locate _ => ["path", "locations"]
  | entries _ => []

/-- What is wrong with the arguments of a call, if anything is: one that the method does not take,
or those that it lacks. -/
def misfit? (method : EngineMethod) (args : Entries Value) : Option String :=
  match (Entries.keys args).find? fun key => !method.parameters.contains key with
  | some "self" => some "got multiple values for argument 'self'"
  | some key => some ("got an unexpected keyword argument '" ++ key ++ "'")
  | none =>
    match method.parameters.filter fun key => !Entries.contains args key with
    | [] => none
    | [key] => some ("missing 1 required positional argument: '" ++ key ++ "'")
    | keys =>
      some ("missing " ++ toString keys.length ++ " required positional arguments: " ++
        " and ".intercalate (keys.map fun key => "'" ++ key ++ "'"))

/-- A field error after it got a path and locations, of which null is the empty path and a sequence
without locations none. The fault is that of a call that fails half way. -/
def relocate (fault : Fault) (args : Entries Value) : Fault × Option Fault :=
  let path := (Entries.get? args "path").getD .null
  if fault.path.isNone && !path.isNull then
    (fault, some
      { kind := .missingAttribute, message := missingAttributeText path.typeName "as_list" })
  else
    let fault := { fault with path := some (fault.path.getD []) }
    let locations := (Entries.get? args "locations").getD .null
    if fault.locations.isEmpty && locations.elements?.isNone then
      (fault, some locations.notIterable)
    else (fault, none)

/-- The result of a method, and the field error as the call leaves it. -/
def call (method : EngineMethod) (args : Entries Value) : Except Fault Value × Option Fault :=
  match method.misfit? args, method with
  | some text, _ => (.error { kind := .type, message := method.title ++ " " ++ text }, none)
  | none, entries location => (.ok (.map location.toEntries), none)
  | none, locate fault =>
    match relocate fault args with
    | (located, some failure) => (.error failure, some located)
    | (located, none) => (.ok (.fault located), some located)

end EngineMethod

end GraphQL
