import GraphQL.Path

/-!
# Faults

A fault is an error object of user code: something a resolver, a hook or a scalar conversion may
raise, or return in place of a value.
-/

namespace GraphQL

/-- The classes of faults. -/
inductive FaultKind where
  | value
  | key
  | type
  | runtime
  | lookup
  | missingAttribute
  | assertion
  | index
  | general
  | recursion
  | cancelled
  | typeGraph
  | typeNotFound
  | schemaBuild
  | graphQL
  | coercion
  | missingVariable
  | resolver
  | abstractResolution
  | fieldNotFound
  | serialization
  | nonNullViolation
  deriving DecidableEq

namespace FaultKind

/-- The class name that messages and answers carry. -/
def name : FaultKind → String
  | value => "ValueError"
  | key => "KeyError"
  | type => "TypeError"
  | runtime => "RuntimeError"
  | lookup => "LookupError"
  | missingAttribute => "AttributeError"
  | assertion => "AssertionError"
  | index => "IndexError"
  | general => "Exception"
  | recursion => "RecursionError"
  | cancelled => "CancelledError"
  | typeGraph => "TypeGraphError"
  | typeNotFound => "TypeNotFoundError"
  | schemaBuild => "SchemaBuildError"
  | graphQL => "GraphQLError"
  | coercion => "CoercionError"
  | missingVariable => "MissingVariableError"
  | resolver => "ResolverError"
  | abstractResolution => "AbstractResolutionError"
  | fieldNotFound => "FieldNotFoundError"
  | serialization => "SerializationError"
  | nonNullViolation => "NonNullViolationError"

/-- The classes of which user code makes error objects. -/
def raisable : List FaultKind :=
  [value, key, type, runtime, lookup, missingAttribute, general, cancelled, typeGraph,
    typeNotFound, schemaBuild, graphQL, coercion, resolver, abstractResolution, fieldNotFound,
    serialization, nonNullViolation]

/-- The class of a name, if user code makes error objects of it. -/
def ofName? (name : String) : Option FaultKind :=
  raisable.find? (·.name == name)

/-- Whether a fault of this class is recorded for a field as it is, instead of being wrapped. -/
def isFieldError : FaultKind → Bool
  | graphQL | coercion | missingVariable | resolver | abstractResolution | fieldNotFound
  | serialization | nonNullViolation => true
  | _ => false

/-- Whether a fault of this class abandons its root field instead of failing at a position. -/
def isCancellation : FaultKind → Bool
  | cancelled => true
  | _ => false

/-- The classes that specialise a value error. -/
def isValueError : FaultKind → Bool
  | value | schemaBuild => true
  | _ => false

/-- The classes that specialise a key error. -/
def isKeyError : FaultKind → Bool
  | key | typeNotFound => true
  | _ => false

/-- The classes that belong to the type graph. -/
def isTypeGraphError : FaultKind → Bool
  | typeGraph | typeNotFound | schemaBuild => true
  | kind => kind.isFieldError

end FaultKind

/-- An error object. One that is stored and used again has an `identity`; one that is made where it
is raised has none. Only field errors carry a path and locations. One that was made without a
message is mute, which is not the same as an empty message. -/
structure Fault where
  kind : FaultKind
  message : String
  isMute : Bool := false
  path : Option Path := none
  locations : List Location := []
  inputPath : Path := []
  identity : Option Nat := none
  deriving DecidableEq

/-- What is said of an attribute that an object of a class does not have. -/
def missingAttributeText (className attributeName : String) : String :=
  Text.quoted className ++ " object has no attribute " ++ Text.quoted attributeName

/-- What is said of a call that lacks one argument. -/
def missingArgumentText (function argument : String) : String :=
  function ++ " missing 1 required positional argument: " ++ Text.quoted argument

namespace Fault

/-- What keeps an error object of a class from being made without a message: two classes cannot do
without it. -/
def refusal? (kind : FaultKind) (message : String) : Option Fault :=
  let lacking (argument : String) : Option Fault :=
    if message = "" then
      some { kind := .type, message := missingArgumentText (kind.name ++ ".__init__()") argument }
    else none
  match kind with
  | .schemaBuild => lacking "message"
  | .typeNotFound => lacking "name"
  | _ => none

/-- An error object of a class, or the fault of making it. Coercion errors keep an input path, other
field errors a path and locations; the rest keep nothing but their message, if they get one. -/
def make (className message : String) (path : Option Path) (locations : List Location)
    (inputPath : Path) : Except Fault Fault :=
  match FaultKind.ofName? className with
  | none => .error { kind := .key, message := className }
  | some kind =>
    match refusal? kind message with
    | some refusal => .error refusal
    | none =>
      if kind = .coercion then .ok { kind, message, inputPath }
      else if kind.isFieldError then .ok { kind, message, path, locations }
      else .ok { kind, message, isMute := message = "" }

/-- The text of a fault. -/
def text (fault : Fault) : String :=
  match fault.kind with
  | .key => if fault.isMute then "" else Text.quoted fault.message
  | .typeNotFound => "Unknown type: " ++ fault.message
  | _ => fault.message

/-- The text of a fault, or its class when there is none. -/
def summary (fault : Fault) : String :=
  if fault.text = "" then fault.kind.name else fault.text

/-- The class and the text of a fault. -/
def classified (fault : Fault) : String :=
  fault.kind.name ++ ": " ++ fault.text

/-- A fault as a message shows it. -/
def describe (fault : Fault) : String :=
  if fault.kind.isFieldError then
    fault.kind.name ++ "(" ++ Text.quoted fault.message ++ ", path=" ++
      describePath? fault.path ++ ")"
  else if fault.isMute then fault.kind.name ++ "()"
  else fault.kind.name ++ "(" ++ Text.quoted fault.message ++ ")"

/-- The fault with a path and locations, unless it has them already. -/
def locate (fault : Fault) (path : Option Path) (locations : List Location) : Fault :=
  { fault with
    path := some (fault.path.getD (path.getD []))
    locations := if fault.locations.isEmpty then locations else fault.locations }

end Fault

end GraphQL
