import GraphQL.AbstractType

/-!
# Errors of an execution

A position of a response fails for one cause. The error that is recorded adds where: the path of the
position and the places of its selections in the source text.
-/

namespace GraphQL

/-- Why a position of a response fails, or a whole execution has no data. -/
inductive FailureCause where
  /-- User code raised or returned an error that is made for fields. -/
  | given (fault : Fault)
  | unknownField (field type : String)
  | coercion (failure : CoercionFailure)
  /-- A resolver, or a value that it promised, raised a fault or returned one. -/
  | resolver (fault : Fault)
  | abstractType (failure : AbstractFailure)
  /-- The hook of an object type raised a fault. -/
  | checkFailed (type : String) (fault : Fault)
  /-- The hook of an object type rejected the value. -/
  | notOfType (type : String) (value : Value)
  | notIterable (label : String) (value : Value)
  | noSymbol (type : String) (value : Value)
  | serialization (fault : Fault)
  | nullSerialized (type : String) (value : Value)
  /-- The type is of a leaf kind but neither a scalar nor an enum. -/
  | notALeaf (type : String)
  /-- The type is none that a value can be completed to. -/
  | notCompletable (type : String)
  | nullValue (label : String)
  | timedOut (seconds : Option Float)
  | stopped (reason : String)
  | noRoot (kind : OperationKind)

namespace FailureCause

/-- The text of an error. -/
def message : FailureCause → String
  | given fault => fault.message
  | unknownField field type =>
    "Cannot query field \"" ++ field ++ "\" on type \"" ++ type ++ "\"."
  | coercion failure => failure.message
  | resolver fault | serialization fault => fault.summary
  | abstractType failure => failure.message
  | checkFailed type fault => "\"" ++ type ++ ".is_type_of\" failed: " ++ fault.classified
  | notOfType type value =>
    "Expected value of type \"" ++ type ++ "\" but got: " ++ value.describe ++ "."
  | notIterable label value =>
    "Expected Iterable, but did not find one for field \"" ++ label ++ "\" (got " ++
      value.typeName ++ ")."
  | noSymbol type value =>
    "Enum \"" ++ type ++ "\" cannot represent value: " ++ value.describe
  | nullSerialized type value =>
    "Expected \x60" ++ type ++ ".serialize(" ++ value.describe ++
      ")\x60 to return non-nullish value, returned: None"
  | notALeaf type => "Type \"" ++ type ++ "\" is not a leaf type."
  | notCompletable type =>
    "Cannot complete value of unexpected output type \"" ++ type ++ "\"."
  | nullValue label => "Cannot return null for non-nullable field " ++ label ++ "."
  | timedOut seconds =>
    "Execution timed out after " ++ (seconds.map Decimal.floatText).getD "None" ++ " seconds."
  | stopped reason => "Execution cancelled: " ++ reason ++ "."
  | noRoot kind => "Schema is not configured to execute " ++ kind.keyword ++ " operation."

/-- The class of an error. -/
def kind : FailureCause → FaultKind
  | given fault => fault.kind
  | unknownField .. => .fieldNotFound
  | coercion failure => failure.kind
  | resolver _ => .resolver
  | abstractType _ => .abstractResolution
  | noSymbol .. | serialization _ | nullSerialized .. | notALeaf _ => .serialization
  | nullValue _ => .nonNullViolation
  | checkFailed .. | notOfType .. | notIterable .. | notCompletable _ | timedOut _ | stopped _
  | noRoot _ => .graphQL

/-- Why a value cannot be completed to a type that is neither a scalar, an enum, an object type nor
abstract. -/
def unexpectedType (type : TypeDefinition) : FailureCause :=
  if type.isLeaf then .notALeaf type.name else .notCompletable type.name

/-- The class of the fault behind an error. -/
def underlying? : FailureCause → Option FaultKind
  | resolver fault | serialization fault | checkFailed _ fault => some fault.kind
  | coercion failure => failure.underlying?
  | abstractType failure => failure.underlying?
  | _ => none

/-- The leaves of a coercion error: class, text and input path of each. -/
def leaves? : FailureCause → Option (List (FaultKind × String × Path))
  | given fault =>
    if fault.kind = .coercion then some [(fault.kind, fault.message, fault.inputPath)] else none
  | coercion failure =>
    some (failure.leaves.map fun leaf => (leaf.kind, leaf.message, leaf.path))
  | _ => none

/-- The fault that user code gave, if it did. -/
def given? : FailureCause → Option Fault
  | given fault => some fault
  | _ => none

end FailureCause

/-- An error that was recorded. -/
structure FieldError where
  cause : FailureCause
  path : Option Path := none
  locations : List Location := []

namespace FieldError

/-- The error that user code gave, with the place that it has. -/
def ofFault (fault : Fault) : FieldError where
  cause := .given fault
  path := fault.path
  locations := fault.locations

/-- The error of a cause at a position. An error that user code gave keeps the path and the
locations that it has. -/
def locate (cause : FailureCause) (path : Path) (locations : List Location) : FieldError :=
  match cause with
  | .given fault => ofFault (fault.locate path locations)
  | _ => { cause, path := some path, locations }

/-- The text of the path of an error, empty for an error without a path. -/
def pathText (error : FieldError) : String :=
  (error.path.map Path.text).getD ""

/-- Whether an error stands before another when errors are put in order: by the texts of their
paths, then by their messages. -/
def precedes (first second : FieldError) : Bool :=
  first.pathText < second.pathText ||
    (first.pathText == second.pathText && first.cause.message ≤ second.cause.message)

/-- What is reported about a recorded error. -/
def record (error : FieldError) : LogRecord :=
  ⟨.debug, .executor,
    "Field error at " ++ describePath? error.path ++ ": " ++ error.cause.message⟩

end FieldError

end GraphQL
