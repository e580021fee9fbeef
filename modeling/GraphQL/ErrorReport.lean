import GraphQL.Execution.Executor
import GraphQL.Registry.Build

/-!
# Error reports

What leaves an operation in place of a result, whatever went wrong: a class and a text, with the
details that errors of the class have.
-/

namespace GraphQL

/-- An error with the details of its class: the problems of a schema, the class of the fault behind
a field error, and the place and the leaves of a failed coercion. -/
structure ErrorReport where
  kind : FaultKind
  message : String
  problems : List String := []
  underlying : Option FaultKind := none
  inputPath : Path := []
  leaves : List (FaultKind × String × Path) := []

namespace ErrorReport

/-- Whether the report has problems. -/
def hasProblems (report : ErrorReport) : Bool :=
  report.kind = .schemaBuild

/-- Whether the report has a fault behind it. -/
def hasUnderlying (report : ErrorReport) : Bool :=
  report.kind.isFieldError

/-- Whether the report has a place and leaves. -/
def hasLeaves (report : ErrorReport) : Bool :=
  report.kind = .coercion ∨ report.kind = .missingVariable

end ErrorReport

/-- The report of a refused declaration. -/
def DeclarationError.report (error : DeclarationError) : ErrorReport where
  kind := error.kind
  message := error.message
  problems := [error.message]

/-- The report of a schema that gives no registry. -/
def BuildError.report (error : BuildError) : ErrorReport where
  kind := error.kind
  message := error.message
  problems := error.problems.map Problem.message

/-- The report of a fault that nothing took. -/
def Fault.report (fault : Fault) : ErrorReport where
  kind := fault.kind
  message := fault.text
  problems := [fault.message]
  inputPath := fault.inputPath
  leaves := [(fault.kind, fault.message, fault.inputPath)]

/-- The report of a name that no type has. -/
def ErrorReport.unknownType (name : String) : ErrorReport :=
  Fault.report { kind := .typeNotFound, message := name }

/-- The report of an attribute that an object of a class does not have. -/
def ErrorReport.noAttribute (className attributeName : String) : ErrorReport where
  kind := .missingAttribute
  message := missingAttributeText className attributeName

/-- The fault with a path and locations, which only field errors take. -/
def Fault.relocate (fault : Fault) (path : Option Path) (locations : List Location) :
    Except ErrorReport Fault :=
  if fault.kind.isFieldError then .ok (fault.locate path locations)
  else .error (.noAttribute fault.kind.name "with_location")

/-- The report of a definition that is asked for its kind and has none. -/
def ErrorReport.withoutKind : ErrorReport :=
  BuildError.report (.obstructed .withoutKind)

/-- The report of a keyword that no kind of operation has. -/
def ErrorReport.unknownOperation (keyword : String) : ErrorReport where
  kind := .value
  message := Text.quoted keyword ++ " is not a valid OperationType"

/-- The kind of operation of a keyword, or the report that there is none. -/
def OperationKind.read (keyword : String) : Except ErrorReport OperationKind :=
  match ofKeyword? keyword with
  | some kind => .ok kind
  | none => .error (.unknownOperation keyword)

/-- The report of what is nested too deeply. -/
def ErrorReport.tooDeep : ErrorReport where
  kind := .recursion
  message := "maximum recursion depth exceeded in comparison"

/-- The report of a coercion that gives no value. -/
def CoercionStop.report : CoercionStop → ErrorReport
  | failed failure =>
    { kind := failure.kind
      message := failure.message
      underlying := failure.underlying?
      inputPath := failure.inputPath
      leaves := failure.leaves.map fun leaf => (leaf.kind, leaf.message, leaf.path) }
  | unknownType name => .unknownType name
  | interrupted fault => fault.report
  | tooDeep => .tooDeep

/-- The report of a value of an abstract type that has no object type. -/
def AbstractFailure.report (failure : AbstractFailure) : ErrorReport :=
  match failure.cause with
  | .passedOn fault | .interrupted fault => fault.report
  | _ =>
    { kind := .abstractResolution, message := failure.message, underlying := failure.underlying? }

/-- The report of an execution without a result. -/
def Halt.report : Halt → ErrorReport
  | cancelled => { kind := .cancelled, message := "" }
  | hung => { kind := .runtime, message := "the execution never ends" }
  | escaped _ fault => fault.report
  | tooDeep => .tooDeep

end GraphQL
