import GraphQL.Behaviour

/-!
# The object type of a value of an abstract type

A value of an interface or a union belongs to one of the possible object types. The hook of the
abstract type decides if there is one, unless the hook of the type it names disagrees. Otherwise the
possible types are asked in order; and if none of them has a hook, the value may name its type
itself.
-/

namespace GraphQL

/-- Why no object type was found for a value of an abstract type. -/
inductive AbstractCause where
  /-- A hook raised a fault. -/
  | hookRaised (hook : String) (fault : Fault)
  /-- A hook raised a fault that is passed on as it is. -/
  | passedOn (fault : Fault)
  /-- A hook abandoned the root field. -/
  | interrupted (fault : Fault)
  | rejected (object : String)
  | notAName (answer : Value)
  | unknownType (name : String)
  | notAnObject (name : String)
  | notPossible (object : String)
  /-- No possible type has a hook, and the value does not name its type. -/
  | undecided (candidates : List String) (value : Value)
  /-- The hook of every possible type that has one rejects the value. -/
  | noneAccepts (candidates : List String) (value : Value)

/-- A value of the abstract type `type` for which no object type was found. -/
structure AbstractFailure where
  type : String
  cause : AbstractCause

namespace AbstractFailure

/-- The text of a failure. -/
def message (failure : AbstractFailure) : String :=
  let type := "\"" ++ failure.type ++ "\""
  match failure.cause with
  | .hookRaised hook fault =>
    "Abstract type " ++ type ++ " could not be resolved: " ++ hook ++ " raised " ++
      fault.classified
  | .passedOn fault | .interrupted fault => fault.text
  | .rejected object =>
    "Abstract type " ++ type ++ " resolved to \"" ++ object ++ "\", but \"" ++ object ++
      ".is_type_of\" rejects the value."
  | .notAName answer =>
    "Abstract type " ++ type ++ " must resolve to an Object type name, got " ++
      answer.describe ++ "."
  | .unknownType name =>
    "Abstract type " ++ type ++ " was resolved to a type \"" ++ name ++ "\" that does not exist."
  | .notAnObject name =>
    "Abstract type " ++ type ++ " was resolved to a non-object type \"" ++ name ++ "\"."
  | .notPossible object =>
    "Runtime Object type \"" ++ object ++ "\" is not a possible type for " ++ type ++ "."
  | .undecided .. =>
    "Abstract type " ++ type ++ " must resolve to an Object type at runtime. Either the " ++
      type ++ " type should provide a resolve_type function or each possible type should " ++
      "provide an is_type_of function."
  | .noneAccepts _ value =>
    "Abstract type " ++ type ++ " could not resolve a concrete type for value " ++
      value.describe ++ "."

/-- The class of the fault behind a failure. -/
def underlying? (failure : AbstractFailure) : Option FaultKind :=
  match failure.cause with
  | .hookRaised _ fault => some fault.kind
  | _ => none

/-- What is reported about a failure. -/
def records (failure : AbstractFailure) : List LogRecord :=
  match failure.cause with
  | .hookRaised hook fault =>
    [⟨.debug, .abstractTypes,
      hook ++ " failed while resolving " ++ failure.type ++ ": " ++ fault.classified⟩]
  | .undecided candidates value | .noneAccepts candidates value =>
    [⟨.debug, .abstractTypes,
      "No concrete type for " ++ failure.type ++ " among [" ++
        ", ".intercalate (candidates.map Text.quoted) ++ "] (value=" ++ value.describe ++ ")"⟩]
  | _ => []

end AbstractFailure

namespace AbstractType

variable (registry : Registry) (answer : Handle → Value → Except Fault Value)

/-- What a hook answers, where a fault is the failure of the abstract type. -/
def ask (label : String) (hook : Handle) (value : Value) : Except AbstractCause Value :=
  match answer hook value with
  | .ok result => .ok result
  | .error fault =>
    if fault.kind.isCancellation then .error (.interrupted fault)
    else if fault.kind = .abstractResolution then .error (.passedOn fault)
    else .error (.hookRaised label fault)

/-- Whether the hook of an object type accepts a value; a type without a hook accepts all. -/
def accepts (object : ObjectType) (value : Value) : Except AbstractCause Bool :=
  match object.isTypeOf with
  | none => .ok true
  | some hook => (ask answer (object.name ++ ".is_type_of") hook value).map Value.truthy

/-- The name that an answer gives. -/
def answeredName? : Value → Option String
  | .str name | .keyword _ name | .definition name => some name
  | _ => none

/-- The object type that an answer names, if it is possible for the abstract type. -/
def named (abstractName : String) (result : Value) : Except AbstractCause ObjectType :=
  match answeredName? result.bare with
  | none => .error (.notAName result)
  | some name =>
    match registry.type? name with
    | none => .error (.unknownType result.display)
    | some (.object object) =>
      if registry.isPossible abstractName object.name then .ok object
      else .error (.notPossible object.name)
    | some _ => .error (.notAnObject result.display)

/-- The object type that the hook of the abstract type names. -/
def byOwnHook (abstractName : String) (hook : Handle) (value : Value) :
    Except AbstractCause ObjectType := do
  let result ← ask answer (abstractName ++ ".resolve_type") hook value
  let object ← named registry abstractName result
  let accepted ← accepts answer object value
  if accepted then .ok object else .error (.rejected object.name)

/-- The first of some object types with a hook whose hook accepts the value. -/
def firstAccepting? (value : Value) : List ObjectType → Except AbstractCause (Option ObjectType)
  | [] => .ok none
  | object :: rest =>
    match object.isTypeOf with
    | none => firstAccepting? value rest
    | some _ => do
      let accepted ← accepts answer object value
      if accepted then .ok (some object) else firstAccepting? value rest

/-- The object type that the possible types or the value itself decide on. -/
def byCandidates (abstractName : String) (value : Value) : Except AbstractCause ObjectType := do
  let candidates := registry.possibleTypes abstractName
  match ← firstAccepting? answer value candidates with
  | some object => .ok object
  | none =>
    if candidates.any (·.isTypeOf.isSome) then
      .error (.noneAccepts (candidates.map ObjectType.name) value)
    else
      match value.entry? "__typename" with
      | some result => named registry abstractName result
      | none => .error (.undecided (candidates.map ObjectType.name) value)

/-- The hook of an abstract type. -/
def hook? : TypeDefinition → Option Handle
  | .interface type => type.resolveType
  | .union type => type.resolveType
  | _ => none

/-- The object type of a value of an abstract type. -/
def resolve (type : TypeDefinition) (value : Value) : Except AbstractFailure ObjectType :=
  let result := match hook? type with
    | some hook => byOwnHook registry answer type.name hook value
    | none => byCandidates registry answer type.name value
  result.mapError (⟨type.name, ·⟩)

end AbstractType

end GraphQL
