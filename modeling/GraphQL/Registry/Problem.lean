import GraphQL.OperationKind
import GraphQL.Reference
import GraphQL.Value.Text

/-!
# Problems of a schema

Everything that keeps definitions from forming a registry.
-/

namespace GraphQL

/-- A field of a type, as problems name it. -/
structure FieldPlace where
  type : String
  field : String
  deriving DecidableEq

/-- The type and the field, joined with a point. -/
def FieldPlace.text (place : FieldPlace) : String :=
  place.type ++ "." ++ place.field

/-- The place of an argument. -/
def FieldPlace.argument (place : FieldPlace) (name : String) : String :=
  place.text ++ "(" ++ name ++ ")"

/-- One problem of a schema. -/
inductive Problem where
  | notADefinition (value : Value)
  | conflictingNames (name : String)
  | noQueryRoot
  | repeatedDirective (name : String)
  | undefinedRoot (name : String)
  | undefinedReference (source : String) (place : ReferencePlace) (target : String)
  | undefinedDirectiveType (directive argument target : String)
  | rootNotObject (operation : OperationKind) (name : String)
  | noFields (type : String)
  | notOutputType (place : FieldPlace) (ref : TypeRef)
  | argumentNotInputType (place : FieldPlace) (argument : String) (ref : TypeRef)
  | emptyUnion (name : String)
  | memberNotObject (union member : String)
  | inputFieldNotInputType (place : FieldPlace) (ref : TypeRef)
  | emptyEnum (name : String)
  | unsupported (name : String)
  | directiveArgumentNotInputType (directive argument : String)
  | notAnInterface (type interface : String)
  | implementsItself (type : String)
  | missingInterface (type : String) (transitive : TypeRef) (interface : String)
  | missingField (expected : FieldPlace) (type : String)
  | fieldTypeMismatch (expected : FieldPlace) (expectedType : TypeRef) (found : FieldPlace)
      (foundType : TypeRef)
  | missingArgument (expected : FieldPlace) (argument : String) (found : FieldPlace)
  | argumentTypeMismatch (expected : FieldPlace) (argument : String) (expectedType : TypeRef)
      (found : FieldPlace) (foundType : TypeRef)
  | extraRequiredArgument (found : FieldPlace) (argument : String) (expected : FieldPlace)

/-- A text between double quotes. -/
def inQuotes (text : String) : String :=
  "\"" ++ text ++ "\""

namespace Problem

/-- The text of a problem. -/
def message : Problem → String
  | notADefinition value => "Expected a named type definition, got " ++ value.describe
  | conflictingNames name =>
    "Type name " ++ inQuotes name ++ " is bound to two different definitions"
  | noQueryRoot => "Query root type must be provided"
  | repeatedDirective name => "Directive " ++ inQuotes ("@" ++ name) ++ " is defined more than once"
  | undefinedRoot name => "Root type " ++ inQuotes name ++ " is not defined"
  | undefinedReference source place target =>
    "Type " ++ inQuotes source ++ " references unknown type " ++ inQuotes target ++ " (" ++
      place.text ++ ")"
  | undefinedDirectiveType directive argument target =>
    "Directive " ++ inQuotes ("@" ++ directive) ++ " argument " ++ inQuotes argument ++
      " references unknown type " ++ inQuotes target
  | rootNotObject operation name =>
    operation.title ++ " root type " ++ inQuotes name ++ " must be an Object type"
  | noFields type => "Type " ++ inQuotes type ++ " must define one or more fields"
  | notOutputType place ref =>
    "Field " ++ inQuotes place.text ++ " must have an output type, got " ++ inQuotes ref.text
  | argumentNotInputType place argument ref =>
    "Argument " ++ inQuotes (place.argument argument) ++ " must have an input type, got " ++
      inQuotes ref.text
  | emptyUnion name => "Union " ++ inQuotes name ++ " must include one or more member types"
  | memberNotObject union member =>
    "Union " ++ inQuotes union ++ " member " ++ inQuotes member ++ " must be an Object type"
  | inputFieldNotInputType place ref =>
    "Input field " ++ inQuotes place.text ++ " must have an input type, got " ++ inQuotes ref.text
  | emptyEnum name => "Enum " ++ inQuotes name ++ " must define one or more values"
  | unsupported name => "Unsupported type definition " ++ inQuotes name
  | directiveArgumentNotInputType directive argument =>
    "Directive argument " ++ inQuotes ("@" ++ directive ++ "(" ++ argument ++ ")") ++
      " must have an input type"
  | notAnInterface type interface =>
    "Type " ++ inQuotes type ++ " can only implement Interface types, got " ++ inQuotes interface
  | implementsItself type => "Type " ++ inQuotes type ++ " cannot implement itself"
  | missingInterface type transitive interface =>
    "Type " ++ inQuotes type ++ " must implement " ++ inQuotes transitive.text ++
      " because it is implemented by " ++ inQuotes interface
  | missingField expected type =>
    "Interface field " ++ inQuotes expected.text ++ " expected but " ++ inQuotes type ++
      " does not provide it"
  | fieldTypeMismatch expected expectedType found foundType =>
    "Interface field " ++ inQuotes expected.text ++ " expects type " ++
      inQuotes expectedType.text ++ " but " ++ inQuotes found.text ++ " is type " ++
      inQuotes foundType.text
  | missingArgument expected argument found =>
    "Interface field argument " ++ inQuotes (expected.argument argument) ++ " expected but " ++
      inQuotes found.text ++ " does not provide it"
  | argumentTypeMismatch expected argument expectedType found foundType =>
    "Interface field argument " ++ inQuotes (expected.argument argument) ++ " expects type " ++
      inQuotes expectedType.text ++ " but " ++ inQuotes (found.argument argument) ++
      " is type " ++ inQuotes foundType.text
  | extraRequiredArgument found argument expected =>
    "Argument " ++ inQuotes (found.argument argument) ++
      " must not be required because it is not declared by interface field " ++
      inQuotes expected.text

end Problem

end GraphQL
