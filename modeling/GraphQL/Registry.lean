import GraphQL.Introspection.Types
import GraphQL.OperationKind
import GraphQL.Walk

/-!
# Registries

The table of every type of a schema with its root types and directives. It is built once, see
`Registry.build`, and only read afterwards.
-/

namespace GraphQL

/-- A table of types, in the order in which a walk from the roots meets them, with the names of
the root types and the directives. -/
structure Registry where
  types : List TypeDefinition
  query : String
  mutation : Option String := none
  subscription : Option String := none
  directives : List Directive := []

namespace Registry

/-- The definition of a name. -/
def type? (registry : Registry) (name : String) : Option TypeDefinition :=
  lookupType? registry.types name

/-- Whether a name is registered. -/
def contains (registry : Registry) (name : String) : Bool :=
  (registry.type? name).isSome

/-- The registered names in order. -/
def names (registry : Registry) : List String :=
  registry.types.map TypeDefinition.name

/-- The object type of a name. -/
def objectType? (registry : Registry) (name : String) : Option ObjectType :=
  match registry.type? name with
  | some (.object type) => some type
  | _ => none

/-- The name of the root type of an operation. -/
def root? (registry : Registry) : OperationKind → Option String
  | .query => some registry.query
  | .mutation => registry.mutation
  | .subscription => registry.subscription

/-- The directive of a name. -/
def directive? (registry : Registry) (name : String) : Option Directive :=
  registry.directives.find? (·.name == name)

/-- The field that a selection on a type means. Every composite type has the field for its own
name, and the query root those for the schema and its types, before any declared field. -/
def field? (registry : Registry) (parent : TypeDefinition) (name : String) : Option Field :=
  if name == Introspection.typenameField.name && parent.isComposite then
    some Introspection.typenameField
  else if parent.name == registry.query && name == Introspection.schemaField.name then
    some Introspection.schemaField
  else if parent.name == registry.query && name == Introspection.typeField.name then
    some Introspection.typeField
  else parent.field? name

/-- The input field of a type. -/
def inputField? (parent : TypeDefinition) (name : String) : Option Argument :=
  match parent with
  | .input type => Member.find? type.fields name
  | _ => none

/-- The names of the object types that a value of an abstract type may have: the members of a
union as declared, or the types that list an interface, in order of registration. -/
def possibleNames (registry : Registry) (name : String) : List String :=
  match registry.type? name with
  | some (.union type) => type.members.map TypeRef.name
  | some (.interface _) => registry.types.flatMap fun
    | .object type => (type.interfaces.filter (· == .named name)).map fun _ => type.name
    | _ => []
  | _ => []

/-- The object types that a value of an abstract type may have. -/
def possibleTypes (registry : Registry) (name : String) : List ObjectType :=
  (registry.possibleNames name).filterMap registry.objectType?

/-- Whether a value of an abstract type may have an object type. -/
def isPossible (registry : Registry) (abstractName objectName : String) : Bool :=
  (registry.possibleNames abstractName).contains objectName

/-- Whether a type lists an interface. -/
def lists (type : TypeDefinition) (interface : String) : Bool :=
  type.interfaces.contains (.named interface)

end Registry

end GraphQL
