import GraphQL.Definition.Declaration

/-!
# Introspection types

The types that describe a schema in its own terms. They are registered in every schema and executed
like any other; their fields read the registry through resolvers of their own. The parent of a
`__Type` is a type name or a wrapped reference, the parent of `__Schema` the registry itself.
-/

namespace GraphQL.Introspection

/-- A field of an introspection type, declared under an identifier. -/
def declareField (identifier : String) (type : TypeRef) (resolver : Resolver)
    (description : Option String := none) (args : List Argument := []) (name : String := "") :
    Field :=
  Member.publish identifier { type, resolver, description, args, name }

/-- The argument that asks for deprecated members too. -/
def includeDeprecated : Argument :=
  Member.publish "include_deprecated" ({ type := .named "Boolean", default := .bool false } :
    Argument)

/-- A non-null list of non-null items of a type. -/
def listOf (name : String) : TypeRef :=
  .list (.named name true) true

/-- The enum of the kinds of types. -/
def typeKind : EnumType where
  name := "__TypeKind"
  values := TypeKind.all.map fun kind => { symbol := kind.symbol, value := kind.toValue }
  description := some "An enum describing what kind of type a given `__Type` is."

/-- The enum of the locations of directives. -/
def directiveLocation : EnumType where
  name := "__DirectiveLocation"
  values := DirectiveLocation.all.map fun location =>
    { symbol := location.symbol, value := location.toValue }
  description := some "A Directive can be adjacent to many parts of the GraphQL language."

/-- The type of a schema. -/
def schema : ObjectType where
  name := "__Schema"
  description := some "A GraphQL Schema defines the capabilities of a GraphQL server."
  fields := [
    declareField "description" (.named "String") (.introspect .nothing),
    declareField "types" (listOf "__Type") (.introspect .types)
      (some "A list of all types supported by this server."),
    declareField "query_type" (.named "__Type" true) (.introspect .queryType)
      (some "The type that query operations will be rooted at."),
    declareField "mutation_type" (.named "__Type") (.introspect .mutationType)
      (some ("If this server supports mutation, the type that mutation operations will be " ++
        "rooted at.")),
    declareField "subscription_type" (.named "__Type") (.introspect .subscriptionType)
      (some ("If this server supports subscription, the type that subscription operations will " ++
        "be rooted at.")),
    declareField "directives" (listOf "__Directive") (.introspect .directives)
      (some "A list of all directives supported by this server.")]

/-- The type of a type. -/
def type : ObjectType where
  name := "__Type"
  description := some "The fundamental unit of any GraphQL Schema is the type."
  fields := [
    declareField "kind" (.named "__TypeKind" true) (.introspect .kind),
    declareField "name" (.named "String") (.introspect .name),
    declareField "description" (.named "String") (.introspect .description),
    declareField "specified_by_url" (.named "String") (.introspect .specifiedBy) none []
      "specifiedByURL",
    declareField "fields" (.list (.named "__Field" true)) (.introspect .fields) none
      [includeDeprecated],
    declareField "interfaces" (.list (.named "__Type" true)) (.introspect .interfaces),
    declareField "possible_types" (.list (.named "__Type" true)) (.introspect .possibleTypes),
    declareField "enum_values" (.list (.named "__EnumValue" true)) (.introspect .enumValues) none
      [includeDeprecated],
    declareField "input_fields" (.list (.named "__InputValue" true)) (.introspect .inputFields)
      none [includeDeprecated],
    declareField "of_type" (.named "__Type") (.introspect .ofType)]

/-- The type of a field. -/
def field : ObjectType where
  name := "__Field"
  description := some ("Object and Interface types are described by a list of Fields, each of " ++
    "which has a name, potentially a list of arguments, and a return type.")
  fields := [
    declareField "name" (.named "String" true) .default,
    declareField "description" (.named "String") .default,
    declareField "args" (listOf "__InputValue") (.introspect .arguments) none
      [includeDeprecated],
    declareField "type" (.named "__Type" true) .default,
    declareField "is_deprecated" (.named "Boolean" true) .default,
    declareField "deprecation_reason" (.named "String") .default]

/-- The type of an argument or input field. -/
def inputValue : ObjectType where
  name := "__InputValue"
  description := some ("Arguments provided to Fields or Directives and the input fields of an " ++
    "InputObject are represented as Input Values which describe their type and optionally a " ++
    "default value.")
  fields := [
    declareField "name" (.named "String" true) .default,
    declareField "description" (.named "String") .default,
    declareField "type" (.named "__Type" true) .default,
    declareField "default_value" (.named "String") (.introspect .defaultLiteral)
      (some "A GraphQL-formatted string representing the default value for this input value."),
    declareField "is_deprecated" (.named "Boolean" true) (.introspect .never),
    declareField "deprecation_reason" (.named "String") (.introspect .nothing)]

/-- The type of an enum symbol. -/
def enumValue : ObjectType where
  name := "__EnumValue"
  description := some "One possible value for a given Enum."
  fields := [
    declareField "name" (.named "String" true) .default,
    declareField "description" (.named "String") .default,
    declareField "is_deprecated" (.named "Boolean" true) .default,
    declareField "deprecation_reason" (.named "String") .default]

/-- The type of a directive. -/
def directive : ObjectType where
  name := "__Directive"
  description := some ("A Directive provides a way to describe alternate runtime execution and " ++
    "type validation behavior in a GraphQL document.")
  fields := [
    declareField "name" (.named "String" true) .default,
    declareField "description" (.named "String") .default,
    declareField "is_repeatable" (.named "Boolean" true) .default,
    declareField "locations" (listOf "__DirectiveLocation") .default,
    declareField "args" (listOf "__InputValue") (.introspect .arguments) none
      [includeDeprecated]]

/-- The introspection types in the order in which a registry gets them. -/
def types : List TypeDefinition :=
  [.object schema, .object type, .enum typeKind, .object field, .object inputValue,
    .object enumValue, .object directive, .enum directiveLocation]

/-- The field of the query root that gives the schema. -/
def schemaField : Field where
  type := .named "__Schema" true
  resolver := .introspect .registry
  description := some "Access the current type schema of this server."
  name := "__schema"

/-- The field of the query root that gives a type by its name. -/
def typeField : Field where
  type := .named "__Type"
  args := [Member.publish "name" ({ type := .named "String" true } : Argument)]
  resolver := .introspect .typeByName
  description := some "Request the type information of a single type."
  name := "__type"

/-- The field of every composite type that gives the name of the object type. It has no resolver:
the engine knows the answer. -/
def typenameField : Field where
  type := .named "String" true
  description := some "The name of the current Object type at runtime."
  name := "__typename"

end GraphQL.Introspection
