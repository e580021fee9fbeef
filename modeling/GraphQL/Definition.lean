import GraphQL.Scalar

/-!
# Type definitions

The named types of a schema and their members. A definition refers to other types by reference
only, so that a schema may be recursive. User code appears as numbered handles: two handles are the
same hook exactly when their numbers are equal.
-/

namespace GraphQL

/-- The number of a piece of user code. -/
abbrev Handle := Nat

/-- The kinds of types that introspection tells apart. -/
inductive TypeKind where
  | scalar
  | object
  | interface
  | union
  | enum
  | inputObject
  | list
  | nonNull
  deriving DecidableEq

namespace TypeKind

/-- The kinds in the order of their enumeration. -/
def all : List TypeKind :=
  [scalar, object, interface, union, enum, inputObject, list, nonNull]

/-- The symbol of a kind. -/
def symbol : TypeKind → String
  | scalar => "SCALAR"
  | object => "OBJECT"
  | interface => "INTERFACE"
  | union => "UNION"
  | enum => "ENUM"
  | inputObject => "INPUT_OBJECT"
  | list => "LIST"
  | nonNull => "NON_NULL"

/-- The kind as a value. -/
def toValue (kind : TypeKind) : Value :=
  .keyword "TypeKind" kind.symbol

end TypeKind

/-- The kind of what a reference puts around a type: the exclusion of null, or else a list. -/
def TypeRef.wrapper? : TypeRef → Option TypeKind
  | .named _ nonNull => if nonNull then some .nonNull else none
  | .list _ nonNull => some (if nonNull then .nonNull else .list)

/-- The places of a document where a directive may stand. -/
inductive DirectiveLocation where
  | query
  | mutation
  | subscription
  | field
  | fragmentDefinition
  | fragmentSpread
  | inlineFragment
  | variableDefinition
  | schema
  | scalar
  | object
  | fieldDefinition
  | argumentDefinition
  | interface
  | union
  | enum
  | enumValue
  | inputObject
  | inputFieldDefinition
  deriving DecidableEq

namespace DirectiveLocation

/-- The locations in the order of their enumeration. -/
def all : List DirectiveLocation :=
  [query, mutation, subscription, field, fragmentDefinition, fragmentSpread, inlineFragment,
    variableDefinition, schema, scalar, object, fieldDefinition, argumentDefinition, interface,
    union, enum, enumValue, inputObject, inputFieldDefinition]

/-- The symbol of a location. -/
def symbol : DirectiveLocation → String
  | query => "QUERY"
  | mutation => "MUTATION"
  | subscription => "SUBSCRIPTION"
  | field => "FIELD"
  | fragmentDefinition => "FRAGMENT_DEFINITION"
  | fragmentSpread => "FRAGMENT_SPREAD"
  | inlineFragment => "INLINE_FRAGMENT"
  | variableDefinition => "VARIABLE_DEFINITION"
  | schema => "SCHEMA"
  | scalar => "SCALAR"
  | object => "OBJECT"
  | fieldDefinition => "FIELD_DEFINITION"
  | argumentDefinition => "ARGUMENT_DEFINITION"
  | interface => "INTERFACE"
  | union => "UNION"
  | enum => "ENUM"
  | enumValue => "ENUM_VALUE"
  | inputObject => "INPUT_OBJECT"
  | inputFieldDefinition => "INPUT_FIELD_DEFINITION"

/-- The location with a symbol. -/
def ofSymbol? (symbol : String) : Option DirectiveLocation :=
  all.find? (·.symbol == symbol)

/-- The location as a value. -/
def toValue (location : DirectiveLocation) : Value :=
  .keyword "DirectiveLocation" location.symbol

end DirectiveLocation

/-- The keywords of a family. -/
def Value.keywordsOf (family : String) : List Value :=
  if family = "TypeKind" then TypeKind.all.map TypeKind.toValue
  else if family = "DirectiveLocation" then DirectiveLocation.all.map DirectiveLocation.toValue
  else []

/-- How a scalar converts values in one direction. -/
inductive Conversion where
  | identity
  | builtin (scalar : BuiltinScalar) (direction : Direction)
  | given (handle : Handle)
  deriving DecidableEq

/-- The resolvers of the introspection types. -/
inductive Introspector where
  | nothing
  | never
  | registry
  | typeByName
  | types
  | queryType
  | mutationType
  | subscriptionType
  | directives
  | kind
  | name
  | description
  | specifiedBy
  | fields
  | interfaces
  | possibleTypes
  | enumValues
  | inputFields
  | ofType
  | arguments
  | defaultLiteral
  deriving DecidableEq

/-- What computes the value of a field. The default reads it from the parent. -/
inductive Resolver where
  | default
  | introspect (what : Introspector)
  | given (handle : Handle)
  deriving DecidableEq

/-- An argument, or a field of an input object. `name` is its public name and `source` the key
under which the coerced value is handed on; an empty name stands for none. No default is
`Value.undefined`. -/
structure Argument where
  type : TypeRef
  default : Value := .undefined
  description : Option String := none
  name : String := ""
  source : Option String := none

/-- Whether the argument has a default. -/
def Argument.hasDefault (arg : Argument) : Bool :=
  !arg.default.isUndefined

/-- The key under which the coerced value of the argument is handed on. -/
def Argument.key (arg : Argument) : String :=
  match arg.source with
  | none | some "" => arg.name
  | some source => source

/-- A field of an object or an interface. -/
structure Field where
  type : TypeRef
  args : List Argument := []
  resolver : Resolver := .default
  description : Option String := none
  deprecation : Option String := none
  name : String := ""
  source : Option String := none

/-- Whether the field is deprecated. -/
def Field.isDeprecated (field : Field) : Bool :=
  field.deprecation.isSome

/-- The key under which the default resolver looks first. -/
def Field.key (field : Field) : String :=
  match field.source with
  | none | some "" => field.name
  | some source => source

/-- A symbol of an enum with the internal value that stands for it. -/
structure EnumValue where
  symbol : String
  value : Value
  description : Option String := none
  deprecation : Option String := none

/-- Whether the symbol is deprecated. -/
def EnumValue.isDeprecated (entry : EnumValue) : Bool :=
  entry.deprecation.isSome

/-- A scalar type. -/
structure ScalarType where
  name : String
  serialize : Conversion := .identity
  parse : Conversion := .identity
  description : Option String := none
  specifiedBy : Option String := none

/-- The type of a built-in scalar. -/
def BuiltinScalar.type (scalar : BuiltinScalar) : ScalarType where
  name := scalar.name
  serialize := .builtin scalar .serialize
  parse := .builtin scalar .parse
  description := some scalar.description

/-- An enum type. -/
structure EnumType where
  name : String
  values : List EnumValue := []
  description : Option String := none

/-- An object type. -/
structure ObjectType where
  name : String
  fields : List Field := []
  interfaces : List TypeRef := []
  isTypeOf : Option Handle := none
  description : Option String := none

/-- An interface type. -/
structure InterfaceType where
  name : String
  fields : List Field := []
  interfaces : List TypeRef := []
  resolveType : Option Handle := none
  description : Option String := none

/-- A union type. -/
structure UnionType where
  name : String
  members : List TypeRef := []
  resolveType : Option Handle := none
  description : Option String := none

/-- An input object type. -/
structure InputType where
  name : String
  fields : List Argument := []
  description : Option String := none

/-- A named type; `custom` is of none of the six kinds. -/
inductive TypeDefinition where
  | scalar (type : ScalarType)
  | enum (type : EnumType)
  | object (type : ObjectType)
  | interface (type : InterfaceType)
  | union (type : UnionType)
  | input (type : InputType)
  | custom (name : String) (description : Option String)

namespace EnumType

/-- The entry of a symbol. -/
def valueFor? (type : EnumType) (symbol : String) : Option EnumValue :=
  type.values.find? (·.symbol == symbol)

/-- The first symbol whose internal value is the given object, otherwise the first whose internal
value is of the same type and equal to it. -/
def symbolOf? (type : EnumType) (value : Value) : Option String :=
  match type.values.find? fun entry => entry.value.identical value with
  | some entry => some entry.symbol
  | none =>
    (type.values.find? fun entry => entry.value.sameType value && entry.value.equals value).map
      (·.symbol)

/-- The symbol of an internal value: the one that the value remembers, if it came from the type. -/
def symbolFor? (type : EnumType) (value : Value) : Option String :=
  match value with
  | .chosen enumName symbol inner =>
    if enumName = type.name && (type.valueFor? symbol).isSome then some symbol
    else type.symbolOf? inner.plain
  | _ => type.symbolOf? value.plain

/-- The internal value of a symbol as it is handed on. It remembers the symbol where the value alone
would not lead back to it, unless equal values are the same object. -/
def internalValue (type : EnumType) (entry : EnumValue) : Value :=
  if entry.value.isInterned || type.symbolOf? entry.value == some entry.symbol then entry.value
  else .chosen type.name entry.symbol entry.value

end EnumType

namespace TypeDefinition

/-- The name of a type. -/
def name : TypeDefinition → String
  | scalar type => type.name
  | enum type => type.name
  | object type => type.name
  | interface type => type.name
  | union type => type.name
  | input type => type.name
  | custom name _ => name

/-- The description of a type. -/
def description : TypeDefinition → Option String
  | scalar type => type.description
  | enum type => type.description
  | object type => type.description
  | interface type => type.description
  | union type => type.description
  | input type => type.description
  | custom _ description => description

/-- The kind of a type. -/
def kind? : TypeDefinition → Option TypeKind
  | scalar _ => some .scalar
  | enum _ => some .enum
  | object _ => some .object
  | interface _ => some .interface
  | union _ => some .union
  | input _ => some .inputObject
  | custom .. => none

/-- The fields that can be selected. -/
def outputFields : TypeDefinition → List Field
  | object type => type.fields
  | interface type => type.fields
  | _ => []

/-- The interfaces that a type lists. -/
def interfaces : TypeDefinition → List TypeRef
  | object type => type.interfaces
  | interface type => type.interfaces
  | _ => []

/-- Whether values of the type have no fields. -/
def isLeaf : TypeDefinition → Bool
  | scalar _ | enum _ => true
  | _ => false

/-- Whether values of the type belong to one of several object types. -/
def isAbstract : TypeDefinition → Bool
  | interface _ | union _ => true
  | _ => false

/-- Whether selections apply to values of the type. -/
def isComposite : TypeDefinition → Bool
  | object _ | interface _ | union _ => true
  | _ => false

/-- Whether the type may be the type of an argument. -/
def isInput : TypeDefinition → Bool
  | scalar _ | enum _ | input _ => true
  | _ => false

/-- Whether the type may be the type of a field. -/
def isOutput : TypeDefinition → Bool
  | input _ => false
  | _ => true

/-- The field of a public name. -/
def field? (type : TypeDefinition) (name : String) : Option Field :=
  type.outputFields.find? (·.name == name)

end TypeDefinition

/-- A directive. -/
structure Directive where
  name : String
  locations : List DirectiveLocation := []
  args : List Argument := []
  description : Option String := none
  isRepeatable : Bool := false

end GraphQL
