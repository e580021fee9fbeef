import GraphQL.ErrorReport

/-!
# Asking definitions

Questions that only definitions of some kinds can answer. Asked of another kind, a question is
answered by the report of an attribute that the definition does not have.
-/

namespace GraphQL

namespace TypeDefinition

/-- The class of a definition, as an error names it. -/
def className : TypeDefinition → String
  | scalar _ => "ScalarType"
  | enum _ => "EnumType"
  | object _ => "ObjectType"
  | interface _ => "InterfaceType"
  | union _ => "UnionType"
  | input _ => "InputObjectType"
  | custom .. => "NamedType"

/-- The report of a definition without an attribute that others have. -/
def lacking (type : TypeDefinition) (attributeName : String) : ErrorReport :=
  .noAttribute type.className attributeName

/-- The entry of a symbol in an enum. -/
def valueFor (type : TypeDefinition) (symbol : String) : Except ErrorReport (Option EnumValue) :=
  match type with
  | enum type => .ok (type.valueFor? symbol)
  | _ => .error (type.lacking "value_for")

/-- What gives the symbol of a value in an enum. -/
def symbolFor (type : TypeDefinition) : Except ErrorReport (Value → Option String) :=
  match type with
  | enum type => .ok type.symbolFor?
  | _ => .error (type.lacking "symbol_for")

/-- The key that a field reads from its parent, if an object or interface has the field. -/
def sourceOf (type : TypeDefinition) (fieldName : String) : Except ErrorReport (Option String) :=
  match type with
  | object _ | interface _ => .ok ((type.field? fieldName).bind Field.source)
  | _ => .error (type.lacking "get_field")

end TypeDefinition

end GraphQL
