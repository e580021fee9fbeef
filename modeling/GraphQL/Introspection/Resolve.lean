import GraphQL.Introspection.Literal
import GraphQL.Value.Attribute
import GraphQL.Value.Stream

/-!
# Resolving introspection

What the fields of the introspection types resolve to. A type is represented by its name or by a
wrapped reference; a field, an argument, an enum symbol and a directive by an object with the parts
of its declaration as attributes, most of which the default resolver reads. A parent of another
shape lacks the attribute that is asked for, unless it is an object with attributes like these; a
stream among them gives up the elements that are read.
-/

namespace GraphQL

/-- A text that may be missing. -/
def Value.ofText? : Option String → Value
  | none => .null
  | some text => .str text

/-- A reference as a parent for introspection. -/
def TypeRef.toValue (ref : TypeRef) : Value :=
  match ref.plainName? with
  | some name => .str name
  | none => .typeRef ref

/-- An argument or input field as a parent for introspection. -/
def Argument.toValue (arg : Argument) : Value :=
  .object 0 "Argument"
    [("name", .str arg.name), ("description", .ofText? arg.description),
      ("type", arg.type.toValue), ("has_default", .bool arg.hasDefault),
      ("default_value", arg.default)] []

/-- Arguments by their names. -/
def Argument.toValues (args : List Argument) : Value :=
  .map (args.map fun arg => (arg.name, arg.toValue))

/-- A field as a parent for introspection. -/
def Field.toValue (field : Field) : Value :=
  .object 0 "Field"
    [("name", .str field.name), ("description", .ofText? field.description),
      ("args", Argument.toValues field.args), ("type", field.type.toValue),
      ("is_deprecated", .bool field.isDeprecated),
      ("deprecation_reason", .ofText? field.deprecation)] []

/-- A symbol of an enum as a parent for introspection. -/
def EnumValue.toValue (entry : EnumValue) : Value :=
  .object 0 "EnumValue"
    [("name", .str entry.symbol), ("description", .ofText? entry.description),
      ("is_deprecated", .bool entry.isDeprecated),
      ("deprecation_reason", .ofText? entry.deprecation)] []

/-- A directive as a parent for introspection. -/
def Directive.toValue (directive : Directive) : Value :=
  .object 0 "Directive"
    [("name", .str directive.name), ("description", .ofText? directive.description),
      ("is_repeatable", .bool directive.isRepeatable),
      ("locations", .tuple (directive.locations.map DirectiveLocation.toValue)),
      ("args", Argument.toValues directive.args)] []

namespace Introspector

/-- A look at a parent, which may read streams. -/
abbrev Inspection := ExceptT Fault (StateM StreamUse)

/-- The fault of reading an attribute that a value does not have. -/
def missing (parent : Value) (attributeName : String) : Fault where
  kind := .missingAttribute
  message := missingAttributeText parent.attributeClass attributeName

/-- An attribute of a parent. -/
def attributeOf (parent : Value) (attributeName : String) : Except Fault Value :=
  match parent.attribute? attributeName with
  | some found => .ok found.toValue
  | none => .error (missing parent attributeName)

/-- How many elements are read where each of them is taken, until one is refused. -/
def readCount (take : Value → Except Fault Value) : List Value → Nat
  | [] => 0
  | item :: rest =>
    match take item with
    | .ok _ => readCount take rest + 1
    | .error _ => 1

/-- What each element of a value is taken for. -/
def eachElement (value : Value) (take : Value → Except Fault Value) : Inspection Value :=
  match value.bare with
  | .stream identity items failure => do
    let remaining := (← get).remaining identity items
    modify (StreamUse.advance · identity (readCount take remaining))
    let taken ← ofExcept (remaining.mapM take)
    match failure with
    | some fault => throw fault
    | none => pure (.list taken)
  | other =>
    match other.elements? with
    | some elements => .list <$> ofExcept (elements.mapM take)
    | none => throw other.notIterable

/-- The fault of calling what cannot be called. -/
def notCallable (value : Value) : Fault where
  kind := .type
  message := Text.quoted value.typeName ++ " object is not callable"

/-- The name of the method that gives the values of a mapping. -/
def valuesName : String :=
  "values"

/-- The values of a mapping. Another value has no method for them, unless it is one of user code. -/
def valuesOf (mapping : Value) : Except Fault Value :=
  match mapping.bare with
  | .map entries => .ok (.list (Entries.values entries))
  | other =>
    match other.attribute? valuesName with
    | some found => .error (notCallable found.toValue)
    | none => .error (missing other valuesName)

/-- The name of the attribute that holds arguments by name. -/
def argumentsName : String :=
  "args"

/-- The method of user code that gives the values of the arguments, with the value that it belongs
to. -/
def valuesMethod? (parent : Value) : Option (Value × Handle) :=
  match attributeOf parent argumentsName with
  | .error _ => none
  | .ok mapping =>
    match mapping.ownAttribute? valuesName with
    | some (.method handle) => some (mapping.bare, handle)
    | _ => none

/-- The method of user code that a resolver calls, with the value that it belongs to. -/
def method? (what : Introspector) (parent : Value) : Option (Value × Handle) :=
  if what = .arguments then valuesMethod? parent.bare else none

/-- The part of the registry that a parent for the schema gives. Another parent has it for an
attribute, of which `take` makes use. -/
def ofSchema (registry : Registry) (parent : Value) (attributeName : String)
    (part : Registry → Value) (take : Value → Inspection Value) : Inspection Value :=
  match parent with
  | .schema => pure (part registry)
  | _ => do take (← ofExcept (attributeOf parent attributeName))

/-- The name of a value. -/
def nameOf (value : Value) : Except Fault Value :=
  attributeOf value "name"

/-- The name of a value that counts as true. -/
def nameIfAny (value : Value) : Except Fault Value :=
  if value.truthy then nameOf value else .ok .null

/-- The definition that a parent names. -/
def definition? (registry : Registry) (parent : Value) : Option TypeDefinition :=
  parent.text?.bind registry.type?

/-- A part of the definition that a parent names, null where there is none. -/
def ofDefinition (registry : Registry) (parent : Value)
    (part : TypeDefinition → Option Value) : Value :=
  ((definition? registry parent).bind part).getD .null

/-- Whether deprecated members are asked for. -/
def wantsDeprecated (args : Entries Value) : Bool :=
  ((Entries.get? args "include_deprecated").map Value.truthy).getD false

/-- The members that are asked for. -/
def select {α : Type} (args : Entries Value) (isDeprecated : α → Bool) (members : List α) :
    List α :=
  if wantsDeprecated args then members else members.filter fun entry => !isDeprecated entry

/-- The fields of a type that has them. -/
def fieldValues (args : Entries Value) (type : TypeDefinition) : Option Value :=
  match type with
  | .object _ | .interface _ =>
    some (.list ((select args Field.isDeprecated type.outputFields).map Field.toValue))
  | _ => none

/-- The interfaces of a type that may list them. -/
def interfaceValues (type : TypeDefinition) : Option Value :=
  match type with
  | .object _ | .interface _ => some (.list (type.interfaces.map TypeRef.toValue))
  | _ => none

/-- The symbols of an enum. -/
def symbolValues (args : Entries Value) : TypeDefinition → Option Value
  | .enum type =>
    some (.list ((select args EnumValue.isDeprecated type.values).map EnumValue.toValue))
  | _ => none

/-- The fields of an input object type. -/
def inputFieldValues : TypeDefinition → Option Value
  | .input type => some (.list (type.fields.map Argument.toValue))
  | _ => none

/-- The URL of the specification of a scalar. -/
def specificationUrl : TypeDefinition → Option Value
  | .scalar type => type.specifiedBy.map Value.str
  | _ => none

/-- The fault of looking up a value that cannot be a key. -/
def unhashable (typeName : String) : Fault where
  kind := .type
  message := "unhashable type: " ++ Text.quoted typeName

/-- The kind of the type that a parent stands for. -/
def kindOf (registry : Registry) (parent : Value) : Except Fault Value :=
  match parent with
  | .typeRef ref => .ok (if ref.isNonNull then TypeKind.nonNull else TypeKind.list).toValue
  | _ =>
    match (definition? registry parent).bind TypeDefinition.kind?, parent.unhashable? with
    | some typeKind, _ => .ok typeKind.toValue
    | none, some typeName => .error (unhashable typeName)
    | none, none => .error { kind := .typeNotFound, message := parent.display }

/-- The reference inside a wrapped reference. -/
def innerOf : Value → Value
  | .typeRef ref =>
    if ref.isNonNull then ref.nullable.toValue
    else match ref with
      | .list item _ => item.toValue
      | .named .. => .null
  | _ => .null

/-- The literal of the default of an argument. -/
def literalOf (registry : Registry) (parent : Value) : Except Fault Value := do
  let hasDefault ← attributeOf parent "has_default"
  if hasDefault.truthy then
    let value ← attributeOf parent "default_value"
    let type ← attributeOf parent "type"
    match TypeRef.ofValue type.bare with
    | .ok ref => return .str (registry.literal value.plain ref)
    | .error _ => .str <$> literalOfNoType value.plain type
  else return .null
where
  /-- The literal of a value under what is no type at all. -/
  literalOfNoType (value type : Value) : Except Fault String :=
    if value.isNull then .ok "null"
    else match type.unhashable? with
      | some typeName => .error (unhashable typeName)
      | none => .ok value.plainLiteral

/-- What a resolver of an introspection type gives for a parent that remembers no symbol. -/
def resolvePlain (what : Introspector) (registry : Registry) (parent : Value)
    (args : Entries Value) : Inspection Value :=
  match what with
  | .nothing => pure .null
  | .never => pure (.bool false)
  | .registry => pure .schema
  | .typeByName =>
    match Entries.get? args "name" with
    | some (.str title) => pure (if registry.contains title then .str title else .null)
    | _ => pure .null
  | .types =>
    ofSchema registry parent "types" (fun registry => .list (registry.names.map Value.str))
      fun types => eachElement types nameOf
  | .queryType =>
    ofSchema registry parent "query_type" (fun registry => .str registry.query)
      fun type => ofExcept (nameOf type)
  | .mutationType =>
    ofSchema registry parent "mutation_type" (fun registry => .ofText? registry.mutation)
      fun type => ofExcept (nameIfAny type)
  | .subscriptionType =>
    ofSchema registry parent "subscription_type"
      (fun registry => .ofText? registry.subscription) fun type => ofExcept (nameIfAny type)
  | .directives =>
    ofSchema registry parent "directives"
      (fun registry => .list (registry.directives.map Directive.toValue))
      fun directives => eachElement directives .ok
  | .kind => ofExcept (kindOf registry parent)
  | .name => pure (if parent.text?.isSome then parent else .null)
  | .description => pure (ofDefinition registry parent fun type => type.description.map .str)
  | .specifiedBy => pure (ofDefinition registry parent specificationUrl)
  | .fields => pure (ofDefinition registry parent (fieldValues args))
  | .interfaces => pure (ofDefinition registry parent interfaceValues)
  | .possibleTypes => pure (ofDefinition registry parent fun type =>
      if type.isAbstract then
        some (.list ((registry.possibleTypes type.name).map fun object => .str object.name))
      else none)
  | .enumValues => pure (ofDefinition registry parent (symbolValues args))
  | .inputFields => pure (ofDefinition registry parent inputFieldValues)
  | .ofType => pure (innerOf parent)
  | .arguments => ofExcept (attributeOf parent argumentsName >>= valuesOf)
  | .defaultLiteral => ofExcept (literalOf registry parent)

/-- What a resolver of an introspection type gives. -/
def resolve (what : Introspector) (registry : Registry) (parent : Value)
    (args : Entries Value) : Inspection Value :=
  what.resolvePlain registry parent.bare args

end Introspector

end GraphQL
