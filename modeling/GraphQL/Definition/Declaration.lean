import GraphQL.Definition
import GraphQL.Name

/-!
# Declaring types

Members are declared under identifiers and published under names; a declaration that cannot stand
is refused with its cause. Normalised members have distinct public names and all have a source.
-/

namespace GraphQL

/-- Why a declaration is refused. -/
inductive DeclarationError where
  | duplicateMember (name : String)
  | doubleNonNull (ref : TypeRef)
  | notAType (value : Value)
  | unknownLocation (symbol : String)

namespace DeclarationError

/-- The text of a refusal. -/
def message : DeclarationError → String
  | duplicateMember name => "Duplicate member name: " ++ name
  | doubleNonNull ref =>
    "Non-null type cannot wrap another non-null type: " ++ ref.text ++ "!"
  | notAType value => "Expected a type name or type definition, got " ++ value.describe
  | unknownLocation symbol => Text.quoted symbol ++ " is not a valid DirectiveLocation"

/-- The class of a refusal. -/
def kind : DeclarationError → FaultKind
  | duplicateMember _ | doubleNonNull _ => .schemaBuild
  | notAType _ => .type
  | unknownLocation _ => .value

end DeclarationError

/-- A reference with null excluded, which must not exclude it already. -/
def TypeRef.require (ref : TypeRef) : Except DeclarationError TypeRef :=
  if ref.isNonNull then .error (.doubleNonNull ref) else .ok ref.required

/-- A value in the place of a type: a reference, the name of a type, or its definition. -/
def TypeRef.ofValue : Value → Except DeclarationError TypeRef
  | .str name | .keyword _ name | .definition name => .ok (.named name)
  | .typeRef ref => .ok ref
  | value => .error (.notAType value)

/-- What has a public name and a source. -/
class Member (α : Type) where
  name : α → String
  source : α → Option String
  relabel : α → String → String → α

instance : Member Argument where
  name arg := arg.name
  source arg := arg.source
  relabel arg name source := { arg with name, source := some source }

instance : Member Field where
  name field := field.name
  source field := field.source
  relabel field name source := { field with name, source := some source }

namespace Member

variable {α : Type} [Member α]

/-- The public name of a member: its own, or the camel case of its identifier. -/
def publicName (identifier : String) (member : α) : String :=
  if name member = "" then camelCase identifier else name member

/-- A member with its public name, and with its identifier for a source if it has none. -/
def publish (identifier : String) (member : α) : α :=
  let title := publicName identifier member
  match source member with
  | some own =>
    if name member = title then member
    else relabel member title (if own = "" then identifier else own)
  | none => relabel member title identifier

/-- Publishes members after others that are published already. -/
def publishAfter (published : List α) :
    List (String × α) → Except DeclarationError (List α)
  | [] => .ok published
  | (identifier, member) :: rest =>
    let title := publicName identifier member
    if published.any (fun other => name other == title) then .error (.duplicateMember title)
    else publishAfter (published ++ [publish identifier member]) rest

/-- The members of a type from their declarations by identifier. -/
def publishAll (declared : List (String × α)) : Except DeclarationError (List α) :=
  publishAfter [] declared

/-- The member of a public name. -/
def find? (members : List α) (title : String) : Option α :=
  members.find? fun member => name member == title

end Member

/-- An argument from what stands for its type. -/
def Argument.declare (type : Value) (argument : TypeRef → Argument) :
    Except DeclarationError Argument :=
  (TypeRef.ofValue type).map argument

/-- A field from what stands for its type and from its arguments, which are given by identifier. -/
def Field.declare (type : Value) (field : TypeRef → Field) (args : List (String × Argument)) :
    Except DeclarationError Field := do
  let field := field (← TypeRef.ofValue type)
  return { field with args := ← Member.publishAll args }

/-- A symbol of an enum; one without an internal value stands for itself. -/
def EnumValue.declare (entry : EnumValue) : EnumValue :=
  if entry.value.isUndefined then { entry with value := .str entry.symbol } else entry

/-- The symbols of an enum from their declarations. Of equal symbols the last counts, in the place
of the first. -/
def EnumValue.declareAll (entries : List EnumValue) : List EnumValue :=
  Entries.values (Entries.ofList (entries.map fun entry => (entry.symbol, entry.declare)))

/-- An object type from the declarations of its fields and from what stands for its interfaces. -/
def ObjectType.declare (type : ObjectType) (fields : List (String × Field))
    (interfaces : List Value) : Except DeclarationError ObjectType := do
  return { type with
    fields := ← Member.publishAll fields
    interfaces := ← interfaces.mapM TypeRef.ofValue }

/-- An interface type from the declarations of its fields and from what stands for its
interfaces. -/
def InterfaceType.declare (type : InterfaceType) (fields : List (String × Field))
    (interfaces : List Value) : Except DeclarationError InterfaceType := do
  return { type with
    fields := ← Member.publishAll fields
    interfaces := ← interfaces.mapM TypeRef.ofValue }

/-- A union type from what stands for its members. -/
def UnionType.declare (type : UnionType) (members : List Value) :
    Except DeclarationError UnionType := do
  return { type with members := ← members.mapM TypeRef.ofValue }

/-- An input object type from the declarations of its fields. -/
def InputType.declare (type : InputType) (fields : List (String × Argument)) :
    Except DeclarationError InputType := do
  return { type with fields := ← Member.publishAll fields }

/-- A directive from the symbols of its locations and the declarations of its arguments. -/
def Directive.declare (directive : Directive) (locations : List String)
    (args : List (String × Argument)) : Except DeclarationError Directive := do
  let locations ← locations.mapM fun symbol =>
    match DirectiveLocation.ofSymbol? symbol with
    | some location => Except.ok location
    | none => .error (.unknownLocation symbol)
  return { directive with locations, args := ← Member.publishAll args }

end GraphQL
