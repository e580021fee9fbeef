import GraphQL.Definition

/-!
# References between types

Every reference that a definition makes, in the order in which it is declared, with the place where
it stands.
-/

namespace GraphQL

/-- The place of a reference inside a definition. -/
inductive ReferencePlace where
  | field (name : String)
  | argument (owner name : String)
  | interface
  | unionMember
  | inputField (name : String)
  deriving DecidableEq

/-- A place as a message names it. -/
def ReferencePlace.text : ReferencePlace → String
  | field name => "field " ++ name
  | argument owner name => "argument " ++ owner ++ "(" ++ name ++ ")"
  | interface => "interface"
  | unionMember => "union member"
  | inputField name => "input field " ++ name

/-- A reference to a type from a place. -/
structure Reference where
  place : ReferencePlace
  ref : TypeRef
  deriving DecidableEq

/-- The name of the type that is referred to. -/
def Reference.target (reference : Reference) : String :=
  reference.ref.name

/-- The references of a field: its own type, then the types of its arguments. -/
def Field.references (field : Field) : List Reference :=
  ⟨.field field.name, field.type⟩ ::
    field.args.map fun arg => ⟨.argument field.name arg.name, arg.type⟩

/-- The references of a definition. -/
def TypeDefinition.references : TypeDefinition → List Reference
  | object type =>
    type.fields.flatMap Field.references ++ type.interfaces.map (⟨.interface, ·⟩)
  | interface type =>
    type.fields.flatMap Field.references ++ type.interfaces.map (⟨.interface, ·⟩)
  | union type => type.members.map (⟨.unionMember, ·⟩)
  | input type => type.fields.map fun field => ⟨.inputField field.name, field.type⟩
  | _ => []

end GraphQL
