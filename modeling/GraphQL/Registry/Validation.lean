import GraphQL.Definition.Declaration
import GraphQL.Registry.Problem
import GraphQL.Registry.SubType

/-!
# Validation of a table of types

The problems of a table in which every reference leads to a definition: members of the wrong kind
of type, types without members, and types that do not conform to an interface that they list.
-/

namespace GraphQL

namespace Validation

/-- Whether the type underneath a reference passes a test. -/
def underneath (table : List TypeDefinition) (test : TypeDefinition → Bool) (ref : TypeRef) :
    Bool :=
  (lookupType? table ref.name).any test

/-- The problem, if a condition fails. -/
def demand (holds : Bool) (problem : Problem) : List Problem :=
  if holds then [] else [problem]

/-- The problems of the type and the arguments of a field. -/
def fieldProblems (table : List TypeDefinition) (type : String) (field : Field) : List Problem :=
  demand (underneath table TypeDefinition.isOutput field.type)
      (.notOutputType ⟨type, field.name⟩ field.type) ++
    field.args.flatMap fun arg =>
      demand (underneath table TypeDefinition.isInput arg.type)
        (.argumentNotInputType ⟨type, field.name⟩ arg.name arg.type)

/-- The problems of an argument that an interface field declares. -/
def argumentProblems (expected : FieldPlace) (found : FieldPlace) (field : Field)
    (arg : Argument) : List Problem :=
  match Member.find? field.args arg.name with
  | none => [.missingArgument expected arg.name found]
  | some own =>
    demand (own.type == arg.type)
      (.argumentTypeMismatch expected arg.name arg.type found own.type)

/-- The problems of a field that an interface asks for. -/
def conformingFieldProblems (table : List TypeDefinition) (type : TypeDefinition)
    (interface : String) (wanted : Field) : List Problem :=
  let expected : FieldPlace := ⟨interface, wanted.name⟩
  let found : FieldPlace := ⟨type.name, wanted.name⟩
  match type.field? wanted.name with
  | none => [.missingField expected type.name]
  | some field =>
    demand (isSubType table field.type wanted.type)
        (.fieldTypeMismatch expected wanted.type found field.type) ++
      wanted.args.flatMap (argumentProblems expected found field) ++
      field.args.flatMap fun arg =>
        demand ((Member.find? wanted.args arg.name).isSome || !arg.type.isNonNull ||
            arg.hasDefault)
          (.extraRequiredArgument found arg.name expected)

/-- The problems of a type with an interface that it lists. -/
def interfaceProblems (table : List TypeDefinition) (type : TypeDefinition) (listed : TypeRef) :
    List Problem :=
  match lookupType? table listed.name with
  | some (.interface interface) =>
    if interface.name == type.name then [.implementsItself type.name]
    else
      interface.interfaces.flatMap (fun transitive =>
          demand (type.interfaces.contains transitive)
            (.missingInterface type.name transitive interface.name)) ++
        interface.fields.flatMap (conformingFieldProblems table type interface.name)
  | _ => [.notAnInterface type.name listed.text]

/-- The problems of a type whose fields can be selected. -/
def selectableProblems (table : List TypeDefinition) (type : TypeDefinition) : List Problem :=
  demand (!type.outputFields.isEmpty) (.noFields type.name) ++
    type.outputFields.flatMap (fieldProblems table type.name) ++
    type.interfaces.flatMap (interfaceProblems table type)

/-- The problems of a type. -/
def typeProblems (table : List TypeDefinition) (type : TypeDefinition) : List Problem :=
  match type with
  | .object _ | .interface _ => selectableProblems table type
  | .union union =>
    demand (!union.members.isEmpty) (.emptyUnion union.name) ++
      union.members.flatMap fun member =>
        demand (underneath table (fun | .object _ => true | _ => false) member)
          (.memberNotObject union.name member.text)
  | .input input =>
    input.fields.flatMap fun field =>
      demand (underneath table TypeDefinition.isInput field.type)
        (.inputFieldNotInputType ⟨input.name, field.name⟩ field.type)
  | .enum enum => demand (!enum.values.isEmpty) (.emptyEnum enum.name)
  | .scalar _ => []
  | .custom name _ => [.unsupported name]

/-- The problems of the arguments of a directive. -/
def directiveProblems (table : List TypeDefinition) (directive : Directive) : List Problem :=
  directive.args.flatMap fun arg =>
    demand (underneath table TypeDefinition.isInput arg.type)
      (.directiveArgumentNotInputType directive.name arg.name)

/-- The problems of a table and its directives. -/
def problems (table : List TypeDefinition) (directives : List Directive) : List Problem :=
  table.flatMap (typeProblems table) ++ directives.flatMap (directiveProblems table)

/-- What ends a validation before its problems are complete. -/
inductive Obstacle where
  /-- A listed interface or a member of a union that is no plain name. -/
  | brokenReference (ref : TypeRef)
  /-- A member of a type of no kind, which is neither for input nor for output. -/
  | withoutKind
  deriving DecidableEq

/-- The obstacle of a reference that has to be a plain name. -/
def nameObstacles (ref : TypeRef) : List Obstacle :=
  if ref.plainName?.isNone then [.brokenReference ref] else []

/-- The obstacle of a reference that has to lead to a type for input or for output. -/
def kindObstacles (table : List TypeDefinition) (ref : TypeRef) : List Obstacle :=
  if underneath table (fun type => type.kind?.isNone) ref then [.withoutKind] else []

/-- The obstacles in a field: its own type, then those of its arguments. -/
def fieldObstacles (table : List TypeDefinition) (field : Field) : List Obstacle :=
  kindObstacles table field.type ++ field.args.flatMap fun arg => kindObstacles table arg.type

/-- The obstacles in a type. -/
def typeObstacles (table : List TypeDefinition) (type : TypeDefinition) : List Obstacle :=
  match type with
  | .object _ | .interface _ =>
    type.outputFields.flatMap (fieldObstacles table) ++ type.interfaces.flatMap nameObstacles
  | .union union => union.members.flatMap nameObstacles
  | .input input => input.fields.flatMap fun field => kindObstacles table field.type
  | _ => []

/-- The first obstacle in a table and its directives. -/
def obstacle? (table : List TypeDefinition) (directives : List Directive) : Option Obstacle :=
  (table.flatMap (typeObstacles table) ++ directives.flatMap fun directive =>
    directive.args.flatMap fun arg => kindObstacles table arg.type).head?

end Validation

end GraphQL
