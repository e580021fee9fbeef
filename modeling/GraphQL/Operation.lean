import GraphQL.OperationKind
import GraphQL.Value

/-!
# Operations

A parsed operation: what is selected, under which response keys, with which literals. Literals are
values in which a variable may stand for another value; an enum literal is the text of its symbol.
-/

namespace GraphQL

/-- A directive at a selection. -/
structure DirectiveUse where
  name : String
  arguments : Entries Value := []

/-- One selection. -/
inductive Selection where
  | field (name : String) (otherKey : Option String) (arguments : Entries Value)
      (directives : List DirectiveUse) (location : Option Location) (selections : List Selection)
  | inline (condition : Option String) (directives : List DirectiveUse)
      (selections : List Selection)
  | spread (fragment : String) (directives : List DirectiveUse)

/-- The directives at a selection. -/
def Selection.directives : Selection → List DirectiveUse
  | field _ _ _ directives _ _ => directives
  | inline _ directives _ => directives
  | spread _ directives => directives

/-- A field selection that takes part in the execution of an object. -/
structure FieldNode where
  name : String
  responseKey : String
  arguments : Entries Value := []
  selections : List Selection := []
  location : Option Location := none

/-- The response key of a field: another than its name if one is given that is not empty. -/
def responseKey (name : String) : Option String → String
  | none | some "" => name
  | some otherKey => otherKey

mutual

/-- How deeply fields are nested below a selection, fragments not followed. -/
def Selection.depth : Selection → Nat
  | field _ _ _ _ _ selections => Selection.depths selections + 1
  | inline _ _ selections => Selection.depths selections
  | spread .. => 0

/-- How deeply fields are nested below some selections. -/
def Selection.depths : List Selection → Nat
  | [] => 0
  | selection :: rest => max (Selection.depth selection) (Selection.depths rest)

end

/-- A named fragment. -/
structure Fragment where
  name : String
  condition : String
  selections : List Selection

/-- A variable that an operation declares; `Value.undefined` stands for no default. -/
structure VariableDeclaration where
  name : String
  default : Value := .undefined

/-- An operation. -/
structure Operation where
  kind : OperationKind := .query
  name : Option String := none
  declarations : List VariableDeclaration := []
  selections : List Selection := []

/-- The values of the variables of an operation: those given, over the defaults. -/
def Operation.variableValues (operation : Operation) (given : Entries Value) : Entries Value :=
  let defaults := operation.declarations.filterMap fun declared =>
    if declared.default.isUndefined then none else some (declared.name, declared.default)
  Entries.insertAll (Entries.ofList defaults) given

/-- Fragments under their names; the last of equal names counts. -/
def fragmentTable (fragments : List Fragment) : Entries Fragment :=
  Entries.ofList (fragments.map fun fragment => (fragment.name, fragment))

end GraphQL
