import GraphQL.Execution.FieldError

/-!
# Positions of a response

Every selected field and every list item of a response is a position. A position fails at most once,
and then has an error instead of a value. The data of a response follows from its positions: a
position that fails is null, and where its type excludes null the position that contains it fails in
its turn without an error of its own. The positions beside it are not touched.
-/

namespace GraphQL

/-- Data of a response. -/
inductive Response where
  | null
  | leaf (value : Value)
  | list (items : List Response)
  | object (entries : List (String × Response))
  deriving Inhabited

/-- What became of a position; `required` says that its type excludes null. -/
inductive Position where
  | null
  | leaf (value : Value)
  | failed (required : Bool) (error : FieldError)
  | list (required : Bool) (items : List Position)
  | object (required : Bool) (fields : List (String × Position))
  deriving Inhabited

/-- The data of a position that lost its value: null, or nothing if null is excluded. -/
def Response.lost (required : Bool) : Option Response :=
  if required then none else some .null

namespace Position

/-- The error object that is the value of a position. -/
def fault? : Position → Option Fault
  | leaf value =>
    match value.bare with
    | .fault fault => some fault
    | _ => none
  | _ => none

mutual

/-- The data of a position; nothing where the position that contains it has to be null. -/
def response? : Position → Option Response
  | null => some .null
  | leaf value => some (.leaf value)
  | failed required _ => Response.lost required
  | list required items =>
    match itemResponses? items with
    | some responses => some (.list responses)
    | none => Response.lost required
  | object required fields =>
    match fieldResponses? fields with
    | some entries => some (.object entries)
    | none => Response.lost required

/-- The data of the items of a list. -/
def itemResponses? : List Position → Option (List Response)
  | [] => some []
  | item :: rest =>
    match response? item, itemResponses? rest with
    | some response, some responses => some (response :: responses)
    | _, _ => none

/-- The data of the fields of an object. -/
def fieldResponses? : List (String × Position) → Option (List (String × Response))
  | [] => some []
  | (key, field) :: rest =>
    match response? field, fieldResponses? rest with
    | some response, some entries => some ((key, response) :: entries)
    | _, _ => none

end

mutual

/-- The errors at a position and below it, in order. -/
def errors : Position → List FieldError
  | null | leaf _ => []
  | failed _ error => [error]
  | list _ items => itemErrors items
  | object _ fields => fieldErrors fields

/-- The errors of the items of a list. -/
def itemErrors : List Position → List FieldError
  | [] => []
  | item :: rest => errors item ++ itemErrors rest

/-- The errors of the fields of an object. -/
def fieldErrors : List (String × Position) → List FieldError
  | [] => []
  | (_, field) :: rest => errors field ++ fieldErrors rest

end

/-- The data of a whole response, null where its root has to be null. -/
def rootResponse (fields : List (String × Position)) : Response :=
  match fieldResponses? fields with
  | some entries => .object entries
  | none => .null

end Position

end GraphQL
