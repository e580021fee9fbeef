import GraphQL.Definition

/-!
# Failures of coercion

A failed coercion reports one or more leaves, each of them one value that does not fit its type,
with the path to it inside the input.
-/

namespace GraphQL

/-- Why one value does not fit. -/
inductive CoercionCause where
  | unexpectedNull (ref : TypeRef)
  | refusedByScalar (type : String) (raw : Value) (fault : Fault)
  | noSuchSymbol (type : String) (raw : Value)
  | notAnInputType (type : String)
  | notAMapping (type : String) (raw : Value)
  | missingField (type field : String) (ref : TypeRef)
  | unknownField (type key : String)
  | missingArgument (argument : String) (ref : TypeRef)
  | missingVariable (name : String) (ref : TypeRef)

namespace CoercionCause

/-- What is wrong, without the place. -/
def text : CoercionCause → String
  | unexpectedNull ref =>
    "Expected non-null value of type \"" ++ ref.text ++ "\", found null; value required."
  | refusedByScalar type raw fault =>
    "Expected type \"" ++ type ++ "\", found " ++ raw.describe ++ "; " ++ fault.text
  | noSuchSymbol type raw =>
    "Value " ++ raw.describe ++ " does not exist in \"" ++ type ++ "\" enum."
  | notAnInputType type => "Type \"" ++ type ++ "\" is not an input type."
  | notAMapping type raw =>
    "Expected type \"" ++ type ++ "\" to be an object, found " ++ raw.describe ++ "."
  | missingField type field ref =>
    "Field \"" ++ type ++ "." ++ field ++ "\" of required type \"" ++ ref.text ++
      "\" was not provided."
  | unknownField type key =>
    "Field \"" ++ key ++ "\" is not defined by type \"" ++ type ++ "\"."
  | missingArgument argument ref =>
    "Argument \"" ++ argument ++ "\" of required type \"" ++ ref.text ++ "\" was not provided."
  | missingVariable name ref =>
    "Variable \"$" ++ name ++ "\" of required type \"" ++ ref.text ++ "\" was not provided."

/-- Whether the text of a failure ends with its place: not where the text names an argument or a
variable already. -/
def showsPlace : CoercionCause → Bool
  | missingArgument .. | missingVariable .. => false
  | _ => true

end CoercionCause

/-- One value that does not fit its type. -/
structure CoercionLeaf where
  cause : CoercionCause
  path : Path

namespace CoercionLeaf

/-- What is wrong, and where. -/
def message (leaf : CoercionLeaf) : String :=
  if leaf.cause.showsPlace && !leaf.path.isEmpty then
    leaf.cause.text ++ " (at \"" ++ describeInputPath leaf.path ++ "\")"
  else leaf.cause.text

/-- The class of a leaf. -/
def kind (leaf : CoercionLeaf) : FaultKind :=
  match leaf.cause with
  | .missingVariable .. => .missingVariable
  | _ => .coercion

/-- The class of the fault behind a leaf. -/
def underlying? (leaf : CoercionLeaf) : Option FaultKind :=
  match leaf.cause with
  | .refusedByScalar _ _ fault => some fault.kind
  | _ => none

end CoercionLeaf

/-- A failed coercion of the input at `path`: a first leaf and perhaps others. -/
structure CoercionFailure where
  path : Path
  first : CoercionLeaf
  others : List CoercionLeaf := []

namespace CoercionFailure

/-- All leaves in order. -/
def leaves (failure : CoercionFailure) : List CoercionLeaf :=
  failure.first :: failure.others

/-- The messages of all leaves, one after another. -/
def message (failure : CoercionFailure) : String :=
  "; ".intercalate (failure.leaves.map CoercionLeaf.message)

/-- The class of a failure: that of its leaf, if it is the only one. -/
def kind (failure : CoercionFailure) : FaultKind :=
  if failure.others.isEmpty then failure.first.kind else .coercion

/-- The place of a failure: that of its leaf, if it is the only one. -/
def inputPath (failure : CoercionFailure) : Path :=
  if failure.others.isEmpty then failure.first.path else failure.path

/-- The class of the fault behind a failure with a single leaf. -/
def underlying? (failure : CoercionFailure) : Option FaultKind :=
  if failure.others.isEmpty then failure.first.underlying? else none

end CoercionFailure

end GraphQL
