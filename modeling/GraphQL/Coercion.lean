import GraphQL.Coercion.Outcome
import GraphQL.Registry

/-!
# Input coercion

Raw input, which is a literal or the value of a variable, becomes an internal value of an input
type. Coercion follows the type: it wraps single values into lists, fills in defaults, looks
variables up where they stand, and turns symbols into the values behind them. A variable that was
not supplied is as good as nothing, except inside a list, where it is null.

Defaults and variables may lead back into a type that is being coerced, so that the depth of a
coercion is bounded.
-/

namespace GraphQL

/-- What happens to keys of an input object that its type does not declare. -/
inductive UnknownFieldPolicy where
  | reject
  | ignore
  deriving DecidableEq

/-- The keyword of a policy. -/
def UnknownFieldPolicy.keyword : UnknownFieldPolicy → String
  | reject => "reject"
  | ignore => "ignore"

/-- What coercion depends on besides the input and its type. -/
structure CoercionContext where
  registry : Registry
  /-- The conversions of scalars that are user code. -/
  convert : Handle → Value → Except Fault Value
  variableValues : Entries Value := []
  policy : UnknownFieldPolicy := .reject
  /-- How a value shows what has become of the error objects in it. -/
  settle : Value → Value := id

/-- A scalar conversion applied to a value. -/
def Conversion.apply (conversion : Conversion) (convert : Handle → Value → Except Fault Value)
    (value : Value) : Except Fault Value :=
  match conversion with
  | .identity => .ok value
  | .builtin scalar direction => scalar.convert direction value.plain
  | .given handle => convert handle value.plain

namespace CoercionContext

variable (context : CoercionContext)

/-- Whether a raw value is a variable that was not supplied. -/
def isUnsupplied (raw : Value) : Bool :=
  match raw with
  | .var name => !Entries.contains context.variableValues name
  | _ => false

/-- The value that a raw value stands for, `Value.undefined` for a variable that was not
supplied. -/
def substitute (raw : Value) : Value :=
  match raw with
  | .var name => (Entries.get? context.variableValues name).getD .undefined
  | _ => raw

/-- The internal value of a scalar. -/
def parseScalar (type : ScalarType) (raw : Value) (path : Path) : Coercion Value :=
  match type.parse.apply context.convert raw with
  | .ok value => pure value
  | .error fault =>
    if fault.kind.isCancellation then .stop (.interrupted fault)
    else .fail (.refusedByScalar type.name raw fault) path

/-- The internal value of an enum symbol. -/
def parseSymbol (type : EnumType) (raw : Value) (path : Path) : Coercion Value :=
  match raw.text?.bind type.valueFor? with
  | some entry => pure (type.internalValue entry)
  | none => .fail (.noSuchSymbol type.name raw) path

/-- The items that a raw value gives to a list: its own, or itself alone. -/
def items : Value → List Value
  | .list items | .tuple items => items
  | value => [value]

/-- An item of a list, where nothing counts as null. -/
def itemValue (value : Value) : Value :=
  if value.isUndefined then .null else value

/-- The coercions of the items of a list. -/
def itemParts (recur : TypeRef → Value → Path → Coercion Value) (item : TypeRef) (path : Path)
    (items : List Value) : List (Coercion Value) :=
  items.mapIdx fun index raw => itemValue <$> recur item raw (path ++ [.index index])

/-- A value under the key that hands it on. -/
def keyed (arg : Argument) (value : Value) : Option (String × Value) :=
  some (arg.key, value)

/-- The value of a member that was not supplied: its default, nothing, or a failure. -/
def absent (recur : TypeRef → Value → Path → Coercion Value) (arg : Argument) (path : Path)
    (missing : Coercion (Option (String × Value))) : Coercion (Option (String × Value)) :=
  if arg.hasDefault then keyed arg <$> recur arg.type arg.default path
  else if arg.type.isNonNull then missing
  else pure none

/-- The value of a member that was perhaps supplied. -/
def member (recur : TypeRef → Value → Path → Coercion Value) (arg : Argument) (raw : Value)
    (path : Path) (missing : Coercion (Option (String × Value))) :
    Coercion (Option (String × Value)) := do
  if raw.isUndefined then absent recur arg path missing
  else
    let value ← recur arg.type raw path
    if value.isUndefined then absent recur arg path missing else pure (keyed arg value)

/-- The raw value of an input field, `Value.undefined` when it was not supplied. -/
def rawField (entries : Entries Value) (field : Argument) : Value :=
  let raw := (Entries.get? entries field.name).getD .undefined
  if context.isUnsupplied raw then .undefined else raw

/-- The coercion of one field of an input object. -/
def fieldPart (recur : TypeRef → Value → Path → Coercion Value) (type : InputType)
    (entries : Entries Value) (path : Path) (field : Argument) :
    Coercion (Option (String × Value)) :=
  member recur field (context.rawField entries field) (path ++ [.key field.name])
    (.fail (.missingField type.name field.name field.type) path)

/-- The treatment of a key that the type does not declare. -/
def unknownPart (type : InputType) (path : Path) (key : String) :
    Coercion (Option (String × Value)) :=
  match context.policy with
  | .reject => .fail (.unknownField type.name key) path
  | .ignore => do
    Coercion.ignore ⟨key, type.name⟩
    return none

/-- The keys of an input object that its type does not declare. -/
def unknownKeys (type : InputType) (entries : Entries Value) : List String :=
  (Entries.keys entries).filter fun key => (Member.find? type.fields key).isNone

/-- The internal value of an input object: its fields in the order of declaration. -/
def parseObject (recur : TypeRef → Value → Path → Coercion Value) (type : InputType)
    (raw : Value) (path : Path) : Coercion Value :=
  match raw with
  | .map entries => do
    let parts ← Coercion.gather path
      (type.fields.map (context.fieldPart recur type entries path) ++
        (unknownKeys type entries).map (context.unknownPart type path))
    return .map (Entries.ofList (parts.filterMap id))
  | _ => .fail (.notAMapping type.name raw) path

/-- The internal value of a raw value that is not null, by the type of a name. -/
def parseNamed (recur : TypeRef → Value → Path → Coercion Value) (name : String) (raw : Value)
    (path : Path) : Coercion Value :=
  let raw := context.settle raw
  match context.registry.type? name with
  | none => .stop (.unknownType name)
  | some (.scalar type) => context.parseScalar type raw path
  | some (.enum type) => parseSymbol type raw path
  | some (.input type) => context.parseObject recur type raw path
  | some type => .fail (.notAnInputType type.name) path

/-- The coercion of a raw value where null is admitted. -/
def coerceNullable (recur : TypeRef → Value → Path → Coercion Value) (ref : TypeRef)
    (raw : Value) (path : Path) : Coercion Value :=
  if context.isUnsupplied raw then pure .undefined
  else
    match context.substitute raw, ref with
    | .null, _ => pure .null
    | raw, .list item _ =>
      .list <$> Coercion.gather path (itemParts recur item path (items raw))
    | raw, .named name _ => context.parseNamed recur name raw path

/-- The coercion of a raw value, whose parts are coerced by `recur`. -/
def coerceWith (recur : TypeRef → Value → Path → Coercion Value) (ref : TypeRef) (raw : Value)
    (path : Path) : Coercion Value :=
  if ref.isNonNull then
    match raw with
    | .var name =>
      if context.isUnsupplied raw then
        .stop (.failed { path := [], first := ⟨.missingVariable name ref, []⟩ })
      else required (context.substitute raw)
    | _ => required raw
  else context.coerceNullable recur ref raw path
where
  /-- Null is refused before anything else. -/
  required (raw : Value) : Coercion Value :=
    if raw.isNull then .fail (.unexpectedNull ref) path
    else context.coerceNullable recur ref raw path

/-- The coercion of a raw value of a type, at most `depth` levels deep. -/
def coerce : Nat → TypeRef → Value → Path → Coercion Value
  | 0 => fun _ _ _ => .stop .tooDeep
  | depth + 1 => context.coerceWith (coerce depth)

/-- The coercion of one argument from the literals of a selection. -/
def argumentPart (depth : Nat) (literals : Entries Value) (arg : Argument) :
    Coercion (Option (String × Value)) :=
  let path : Path := [.key arg.name]
  match Entries.get? literals arg.name with
  | none => member (context.coerce depth) arg .undefined path (missing arg path)
  | some raw =>
    match raw with
    | .var name =>
      if context.isUnsupplied raw then
        if !arg.hasDefault && arg.type.isNonNull then
          .stop (.failed { path := [], first := ⟨.missingVariable name arg.type, []⟩ })
        else member (context.coerce depth) arg .undefined path (missing arg path)
      else member (context.coerce depth) arg raw path (missing arg path)
    | _ => member (context.coerce depth) arg raw path (missing arg path)
where
  /-- A required argument that was not supplied. -/
  missing (arg : Argument) (path : Path) : Coercion (Option (String × Value)) :=
    .fail (.missingArgument arg.name arg.type) path

/-- The declared arguments from the literals of a selection, under the keys that hand them on. -/
def coerceArguments (depth : Nat) (args : List Argument) (literals : Entries Value) :
    Coercion (Entries Value) := do
  let parts ← Coercion.gather [] (args.map (context.argumentPart depth literals))
  return Entries.ofList (parts.filterMap id)

end CoercionContext

/-- How deep a coercion goes unless told otherwise. -/
def defaultCoercionDepth : Nat := 1000

end GraphQL
