import GraphQL.Execution.Resolution

/-!
# Completing values

The value of a field becomes a position of the response, as its type says: lists item by item,
leaves by the conversion of their type, objects by executing the fields that are selected on them.
Objects are nested in a response no deeper than their selections, unless fragments lead back into
themselves; so the nesting is bounded by a budget.
-/

namespace GraphQL

variable {σ : Type}

/-- What executes the fields of an object at a path: those that some selections ask for. -/
abbrev ObjectExecution (σ : Type) :=
  ObjectType → Value → List (List Selection) → Path → Attempt σ (List (String × Position))

namespace Environment

variable (env : Environment σ)

/-- The outcome of a hook, where a fault is a failure of the position. -/
def checkType (object : ObjectType) (value : Value) : Attempt σ Unit :=
  match object.isTypeOf with
  | none => pure ()
  | some hook =>
    match env.behaviour.answer hook value with
    | .error fault =>
      if fault.kind.isCancellation then Attempt.halt .cancelled
      else if fault.kind.isFieldError then Attempt.refuse (.given fault)
      else Attempt.refuse (.checkFailed object.name fault)
    | .ok answer =>
      if answer.truthy then pure () else Attempt.refuse (.notOfType object.name value)

/-- The object type of a value of an abstract type. -/
def concreteType (type : TypeDefinition) (value : Value) : Attempt σ ObjectType :=
  match AbstractType.resolve env.registry env.behaviour.answer type value with
  | .ok object => pure object
  | .error failure => do
    Attempt.report failure.records
    match failure.cause with
    | .interrupted _ => Attempt.halt .cancelled
    | .passedOn fault => Attempt.refuse (.given fault)
    | _ => Attempt.refuse (.abstractType failure)

/-- The symbol of an internal value of an enum. -/
def completeEnum (type : EnumType) (value : Value) : Attempt σ Position :=
  match type.symbolFor? value with
  | some symbol => pure (.leaf (.str symbol))
  | none => Attempt.refuse (.noSymbol type.name value)

/-- The serialized form of a value of a scalar. -/
def completeScalar (type : ScalarType) (value : Value) : Attempt σ Position :=
  match type.serialize.apply env.behaviour.convert value with
  | .error fault =>
    if fault.kind.isCancellation then Attempt.halt .cancelled
    else Attempt.refuse (.serialization fault)
  | .ok serialized =>
    if serialized.isNull then Attempt.refuse (.nullSerialized type.name value)
    else pure (.leaf serialized)

/-- A part of several that belong together. One that is itself an error object counts as one that
raised it. -/
def checked {α : Type} (positionOf : α → Position) (part : Exec σ α) : Exec σ α := do
  let found ← part
  match (positionOf found).fault? with
  | some fault => Exec.halt (.escaped .completion fault)
  | none => pure found

/-- What becomes of parts that belong together, from their results or from why they halted. -/
def settleTogether {α : Type} : Except Halt (List α) → Attempt σ (List α)
  | .ok found => pure found
  | .error (.escaped origin fault) => Attempt.raise origin fault
  | .error why => Attempt.halt why

/-- The positions of parts that belong together. -/
def together {α : Type} (positionOf : α → Position) (parts : List (Exec σ α)) :
    Attempt σ (List α) := do
  let outcome ← liftM (Exec.siblings (parts.map (checked positionOf))).outcome
  settleTogether outcome

/-- The position of a value of an object type, whose fields are executed by `execute`. -/
def completeObject (execute : ObjectExecution σ) (target : Target) (required : Bool)
    (path : Path) (object : ObjectType) (value : Value) : Attempt σ Position :=
  .object required <$>
    execute object value (target.group.nodes.map FieldNode.selections) path

/-- The position of a value that is not null, by the type of a name. -/
def completeNamed (execute : ObjectExecution σ) (target : Target) (required : Bool)
    (name : String) (path : Path) (value : Value) : Attempt σ Position := do
  let value := (← get).world.settleValue value
  match env.registry.type? name with
  | none => Attempt.halt (.escaped .registry { kind := .typeNotFound, message := name })
  | some (.enum type) => completeEnum type value
  | some (.scalar type) => env.completeScalar type value
  | some (.object object) => do
    env.checkType object value
    completeObject execute target required path object value
  | some type =>
    if type.isAbstract then do
      let object ← env.concreteType type value
      completeObject execute target required path object value
    else Attempt.refuse (.unexpectedType type)

/-- The items of a value of a list type. A stream gives its items once, and raises what it raises
after them each time it is read. -/
def itemsOf (target : Target) (value : Value) : Attempt σ (List Value) :=
  match value.bare with
  | .list items | .tuple items => pure items
  | .stream identity items failure => do
    let remaining ←
      liftM (Exec.withWorld (World.takeItems · identity items) : Exec σ (List Value))
    match failure with
    | none => pure remaining
    | some fault => Attempt.raise .iteration fault
  | other => Attempt.refuse (.notIterable target.label other)

/-- An item of a list, once it is there. -/
def awaitItem (item : Value) : Attempt σ Value := do
  match ← liftM (Exec.await item : Exec σ (Except Fault Value)) with
  | .ok value => pure value
  | .error fault =>
    if fault.kind.isCancellation then Attempt.halt .cancelled
    else Attempt.refuse (failureOf fault)

/-- The position of a value of a type. -/
def complete (execute : ObjectExecution σ) (target : Target) :
    TypeRef → Path → Value → Attempt σ Position
  | .named name required, path, value =>
    if value.isNull then completeNull required
    else env.completeNamed execute target required name path value
  | .list item required, path, value =>
    if value.isNull then completeNull required
    else do
      let items ← itemsOf target value
      let parts := items.mapIdx fun index item' =>
        let itemPath := path ++ [.index index]
        Attempt.position item itemPath target.group.locations do
          let value ← awaitItem item'
          complete execute target item itemPath value
      .list required <$> together id parts
where
  /-- Null, where it is admitted. -/
  completeNull (required : Bool) : Attempt σ Position :=
    if required then Attempt.refuse (.nullValue target.label) else pure .null

/-- The position of a field, whose objects are executed by `execute`. -/
def executeTarget (execute : ObjectExecution σ) (object : ObjectType) (target : Target)
    (parent : Value) (path : Path) : Exec σ Position :=
  Attempt.position target.field.type path target.group.locations do
    if target.field.name = Introspection.typenameField.name then
      env.complete execute target target.field.type path (.str object.name)
    else
      let args ← Attempt.ofCoercion ((env.coercion (← get).world).coerceArguments
        defaultCoercionDepth target.field.args target.group.first.arguments)
      let value ← env.resolve target path parent args
      env.complete execute target target.field.type path value

/-- The position of a group of selections on an object. -/
def executeGroup (execute : ObjectExecution σ) (object : ObjectType) (parent : Value)
    (path : Path) (group : FieldGroup) : Exec σ Position :=
  match env.registry.field? (.object object) group.first.name with
  | some field => env.executeTarget execute object ⟨object.name, field, group⟩ parent path
  | none =>
    Attempt.position (.named object.name) path group.locations
      (Attempt.refuse (.unknownField group.first.name object.name))

/-- The groups of the fields that some selections ask for on an object. -/
def collectGroups (object : ObjectType) (selections : List (List Selection)) :
    Attempt σ (List FieldGroup) := do
  let (outcome, collected) := (env.collection (← get).world object).collectAll selections
  Attempt.report collected.records
  let () ← Attempt.ofCoercion ⟨outcome, []⟩
  pure collected.groups

/-- Executes the fields of an object, at most `depth` objects deep. -/
def executeObject : Nat → ObjectExecution σ
  | 0 => fun _ _ _ _ => Attempt.halt .tooDeep
  | depth + 1 => fun object parent selections path => do
    let groups ← env.collectGroups object selections
    let parts := groups.map fun group =>
      (group.key, ·) <$>
        env.executeGroup (executeObject depth) object parent (path ++ [.key group.key]) group
    together Prod.snd parts

end Environment

end GraphQL
