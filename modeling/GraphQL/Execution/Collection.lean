import GraphQL.Coercion
import GraphQL.Directive
import GraphQL.Operation

/-!
# Collecting the fields of an object

The selections on an object are read depth first. Fields with one response key form a group, and the
groups stand in the order in which their keys occur first. A fragment is read where its condition
covers the object, and each named fragment is read once; so the reading ends, also where fragments
spread one another.
-/

namespace GraphQL

/-- The field selections under one response key, of which the first gives the arguments. -/
structure FieldGroup where
  first : FieldNode
  others : List FieldNode := []

namespace FieldGroup

/-- The response key of a group. -/
def key (group : FieldGroup) : String :=
  group.first.responseKey

/-- The field selections of a group in order. -/
def nodes (group : FieldGroup) : List FieldNode :=
  group.first :: group.others

/-- The places of a group in the source text. -/
def locations (group : FieldGroup) : List Location :=
  group.nodes.filterMap FieldNode.location

/-- Puts a field selection into the group of its response key, or into a new group at the end. -/
def put (node : FieldNode) : List FieldGroup → List FieldGroup
  | [] => [{ first := node }]
  | group :: rest =>
    if group.key = node.responseKey then
      { group with others := group.others ++ [node] } :: rest
    else group :: put node rest

end FieldGroup

/-- What has been collected so far: the groups, the fragments that were spread, and those of them
that are not defined. -/
structure Collected where
  groups : List FieldGroup := []
  spread : List String := []
  undefined : List String := []

/-- A step of collecting. -/
abbrev Collector := ExceptT CoercionStop (StateM Collected)

/-- What collecting depends on besides the selections. -/
structure CollectionContext where
  registry : Registry
  convert : Handle → Value → Except Fault Value
  variableValues : Entries Value
  fragments : Entries Fragment
  /-- The object type whose fields are collected. -/
  object : ObjectType
  /-- How a value shows what has become of the error objects in it. -/
  settle : Value → Value := id

namespace CollectionContext

variable (context : CollectionContext)

/-- How the arguments of directives are coerced. -/
def coercion : CoercionContext where
  registry := context.registry
  convert := context.convert
  variableValues := context.variableValues
  settle := context.settle

/-- Whether one directive lets its selection take part. -/
def admits (use : DirectiveUse) : Except CoercionStop Bool :=
  if use.name ≠ Directive.skipIf.name ∧ use.name ≠ Directive.includeIf.name then .ok true
  else
    match context.registry.directive? use.name with
    | none => .ok true
    | some directive =>
      match (context.coercion.coerceArguments defaultCoercionDepth directive.args
          use.arguments).outcome with
      | .error stop => .error stop
      | .ok args =>
        let condition := ((Entries.get? args "if").getD .null).truthy
        .ok (condition == (use.name == Directive.includeIf.name))

/-- Whether the directives of a selection let it take part. The first that does not decides. -/
def includes : List DirectiveUse → Except CoercionStop Bool
  | [] => .ok true
  | use :: rest =>
    match context.admits use with
    | .error stop => .error stop
    | .ok false => .ok false
    | .ok true => includes rest

/-- Whether a fragment with a type condition covers the object. -/
def covers (condition : Option String) : Bool :=
  match condition with
  | none => true
  | some name =>
    name == context.object.name ||
      match context.registry.type? name with
      | some type => type.isAbstract && context.registry.isPossible type.name context.object.name
      | none => false

/-- Reads a spread of a fragment that was not spread before, whose selections are read by
`expand`. -/
def collectSpread (expand : List Selection → Collector Unit) (name : String) :
    Collector Unit := do
  if (← get).spread.contains name then pure ()
  else
    modify fun collected => { collected with spread := collected.spread ++ [name] }
    match Entries.get? context.fragments name with
    | none =>
      modify fun collected => { collected with undefined := collected.undefined ++ [name] }
    | some fragment =>
      if context.covers (some fragment.condition) then expand fragment.selections else pure ()

mutual

/-- Reads a selection, where `expand` reads the selections of a fragment that it spreads. -/
def collectOne (expand : List Selection → Collector Unit) (selection : Selection) :
    Collector Unit :=
  match selection with
  | .field name otherKey arguments directives location selections => do
    if ← ExceptT.mk (pure (context.includes directives)) then
      let node : FieldNode :=
        { name, responseKey := responseKey name otherKey, arguments, selections, location }
      modify fun collected => { collected with groups := FieldGroup.put node collected.groups }
    else pure ()
  | .inline condition directives selections => do
    if ← ExceptT.mk (pure (context.includes directives)) then
      if context.covers condition then collectEach expand selections else pure ()
    else pure ()
  | .spread fragment directives => do
    if ← ExceptT.mk (pure (context.includes directives)) then
      context.collectSpread expand fragment
    else pure ()

/-- Reads selections in order. -/
def collectEach (expand : List Selection → Collector Unit) : List Selection → Collector Unit
  | [] => pure ()
  | selection :: rest => do
    collectOne expand selection
    collectEach expand rest

end

/-- Reads selections, following fragments that spread others at most `budget` deep. -/
def collectWithin : Nat → List Selection → Collector Unit
  | 0 => context.collectEach fun _ => pure ()
  | budget + 1 => context.collectEach (collectWithin budget)

/-- Reads selections. As each fragment is read once, fragments cannot be nested more deeply than
there are fragments. -/
def collect (selections : List Selection) : Collector Unit :=
  context.collectWithin context.fragments.length selections

/-- Collects the fields that some lists of selections have for the object. -/
def collectAll (selections : List (List Selection)) : Except CoercionStop Unit × Collected :=
  Id.run ((selections.forM context.collect).run.run {})

end CollectionContext

/-- What is reported about fragments that are not defined. -/
def Collected.records (collected : Collected) : List LogRecord :=
  collected.undefined.map fun name =>
    ⟨.warning, .executor, "Fragment " ++ name ++ " is not defined, skipping"⟩

end GraphQL
