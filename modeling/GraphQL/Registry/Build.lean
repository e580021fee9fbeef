import GraphQL.Definition.Agreement
import GraphQL.Directive
import GraphQL.Log
import GraphQL.Registry
import GraphQL.Registry.References
import GraphQL.Registry.Validation

/-!
# Building a registry

The definitions of a schema, together with the built-in scalars, the introspection types and the
specified directives, form a registry if nothing is wrong with them; otherwise every problem is
reported at once. Kinds of members and interfaces are looked at only when every reference leads to
a definition.
-/

namespace GraphQL

/-- What a schema gives for the root type of an operation. -/
inductive RootType where
  | reference (ref : TypeRef)
  | definition (type : TypeDefinition)
  | invalid (value : Value)

/-- A value in the place of a root type: a name, or null where there is none. -/
def RootType.ofValue? : Value → Option RootType
  | .null => none
  | .str name => some (.reference (.named name))
  | value => some (.invalid value)

/-- What a schema lists among its types. -/
inductive ListedType where
  | definition (type : TypeDefinition)
  /-- The definition at an earlier position of the list once more. -/
  | again (position : Nat)
  | stray (value : Value)

/-- An earlier entry of a list of types once more. A negative position counts from the end. -/
def ListedType.repeated (entries : List ListedType) (position : Int) :
    Except Fault ListedType :=
  let position := if position < 0 then position + entries.length else position
  match if position < 0 then none else entries[position.toNat]? with
  | some (.again earlier) => .ok (.again earlier)
  | some (.stray value) => .ok (.stray value)
  | some (.definition _) => .ok (.again position.toNat)
  | none => .error { kind := .index, message := "list index out of range" }

/-- A definition that is to be added, with its position if it stands in the list of types. -/
structure Candidate where
  type : TypeDefinition
  position : Option Nat := none

namespace Candidate

/-- Whether two candidates are one definition that is listed twice. -/
def isSame (a b : Candidate) : Bool :=
  a.position.isSome && a.position == b.position

/-- Whether two candidates may have one name. -/
def agrees (a b : Candidate) : Bool :=
  a.isSame b || a.type.agrees b.type

end Candidate

/-- What a schema lists among its directives. -/
inductive ListedDirective where
  | directive (directive : Directive)
  /-- The directive at a place among the specified ones and those of the list once more. -/
  | again (place : Nat)

instance : Coe (List Directive) (List ListedDirective) :=
  ⟨List.map .directive⟩

/-- A directive with the place where it was given first: two with one place are the same. -/
structure PlacedDirective where
  directive : Directive
  place : Nat

/-- The parts of a schema. -/
structure Schema where
  query : Option RootType := none
  mutation : Option RootType := none
  subscription : Option RootType := none
  types : List ListedType := []
  directives : List ListedDirective := []

/-- Why no registry could be built. -/
inductive BuildError where
  | invalid (problems : List Problem)
  | obstructed (obstacle : Validation.Obstacle)
  | notAType (value : Value)

namespace BuildError

/-- The text of a failed build. -/
def message : BuildError → String
  | invalid problems =>
    "Invalid schema:\n - " ++ "\n - ".intercalate (problems.map Problem.message)
  | obstructed (.brokenReference ref) => ref.describe
  | obstructed .withoutKind => missingAttributeText "NamedType" "kind"
  | notAType value => (DeclarationError.notAType value).message

/-- The class of a failed build. -/
def kind : BuildError → FaultKind
  | invalid _ => .schemaBuild
  | obstructed (.brokenReference _) => .key
  | obstructed .withoutKind => .missingAttribute
  | notAType _ => .type

/-- The problems that were found. -/
def problems : BuildError → List Problem
  | invalid problems => problems
  | _ => []

end BuildError

namespace Schema

/-- The root type of an operation, where the schema has one. -/
def root? (schema : Schema) : OperationKind → Option RootType
  | .query => schema.query
  | .mutation => schema.mutation
  | .subscription => schema.subscription

/-- The root types with their operations. -/
def roots (schema : Schema) : List (OperationKind × RootType) :=
  OperationKind.all.filterMap fun kind => (schema.root? kind).map (kind, ·)

/-- The first value that stands where a root type belongs. -/
def invalidRoot? (schema : Schema) : Option Value :=
  schema.roots.findSome? fun
    | (_, .invalid value) => some value
    | _ => none

/-- The references to the root types with their operations. -/
def rootReferences (schema : Schema) : List (OperationKind × TypeRef) :=
  schema.roots.filterMap fun
    | (kind, .reference ref) => some (kind, ref)
    | (kind, .definition type) => some (kind, .named type.name)
    | (_, .invalid _) => none

/-- The names of the root types with their operations. -/
def rootNames (schema : Schema) : List (OperationKind × String) :=
  schema.rootReferences.filterMap fun (kind, ref) => ref.plainName?.map (kind, ·)

/-- The types of every schema. -/
def builtinTypes : List TypeDefinition :=
  BuiltinScalar.all.map (fun scalar => .scalar scalar.type) ++ Introspection.types

/-- What an entry of the list of types gives: a candidate, or a value that is none. -/
def candidate? (schema : Schema) : ListedType × Nat → Option (Except Value Candidate)
  | (.definition type, position) => some (.ok { type, position := some position })
  | (.again position, _) =>
    match schema.types[position]? with
    | some (.definition type) => some (.ok { type, position := some position })
    | _ => none
  | (.stray value, _) => some (.error value)

/-- The definitions in the list of types, or the first value there that is none. -/
def listed (schema : Schema) : Except Value (List TypeDefinition) :=
  (schema.types.zipIdx.filterMap schema.candidate?).mapM (Except.map Candidate.type)

/-- Everything that is given for a type, in the order in which it is added. -/
def candidates (schema : Schema) : List (Except Value Candidate) :=
  builtinTypes.map (fun type => .ok { type }) ++
    schema.roots.filterMap (fun
      | (_, .definition type) => some (.ok { type })
      | _ => none) ++
    schema.types.zipIdx.filterMap schema.candidate?

/-- Adds one of them to the candidates and problems found before. -/
def add (found : List Candidate × List Problem) :
    Except Value Candidate → List Candidate × List Problem
  | .error value => (found.1, found.2 ++ [.notADefinition value])
  | .ok candidate =>
    let name := candidate.type.name
    match found.1.find? (·.type.name == name) with
    | none => (found.1 ++ [candidate], found.2)
    | some existing =>
      if existing.agrees candidate then found else (found.1, found.2 ++ [.conflictingNames name])

/-- The definitions of a schema by name, and the problems in collecting them. -/
def collect (schema : Schema) : List TypeDefinition × List Problem :=
  let (found, problems) := schema.candidates.foldl add ([], [])
  (found.map Candidate.type, problems)

/-- The directives of every schema, then those of the list. -/
def listedDirectives (schema : Schema) : List ListedDirective :=
  Directive.specified.map .directive ++ schema.directives

/-- The directive at a place. -/
def directiveAt? (schema : Schema) (place : Nat) : Option PlacedDirective :=
  match schema.listedDirectives[place]? with
  | some (.directive directive) => some { directive, place }
  | _ => none

/-- What an entry of the list of directives gives. -/
def placedDirective? (schema : Schema) : ListedDirective × Nat → Option PlacedDirective
  | (.directive _, place) => schema.directiveAt? place
  | (.again place, _) => schema.directiveAt? place

/-- Everything that is given for a directive, in the order in which it is added. -/
def placedDirectives (schema : Schema) : List PlacedDirective :=
  schema.listedDirectives.zipIdx.filterMap schema.placedDirective?

/-- Puts a directive among others: in place of one of its name, otherwise at the end. -/
def putDirective (placed : PlacedDirective) : List PlacedDirective → List PlacedDirective
  | [] => [placed]
  | other :: rest =>
    if other.directive.name == placed.directive.name then placed :: rest
    else other :: putDirective placed rest

/-- Whether a directive among others has the name of another one. -/
def isRepeated (placed : PlacedDirective) (found : List PlacedDirective) : Bool :=
  found.any fun other =>
    other.directive.name == placed.directive.name && other.place != placed.place

/-- Adds one directive to the directives and problems found before. -/
def addDirective (found : List PlacedDirective × List Problem) (placed : PlacedDirective) :
    List PlacedDirective × List Problem :=
  (putDirective placed found.1,
    if isRepeated placed found.1 then found.2 ++ [.repeatedDirective placed.directive.name]
    else found.2)

/-- The directives of a schema by name, and the problems in collecting them. -/
def collectDirectives (schema : Schema) : List Directive × List Problem :=
  let (found, problems) := schema.placedDirectives.foldl addDirective ([], [])
  (found.map PlacedDirective.directive, problems)

/-- The walk over the definitions from the roots, the introspection root and all names. -/
def walk (schema : Schema) (definitions : List TypeDefinition) : List WalkEvent :=
  walkReferences definitions []
    (schema.rootReferences.map (·.2) ++
      (Introspection.schema.name :: definitions.map TypeDefinition.name).map TypeRef.named)

/-- The problem of a reference that leads nowhere. -/
def missingProblem? : WalkEvent → Option Problem
  | .missing source place target => some (.undefinedReference source place target)
  | .missingRoot name => some (.undefinedRoot name)
  | _ => none

/-- The problems of references and roots in a table of the types that were reached. -/
def referenceProblems (schema : Schema) (events : List WalkEvent) (table : List TypeDefinition)
    (directives : List Directive) : List Problem :=
  events.filterMap missingProblem? ++
    directives.flatMap (fun directive => directive.args.flatMap fun arg =>
      Validation.demand (lookupType? table arg.type.name).isSome
        (.undefinedDirectiveType directive.name arg.name arg.type.name)) ++
    schema.rootNames.flatMap fun (kind, name) =>
      match lookupType? table name with
      | some (.object _) | none => []
      | some _ => [.rootNotObject kind name]

/-- The problems that are found before kinds of members and interfaces are looked at. -/
def definitionProblems (schema : Schema) (events : List WalkEvent) : List Problem :=
  schema.collect.2 ++ Validation.demand schema.query.isSome .noQueryRoot ++
    schema.collectDirectives.2 ++
    schema.referenceProblems events (visitedTypes events) schema.collectDirectives.1

/-- The table of what the walk over the definitions came across. -/
def table (schema : Schema) (events : List WalkEvent) : Registry :=
  let root kind := (schema.rootNames.find? (·.1 == kind)).map (·.2)
  { types := visitedTypes events
    query := (root .query).getD ""
    mutation := root .mutation
    subscription := root .subscription
    directives := schema.collectDirectives.1 }

/-- The registry of a schema, from what the walk over its definitions came across. -/
def registry (schema : Schema) (events : List WalkEvent) : Except BuildError Registry :=
  let table := schema.table events
  let first := schema.definitionProblems events
  if !first.isEmpty then .error (.invalid first)
  else match Validation.obstacle? table.types table.directives with
    | some obstacle => .error (.obstructed obstacle)
    | none =>
      let second := Validation.problems table.types table.directives
      if !second.isEmpty then .error (.invalid second) else .ok table

end Schema

/-- The registry of a schema. -/
def Registry.build (schema : Schema) : Except BuildError Registry :=
  match schema.invalidRoot? with
  | some value => .error (.notAType value)
  | none => schema.registry (schema.walk schema.collect.1)

/-- What building a schema reports. -/
def Registry.buildRecords : Except BuildError Registry → List LogRecord
  | .error failure => failure.problems.map fun problem =>
    ⟨.error, .registry, "Schema build problem: " ++ problem.message⟩
  | .ok registry =>
    let count := registry.types.length
    let built : LogRecord := ⟨.info, .registry,
      "Built type registry with " ++ toString count ++ " types (" ++
        toString (count - Schema.builtinTypes.length) ++ " user-defined)"⟩
    let recursive := registry.recursiveNames.mergeSort (fun a b => a ≤ b)
    if recursive.isEmpty then [built]
    else [built, ⟨.debug, .registry,
      "Recursive types in registry: [" ++
        ", ".intercalate (recursive.map Text.quoted) ++ "]"⟩]

end GraphQL
