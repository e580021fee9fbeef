import GraphQL.Registry

/-!
# The reference graph of a registry

Which types refer to which, directly or through others.
-/

namespace GraphQL.Registry

/-- The names that a definition refers to. -/
def targets (type : TypeDefinition) : List String :=
  type.references.map Reference.target

/-- The names that can be reached from some names, those included. -/
def reachable (registry : Registry) (start : List String) : List String :=
  visitedNames (walk registry.types start)

/-- The other types that a type depends on, in order of registration; none for an unknown name. -/
def dependencies? (registry : Registry) (name : String) : Option (List String) :=
  (registry.type? name).map fun _ =>
    let reached := registry.reachable [name]
    registry.names.filter fun other => other != name && reached.contains other

/-- The types that refer to a type directly, in order of registration; none for an unknown
name. -/
def referrers? (registry : Registry) (name : String) : Option (List String) :=
  (registry.type? name).map fun _ =>
    (registry.types.filter fun type => (targets type).contains name).map TypeDefinition.name

/-- Whether a type refers to itself, directly or through others. -/
def isRecursive (registry : Registry) (type : TypeDefinition) : Bool :=
  (registry.reachable (targets type)).contains type.name

/-- The types that refer to themselves, in order of registration. -/
def recursiveNames (registry : Registry) : List String :=
  (registry.types.filter registry.isRecursive).map TypeDefinition.name

end GraphQL.Registry
