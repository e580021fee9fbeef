import GraphQL.Execution

/-!
# The layout of a response

What the positions of a response have to look like, given the registry and the selections: which
objects are executed and with which selections, which groups of fields they have, and how the
positions of those fields follow their declared types. Besides, which recorded errors belong to
which positions.
-/

namespace GraphQL

variable {σ : Type}

/-- An object type that a value of the type of a name may have: that type itself, or a possible type
of an abstract one. -/
def Registry.CanBe (registry : Registry) (name : String) (object : ObjectType) : Prop :=
  registry.type? name = some (.object object) ∨
    ∃ type, registry.type? name = some type ∧ type.isAbstract = true ∧
      registry.type? object.name = some (.object object) ∧
      registry.isPossible name object.name = true

namespace Environment

variable (env : Environment σ)

/-- The selections on an object give these groups, in the order in which their keys occur first. -/
def Collects (object : ObjectType) (selections : List (List Selection))
    (groups : List FieldGroup) : Prop :=
  ∃ world, ((env.collection world object).collectAll selections).1 = .ok () ∧
    ((env.collection world object).collectAll selections).2.groups = groups

/-- An object type that an execution may come to, with the selections there and with the number of
objects around it. -/
inductive Encounters (root : ObjectType) : Nat → ObjectType → List (List Selection) → Prop where
  | root : Encounters root 0 root [env.request.operation.selections]
  | inside {level : Nat} {object inner : ObjectType} {selections : List (List Selection)}
      {groups : List FieldGroup} {group : FieldGroup} {field : Field} :
      Encounters root level object selections → env.Collects object selections groups →
      group ∈ groups → env.registry.field? (.object object) group.first.name = some field →
      env.registry.CanBe field.type.name inner →
      Encounters root (level + 1) inner (group.nodes.map FieldNode.selections)

/-- A group of selections on an object that an execution may come to. -/
structure Reaches (root : ObjectType) (level : Nat) (object : ObjectType)
    (group : FieldGroup) : Prop where
  reached : ∃ selections groups, env.Encounters root level object selections ∧
    env.Collects object selections groups ∧ group ∈ groups

/-- A field of an object that an execution may come to, with the group that asks for it. -/
structure Visits (root : ObjectType) (level : Nat) (object : ObjectType) (group : FieldGroup)
    (field : Field) : Prop extends env.Reaches root level object group where
  found : env.registry.field? (.object object) group.first.name = some field

/-- A field that an object type lacks is selected on an object that an execution may come to. -/
def Misses (root : ObjectType) : Prop :=
  ∃ level object group, env.Reaches root level object group ∧
    env.registry.field? (.object object) group.first.name = none

variable {env}

/-- Below a field stand the objects that its type admits. -/
theorem Visits.encounters {root object inner : ObjectType} {level : Nat} {group : FieldGroup}
    {field : Field} (visited : env.Visits root level object group field)
    (admitted : env.registry.CanBe field.type.name inner) :
    env.Encounters root (level + 1) inner (group.nodes.map FieldNode.selections) := by
  obtain ⟨selections, groups, encountered, collected, member⟩ := visited.reached
  exact .inside encountered collected member visited.found admitted

variable (env)

/-- A value that the type of a name has in a response: the symbol of an internal value, or what
serializing a value gives unless that is null. -/
inductive IsLeaf (name : String) : Value → Prop where
  | enum {type : EnumType} {raw : Value} {symbol : String} :
      env.registry.type? name = some (.enum type) → type.symbolFor? raw = some symbol →
      IsLeaf name (.str symbol)
  | scalar {type : ScalarType} {raw value : Value} :
      env.registry.type? name = some (.scalar type) →
      type.serialize.apply env.behaviour.convert raw = .ok value → value.isNull = false →
      IsLeaf name value

mutual

/-- A position is laid out as a reference and the selections below it say. -/
def Fits (ref : TypeRef) (selections : List (List Selection)) : Position → Prop
  | .null => ref.isNonNull = false
  | .leaf value => ∃ name required, ref = .named name required ∧ env.IsLeaf name value
  | .failed required _ => required = ref.isNonNull
  | .list required items =>
    ∃ item, ref = .list item required ∧ ItemsFit item selections items
  | .object required fields =>
    ∃ name object groups, ref = .named name required ∧ env.registry.CanBe name object ∧
      env.Collects object selections groups ∧ FieldsFit object groups fields

/-- The items of a list are laid out as the type of an item says. -/
def ItemsFit (item : TypeRef) (selections : List (List Selection)) : List Position → Prop
  | [] => True
  | position :: rest => Fits item selections position ∧ ItemsFit item selections rest

/-- The fields of an object are laid out as its type says: one for each group, of which one without
a field has failed and may be null. -/
def FieldsFit (object : ObjectType) (groups : List FieldGroup) :
    List (String × Position) → Prop
  | [] => groups = []
  | (key, position) :: rest =>
    ∃ group others, groups = group :: others ∧ key = group.key ∧
      (match env.registry.field? (.object object) group.first.name with
        | some field => Fits field.type (group.nodes.map FieldNode.selections) position
        | none => ∃ error, position = .failed false error) ∧
      FieldsFit object others rest

end

/-- The position of a group of selections on an object is laid out as the type of its field says;
one without a field has failed and may be null. -/
def GroupFits (object : ObjectType) (group : FieldGroup) (position : Position) : Prop :=
  match env.registry.field? (.object object) group.first.name with
  | some field => env.Fits field.type (group.nodes.map FieldNode.selections) position
  | none => ∃ error, position = .failed false error

end Environment

namespace FieldError

/-- An error belongs to a path. One that user code made keeps the path that it came with. -/
def IsAt (error : FieldError) (path : Path) : Prop :=
  error.path = some path ∨ ∃ fault, error.cause = .given fault

/-- An error belongs to a path or to one below it, as every error belongs below the root. -/
def IsUnder (error : FieldError) (path : Path) : Prop :=
  path = [] ∨ ∃ below, error.IsAt (path ++ below)

theorem IsAt.isUnder {error : FieldError} {path : Path} (placed : error.IsAt path) :
    error.IsUnder path :=
  Or.inr ⟨[], by rwa [List.append_nil]⟩

theorem IsUnder.of_append {error : FieldError} {path more : Path}
    (under : error.IsUnder (path ++ more)) : error.IsUnder path := by
  rcases under with root | ⟨below, placed⟩
  · exact Or.inl (List.append_eq_nil_iff.mp root).1
  · exact Or.inr ⟨more ++ below, by rwa [← List.append_assoc]⟩

end FieldError

namespace Position

mutual

/-- The errors recorded while a position at a path was completed are those of the positions that
failed, each at its path. Where a value was lost after parts of it had been completed, the errors of
those parts come first. -/
def Accounts (path : Path) (noted : List FieldError) : Position → Prop
  | null | leaf _ => noted = []
  | failed _ error =>
    error.IsAt path ∧ ∃ inner, noted = inner ++ [error] ∧ ∀ lost ∈ inner, lost.IsUnder path
  | list _ items => ItemsAccount path 0 noted items
  | object _ fields => FieldsAccount path noted fields

/-- The errors recorded while the items of a list from an index on were completed. -/
def ItemsAccount (path : Path) (index : Nat) (noted : List FieldError) : List Position → Prop
  | [] => noted = []
  | item :: rest =>
    ∃ here later, noted = here ++ later ∧ Accounts (path ++ [.index index]) here item ∧
      ItemsAccount path (index + 1) later rest

/-- The errors recorded while the fields of an object were completed. -/
def FieldsAccount (path : Path) (noted : List FieldError) : List (String × Position) → Prop
  | [] => noted = []
  | (key, field) :: rest =>
    ∃ here later, noted = here ++ later ∧ Accounts (path ++ [.key key]) here field ∧
      FieldsAccount path later rest

end

end Position

end GraphQL
