import GraphQL.Entries
import GraphQL.Reference

/-!
# Walking over a table of definitions

A depth-first walk from some root names over everything they refer to. It keeps the names still to
be looked at on a stack and the names seen in a list, so that recursive types end it no later than
others: each definition is visited once, and each of its references is met once.
-/

namespace GraphQL

/-- What a walk comes across. -/
inductive WalkEvent where
  | visit (type : TypeDefinition)
  | edge (source : String) (place : ReferencePlace) (target : String)
  | missing (source : String) (place : ReferencePlace) (target : String)
  | missingRoot (name : String)

/-- The definition of a name in a table. -/
def lookupType? (table : List TypeDefinition) (name : String) : Option TypeDefinition :=
  table.find? (·.name == name)

/-- The table of a list of definitions: the last of those with equal names counts. -/
def typeTable (types : List TypeDefinition) : List TypeDefinition :=
  Entries.values (Entries.ofList (types.map fun type => (type.name, type)))

theorem name_of_lookupType? {table : List TypeDefinition} {name : String}
    {type : TypeDefinition} (found : lookupType? table name = some type) : type.name = name := by
  simpa using List.find?_some found

theorem mem_of_lookupType? {table : List TypeDefinition} {name : String}
    {type : TypeDefinition} (found : lookupType? table name = some type) : type ∈ table :=
  List.mem_of_find?_eq_some found

/-- What a reference of a visited definition gives rise to. -/
def referenceEvent (table : List TypeDefinition) (source : String) (reference : Reference) :
    WalkEvent :=
  match lookupType? table reference.target with
  | some _ => .edge source reference.place reference.target
  | none => .missing source reference.place reference.target

/-- The names that a definition refers to and that are defined and not yet seen. -/
def unseenTargets (table : List TypeDefinition) (seen : List String) (type : TypeDefinition) :
    List String :=
  (type.references.map Reference.target).filter fun name =>
    (lookupType? table name).isSome && !seen.contains name

/-- How many definitions of a table have not been seen. -/
def unseenCount (table : List TypeDefinition) (seen : List String) : Nat :=
  table.countP fun type => !seen.contains type.name

/-- Of two tests the stricter one counts fewer items, if some item passes only the other. -/
theorem countP_lt_countP_of_mem {α : Type} {strict lax : α → Bool} {items : List α} {item : α}
    (weaker : ∀ x, strict x = true → lax x = true) (member : item ∈ items)
    (passes : lax item = true) (fails : strict item = false) :
    items.countP strict < items.countP lax := by
  induction items with
  | nil => cases member
  | cons head rest ih =>
    have mono : rest.countP strict ≤ rest.countP lax :=
      List.countP_mono_left fun x _ => weaker x
    rw [List.countP_cons, List.countP_cons]
    rcases List.mem_cons.1 member with rfl | member
    · simp only [passes, fails, Bool.false_eq_true, ↓reduceIte]
      omega
    · have fewer := ih member
      cases strictHead : strict head with
      | true =>
        simp only [weaker head strictHead, ↓reduceIte]
        omega
      | false =>
        simp only [Bool.false_eq_true, ↓reduceIte]
        split <;> omega

theorem unseenCount_cons_lt {table : List TypeDefinition} {seen : List String} {name : String}
    {type : TypeDefinition} (found : lookupType? table name = some type)
    (fresh : seen.contains name = false) :
    unseenCount table (name :: seen) < unseenCount table seen := by
  refine countP_lt_countP_of_mem ?_ (mem_of_lookupType? found) ?_ ?_
  · intro x unseen
    simp only [List.contains_cons, Bool.not_or, Bool.and_eq_true] at unseen
    exact unseen.2
  · rw [name_of_lookupType? found, fresh]
    rfl
  · simp [name_of_lookupType? found]

/-- The walk from the names on a stack, when the names in `seen` have been visited. -/
def walkFrom (table : List TypeDefinition) (seen : List String) : List String → List WalkEvent
  | [] => []
  | name :: rest =>
    if _fresh : seen.contains name = false then
      match _found : lookupType? table name with
      | none => .missingRoot name :: walkFrom table seen rest
      | some type =>
        .visit type :: type.references.map (referenceEvent table name) ++
          walkFrom table (name :: seen) (unseenTargets table (name :: seen) type ++ rest)
    else walkFrom table seen rest
termination_by stack => (unseenCount table seen, stack.length)
decreasing_by
  · exact Prod.Lex.right _ (by simp)
  · exact Prod.Lex.left _ _ (unseenCount_cons_lt _found _fresh)
  · exact Prod.Lex.right _ (by simp)

/-- The walk from some roots. -/
def walk (table : List TypeDefinition) (roots : List String) : List WalkEvent :=
  walkFrom table [] roots

namespace WalkEvent

/-- The definition visited. -/
def visited? : WalkEvent → Option TypeDefinition
  | visit type => some type
  | _ => none

/-- The source, target and place of a reference that was followed. -/
def edge? : WalkEvent → Option (String × String × String)
  | edge source place target => some (source, target, place.text)
  | _ => none

/-- The source, place and target of a reference, or of a root, that leads nowhere. -/
def missing? : WalkEvent → Option (String × String × String)
  | missing source place target => some (source, place.text, target)
  | missingRoot name => some ("<root>", "root", name)
  | _ => none

end WalkEvent

/-- The definitions that a walk visits, in order. -/
def visitedTypes (events : List WalkEvent) : List TypeDefinition :=
  events.filterMap WalkEvent.visited?

/-- The names of the definitions that a walk visits. -/
def visitedNames (events : List WalkEvent) : List String :=
  (visitedTypes events).map TypeDefinition.name

/-- The walk from some references in turn, when the names in `seen` have been visited. A reference
with a list or a non-null in it leads nowhere, whatever names there are. -/
def walkReferences (table : List TypeDefinition) (seen : List String) :
    List TypeRef → List WalkEvent
  | [] => []
  | ref :: rest =>
    match ref.plainName? with
    | none => .missingRoot ref.text :: walkReferences table seen rest
    | some name =>
      let events := walkFrom table seen [name]
      events ++ walkReferences table ((visitedNames events).reverse ++ seen) rest

/-- The name at which a walk first fails to find a definition. -/
def firstMissing? (events : List WalkEvent) : Option String :=
  (events.findSome? WalkEvent.missing?).map (·.2.2)

end GraphQL
