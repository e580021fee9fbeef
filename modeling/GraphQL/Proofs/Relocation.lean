import GraphQL.Proofs.Failures
import GraphQL.Proofs.Retracing

/-!
# The same at another path

Nothing that is executed looks at the path it is executed at: that only shows in the errors that are
recorded and in the calls that are noted. So completing a value, or executing a field or the fields
of an object, retraces the same at any other path, as long as no error object that user code keeps
is recorded on the way.
-/

namespace GraphQL

variable {σ : Type}

namespace FieldError

/-- An error without the path of its position. -/
def adrift (error : FieldError) : FieldError where
  cause :=
    match error.cause with
    | .given fault => .given { fault with path := none }
    | cause => cause
  locations := error.locations

/-- What an error tells: its class, its text and the class of the fault behind it. -/
def tells (error : FieldError) : FaultKind × String × Option FaultKind :=
  (error.cause.kind, error.cause.message, error.cause.underlying?)

theorem tells_adrift (error : FieldError) : error.adrift.tells = error.tells := by
  unfold adrift tells
  cases error.cause <;> rfl

theorem isKept_adrift (error : FieldError) : error.adrift.isKept = error.isKept := by
  unfold adrift isKept
  cases error.cause <;> rfl

/-- An error is the same but for its path, which lies below one place as the other does below
another, unless user code gave the path along with the error. -/
structure Moves (source destination : Path) (error other : FieldError) : Prop where
  adrift : error.adrift = other.adrift
  path : (∃ rest, error.path = some (source ++ rest) ∧ other.path = some (destination ++ rest)) ∨
    error.cause.given?.isSome = true ∧ error.path = other.path

namespace Moves

variable {source destination : Path} {error other : FieldError}

theorem tells (moves : Moves source destination error other) : error.tells = other.tells := by
  rw [← tells_adrift, moves.adrift, tells_adrift]

theorem isKept (moves : Moves source destination error other) : error.isKept = other.isKept := by
  rw [← isKept_adrift, moves.adrift, isKept_adrift]

end Moves

end FieldError

/-- The error of a cause is the same below another place, but for its path. -/
theorem World.moves_locate (world : World σ) (cause : FailureCause) (source destination rest : Path)
    (locations : List Location) :
    (world.locate cause (source ++ rest) locations).Moves source destination
      (world.locate cause (destination ++ rest) locations) := by
  cases cause with
  | given fault =>
    refine ⟨rfl, ?_⟩
    show (∃ rest', some ((world.settleFault fault).path.getD (source ++ rest)) = _ ∧
      some ((world.settleFault fault).path.getD (destination ++ rest)) = _) ∨ _
    cases own : (world.settleFault fault).path with
    | none => exact Or.inl ⟨rest, rfl, rfl⟩
    | some path =>
      refine Or.inr ⟨rfl, ?_⟩
      show some ((world.settleFault fault).path.getD (source ++ rest)) =
        some ((world.settleFault fault).path.getD (destination ++ rest))
      rw [own]
      rfl
  | _ => exact ⟨rfl, Or.inl ⟨rest, rfl, rfl⟩⟩

/-- A call is the same but for its path, which lies below one place as the other does below
another. -/
structure ResolverCall.Moves (source destination : Path) (call other : ResolverCall) : Prop where
  label : call.label = other.label
  arguments : call.arguments = other.arguments
  path : ∃ rest, call.path = source ++ rest ∧ other.path = destination ++ rest

/-- The same calls and errors below another place. -/
def Recount.moved (source destination : Path) : Recount where
  error := FieldError.Moves source destination
  call := ResolverCall.Moves source destination
  isKept moves := moves.isKept

/-- The errors that are written again below another place tell the same. -/
theorem Executor.Rewrites.tells {source destination : Path} {one after two later : Executor σ}
    (rewrites : Rewrites (.moved source destination) one after two later)
    (unwritten : one.errors = []) (otherUnwritten : two.errors = []) :
    after.errors.map FieldError.tells = later.errors.map FieldError.tells := by
  obtain ⟨noted, others, errors, otherErrors, moves⟩ := rewrites.errors
  rw [errors, otherErrors, unwritten, otherUnwritten, List.nil_append, List.nil_append]
  refine List.forall₂_eq_eq_eq ▸ ?_
  rw [List.forall₂_map_left_iff, List.forall₂_map_right_iff]
  exact moves.imp fun _ _ moves => moves.tells

namespace Environment

open Position

variable {env : Environment σ} {source destination : Path} {execute : ObjectExecution σ}
  {target other : Target}

variable (source destination) in
/-- What executes the fields of objects does the same below another place. -/
def Relocates (execute : ObjectExecution σ) : Prop :=
  ∀ object value selections rest,
    Attempt.RetracesBy (.moved source destination) (List.Forall₂ EntryShows)
      (execute object value selections (source ++ rest))
      (execute object value selections (destination ++ rest))

/-- Two fields of one name, on one type, are asked for by the same selections. -/
structure Namesakes (target other : Target) : Prop where
  parent : target.parent = other.parent
  name : target.field.name = other.field.name
  group : target.group = other.group

theorem Namesakes.label (namesakes : Namesakes target other) : target.label = other.label := by
  unfold Target.label
  rw [namesakes.parent, namesakes.name]

theorem completeNamed_relocates (relocates : Relocates source destination execute)
    (namesakes : Namesakes target other) (required : Bool) (name : String) (rest : Path)
    (value : Value) :
    Attempt.RetracesBy (.moved source destination) Shows
      (env.completeNamed execute target required name (source ++ rest) value)
      (env.completeNamed execute other required name (destination ++ rest) value) := by
  have same : ∀ one two : Position, one = two → Shows one two := by
    rintro position _ rfl
    exact .refl position
  have inside : ∀ object value, Attempt.RetracesBy (.moved source destination) Shows
      (completeObject execute target required (source ++ rest) object value)
      (completeObject execute other required (destination ++ rest) object value) := by
    intro object value
    unfold completeObject
    rw [namesakes.group]
    exact .map ((relocates object value _ rest).mono fun _ _ shows => .object shows)
  unfold completeNamed
  refine .get_bind fun one two shared => ?_
  dsimp only
  rw [Executor.settleValue_of_shared shared]
  split
  · exact .halt _
  · exact .of_quiet ((completeEnum_blind _ _).mono same) (completeEnum_quiet _ _)
      (completeEnum_quiet _ _)
  · exact .of_quiet ((env.completeScalar_blind _ _).mono same) (env.completeScalar_quiet _ _)
      (env.completeScalar_quiet _ _)
  · exact .bind_quiet (env.checkType_blind _ _) (env.checkType_quiet _ _) fun _ => inside _ _
  · next type _ _ _ found =>
    split
    · next abstract =>
      have blind : Attempt.IsBlind (env.concreteType type (two.world.settleValue value)) :=
        (concreteType_mirrors found abstract _).mono fun _ _ held => held.1
      exact .bind_quiet blind (env.concreteType_quiet _ _) fun object => inside object _
    · exact .refuse _

/-- Completing a value does the same below another place. The induction follows the type. -/
theorem complete_relocates (relocates : Relocates source destination execute)
    (namesakes : Namesakes target other) (ref : TypeRef) (rest : Path) (value : Value) :
    Attempt.RetracesBy (.moved source destination) Shows
      (env.complete execute target ref (source ++ rest) value)
      (env.complete execute other ref (destination ++ rest) value) := by
  have nothing : ∀ required, Attempt.RetracesBy (.moved source destination) Shows
      (complete.completeNull target required : Attempt σ Position)
      (complete.completeNull other required) := by
    intro required
    unfold complete.completeNull
    rw [namesakes.label]
    split
    · exact .refuse _
    · exact .pure (.refl _)
  have itemsOf_eq : itemsOf (σ := σ) target = itemsOf other := by
    funext value
    unfold itemsOf
    rw [namesakes.label]
  induction ref generalizing rest value with
  | named name required =>
    unfold complete
    split
    · exact nothing required
    · exact completeNamed_relocates relocates namesakes _ _ _ _
  | list item required ih =>
    unfold complete
    rw [itemsOf_eq]
    split
    · exact nothing required
    · refine .bind_quiet (itemsOf_blind other value) (itemsOf_quiet _ _) fun items => .map ?_
      have each : ∀ (index : Nat) (raw : Value), Exec.RetracesBy (.moved source destination) Shows
          (Attempt.position item (source ++ rest ++ [.index index]) target.group.locations do
            let value ← awaitItem raw
            env.complete execute target item (source ++ rest ++ [.index index]) value)
          (Attempt.position item (destination ++ rest ++ [.index index]) other.group.locations do
            let value ← awaitItem raw
            env.complete execute other item (destination ++ rest ++ [.index index]) value) := by
        intro index raw
        rw [namesakes.group, List.append_assoc, List.append_assoc]
        exact .position (fun world cause => world.moves_locate cause source destination _ _)
          (.bind_quiet (awaitItem_blind raw) (awaitItem_quiet raw) fun awaited => ih _ awaited)
      exact (together_retraces (forall₂_mapIdx items each) fun _ _ shows => shows.fault).mono
        fun _ _ shows => .list shows

theorem executeTarget_relocates (relocates : Relocates source destination execute)
    (object : ObjectType) (target : Target) (value : Value) (rest : Path) :
    Exec.RetracesBy (.moved source destination) Shows
      (env.executeTarget execute object target value (source ++ rest))
      (env.executeTarget execute object target value (destination ++ rest)) := by
  have completes : ∀ value, Attempt.RetracesBy (.moved source destination) Shows
      (env.complete execute target target.field.type (source ++ rest) value)
      (env.complete execute target target.field.type (destination ++ rest) value) :=
    fun value => complete_relocates relocates ⟨rfl, rfl, rfl⟩ target.field.type rest value
  unfold executeTarget
  refine .position (fun world cause => world.moves_locate cause source destination rest _) ?_
  split
  · exact completes _
  · refine .get_bind fun one two shared => ?_
    have context : env.coercion two.world = env.coercion one.world := by
      unfold coercion
      rw [Executor.settleValue_of_shared shared]
    rw [context]
    refine .bind_quiet (.ofCoercion _) (.ofCoercion _) fun args => ?_
    have called : (Recount.moved source destination).call
        { label := target.label, path := source ++ rest, arguments := args }
        { label := target.label, path := destination ++ rest, arguments := args } :=
      ResolverCall.Moves.mk rfl rfl ⟨rest, rfl, rfl⟩
    refine .bind (resolve_retraces called value) (fun value => (completes value).grows) ?_
    rintro value _ rfl
    exact completes value

theorem executeGroup_relocates (relocates : Relocates source destination execute)
    (object : ObjectType) (group : FieldGroup) (value : Value) (rest : Path) :
    Exec.RetracesBy (.moved source destination) Shows
      (env.executeGroup execute object value (source ++ rest) group)
      (env.executeGroup execute object value (destination ++ rest) group) := by
  unfold executeGroup
  cases env.registry.field? (.object object) group.first.name with
  | none =>
    exact .position (fun world cause => world.moves_locate cause source destination rest _)
      (.refuse _)
  | some field => exact executeTarget_relocates relocates _ _ _ _

/-- Executing the fields of an object does the same below another place. The induction is on how
deeply objects may still be nested. -/
theorem executeObject_relocates (depth : Nat) :
    Relocates source destination (env.executeObject depth) := by
  induction depth with
  | zero => exact fun _ _ _ _ => .halt _
  | succ depth ih =>
    intro object value selections rest
    unfold executeObject
    refine .bind_quiet (env.collectGroups_blind object selections)
      (env.collectGroups_quiet object selections) fun groups => ?_
    refine together_retraces ?_ fun _ _ shows => shows.2.fault
    refine forall₂_map fun group _ => .map ?_
    rw [List.append_assoc, List.append_assoc]
    exact (executeGroup_relocates ih object group value _).mono fun _ _ shows => ⟨rfl, shows⟩

end Environment

end GraphQL
