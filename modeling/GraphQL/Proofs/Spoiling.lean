import GraphQL.Proofs.Blindness
import GraphQL.Proofs.Root

/-!
# Failures beside other positions

User code may fail in one position of a response while all that it shares with the rest of the
execution stays as it would be otherwise. Then the positions beside that one, at every level, are
what they would be otherwise: the response differs in the positions that failed alone.
-/

namespace GraphQL

variable {σ α β : Type}

namespace Position

mutual

/-- Some positions at or below a position have failed instead of what they would be otherwise; the
others are the same. A position that had to be null with all around it excludes null. -/
inductive Spoils : Position → Position → Prop where
  | same (position : Position) : Spoils position position
  | failed {position : Position} (required : Bool) (error : FieldError) :
      position.fault? = none → (position.response? = none → required = true) →
      Spoils position (.failed required error)
  | list {required : Bool} {items others : List Position} :
      ItemsSpoil items others → Spoils (.list required items) (.list required others)
  | object {required : Bool} {fields others : List (String × Position)} :
      FieldsSpoil fields others → Spoils (.object required fields) (.object required others)

/-- Some positions in the items of a list have failed. -/
inductive ItemsSpoil : List Position → List Position → Prop where
  | nil : ItemsSpoil [] []
  | cons {item other : Position} {items others : List Position} :
      Spoils item other → ItemsSpoil items others → ItemsSpoil (item :: items) (other :: others)

/-- Some positions in the fields of an object have failed. -/
inductive FieldsSpoil : List (String × Position) → List (String × Position) → Prop where
  | nil : FieldsSpoil [] []
  | cons {key : String} {field other : Position} {fields others : List (String × Position)} :
      Spoils field other → FieldsSpoil fields others →
      FieldsSpoil ((key, field) :: fields) ((key, other) :: others)

end

mutual

/-- What has no data has none where positions fail. -/
theorem Spoils.response?_eq_none {position other : Position} (spoiled : Spoils position other)
    (lost : position.response? = none) : other.response? = none := by
  cases spoiled with
  | same => exact lost
  | failed required error _ excludes =>
    cases excludes lost
    rfl
  | @list required items others inner =>
    unfold response? at lost ⊢
    cases given : itemResponses? items with
    | none =>
      rw [given] at lost
      rw [inner.itemResponses?_eq_none given]
      exact lost
    | some responses =>
      rw [given] at lost
      cases lost
  | @object required fields others inner =>
    unfold response? at lost ⊢
    cases given : fieldResponses? fields with
    | none =>
      rw [given] at lost
      rw [inner.fieldResponses?_eq_none given]
      exact lost
    | some entries =>
      rw [given] at lost
      cases lost

theorem ItemsSpoil.itemResponses?_eq_none {items others : List Position}
    (spoiled : ItemsSpoil items others) (lost : itemResponses? items = none) :
    itemResponses? others = none := by
  cases spoiled with
  | nil => exact lost
  | @cons item other items others first rest =>
    unfold itemResponses? at lost ⊢
    cases given : item.response? with
    | none => rw [first.response?_eq_none given]
    | some response =>
      cases givenRest : itemResponses? items with
      | none =>
        rw [rest.itemResponses?_eq_none givenRest]
        cases other.response? <;> rfl
      | some responses =>
        rw [given, givenRest] at lost
        cases lost

theorem FieldsSpoil.fieldResponses?_eq_none {fields others : List (String × Position)}
    (spoiled : FieldsSpoil fields others) (lost : fieldResponses? fields = none) :
    fieldResponses? others = none := by
  cases spoiled with
  | nil => exact lost
  | @cons key field other fields others first rest =>
    unfold fieldResponses? at lost ⊢
    cases given : field.response? with
    | none => rw [first.response?_eq_none given]
    | some response =>
      cases givenRest : fieldResponses? fields with
      | none =>
        rw [rest.fieldResponses?_eq_none givenRest]
        cases other.response? <;> rfl
      | some entries =>
        rw [given, givenRest] at lost
        cases lost

end

/-- Entries of an object under one key, of which the second may have failed. -/
def EntrySpoils (entry other : String × Position) : Prop :=
  entry.1 = other.1 ∧ Spoils entry.2 other.2

/-- A position that has failed instead was no error object. -/
theorem Spoils.fault?_eq {position other : Position} (spoiled : Spoils position other) :
    position.fault? = other.fault? := by
  cases spoiled with
  | same => rfl
  | failed _ _ plain _ => exact plain
  | list _ => rfl
  | object _ => rfl

theorem itemsSpoil_of_forall₂ {items others : List Position}
    (spoiled : List.Forall₂ Spoils items others) : ItemsSpoil items others := by
  induction spoiled with
  | nil => exact .nil
  | cons first _ ih => exact .cons first ih

theorem fieldsSpoil_of_forall₂ {fields others : List (String × Position)}
    (spoiled : List.Forall₂ EntrySpoils fields others) : FieldsSpoil fields others := by
  induction spoiled with
  | nil => exact .nil
  | @cons entry other _ _ first _ ih =>
    obtain ⟨key, field⟩ := entry
    obtain ⟨otherKey, otherField⟩ := other
    obtain ⟨keyed, spoils⟩ := first
    cases keyed
    exact .cons spoils ih

end Position

open Position

/-- A position that fails does so with the same error wherever the same is shared. -/
theorem Exec.Mirrors.position {ref : TypeRef} {path : Path} {locations : List Location}
    {attempt other : Attempt σ Position} (mirrored : Attempt.Mirrors Spoils attempt other) :
    Exec.Mirrors Spoils (Attempt.position ref path locations attempt)
      (Attempt.position ref path locations other) := by
  unfold Attempt.position
  refine Exec.Mirrors.bind mirrored fun one two alike => ?_
  cases alike with
  | ok spoiled => exact .pure spoiled
  | error cause =>
    refine Exec.Mirrors.get.bind fun one two same => ?_
    dsimp only
    rw [Executor.locate_of_shared same]
    exact (Exec.Mirrors.modify (Executor.shared_recordError _)).bind_blind fun _ => .pure (.same _)

namespace Environment

theorem checked_mirrors {related : α → β → Prop} {positionOf : α → Position}
    {otherOf : β → Position} {part : Exec σ α} {other : Exec σ β}
    (mirrored : Exec.Mirrors related part other)
    (faults : ∀ one two, related one two → (positionOf one).fault? = (otherOf two).fault?) :
    Exec.Mirrors related (checked positionOf part) (checked otherOf other) := by
  unfold checked
  refine mirrored.bind fun one two held => ?_
  rw [faults one two held]
  split
  · exact .halt _
  · exact .pure held

/-- Positions that belong together are spoiled one by one. -/
theorem together_mirrors {related : α → β → Prop} {positionOf : α → Position}
    {otherOf : β → Position} {parts : List (Exec σ α)} {others : List (Exec σ β)}
    (mirrored : List.Forall₂ (Exec.Mirrors related) parts others)
    (faults : ∀ one two, related one two → (positionOf one).fault? = (otherOf two).fault?) :
    Attempt.Mirrors (List.Forall₂ related) (together positionOf parts)
      (together otherOf others) := by
  have each : List.Forall₂ (Exec.Mirrors related) (parts.map (checked positionOf))
      (others.map (checked otherOf)) := by
    rw [List.forall₂_map_left_iff, List.forall₂_map_right_iff]
    exact mirrored.imp fun _ _ held => checked_mirrors held faults
  unfold together
  refine (Attempt.Mirrors.lift (Exec.Mirrors.siblings each).outcome).bind fun one two alike => ?_
  cases alike with
  | ok held => exact .pure held
  | error why =>
    cases why with
    | escaped origin fault => exact .raise origin fault
    | cancelled => exact .halt .cancelled
    | hung => exact .halt .hung
    | tooDeep => exact .halt .tooDeep

variable {env : Environment σ} {execute other : ObjectExecution σ}

variable (env) in
/-- What executes the fields of registered object types, with and without failures in them. -/
def ExecuteAlike (execute other : ObjectExecution σ) : Prop :=
  ∀ object parent selections path, env.registry.type? object.name = some (.object object) →
    Attempt.Mirrors FieldsSpoil (execute object parent selections path)
      (other object parent selections path)

/-- The object type of a value of an abstract type is registered, whatever was recorded. -/
theorem concreteType_mirrors {name : String} {type : TypeDefinition}
    (registered : env.registry.type? name = some type) (abstract : type.isAbstract = true)
    (value : Value) :
    Attempt.Mirrors
      (fun one two => one = two ∧ env.registry.type? one.name = some (.object one))
      (env.concreteType type value) (env.concreteType type value) := by
  unfold concreteType
  split
  · next object found =>
    have admitted := AbstractType.canBe_of_resolve_eq_ok registered abstract found
    exact .pure ⟨rfl, admitted.registered⟩
  · refine Attempt.Mirrors.bind_blind (.report _) fun _ => ?_
    split
    · exact .halt .cancelled
    · exact .refuse _
    · exact .refuse _

theorem completeObject_mirrors (alike : env.ExecuteAlike execute other) (target : Target)
    (required : Bool) (path : Path) {object : ObjectType}
    (registered : env.registry.type? object.name = some (.object object)) (value : Value) :
    Attempt.Mirrors Spoils (completeObject execute target required path object value)
      (completeObject other target required path object value) :=
  Attempt.Mirrors.map ((alike _ _ _ _ registered).mono fun _ _ spoiled => .object spoiled)

theorem completeNamed_mirrors (alike : env.ExecuteAlike execute other) (target : Target)
    (required : Bool) (name : String) (path : Path) (value : Value) :
    Attempt.Mirrors Spoils (env.completeNamed execute target required name path value)
      (env.completeNamed other target required name path value) := by
  have same : ∀ one two : Position, one = two → Spoils one two := by
    rintro position _ rfl
    exact .same position
  unfold completeNamed
  refine Attempt.Mirrors.get.bind fun one two shared => ?_
  dsimp only
  rw [Executor.settleValue_of_shared shared]
  split
  · exact .halt _
  · exact (completeEnum_blind _ _).mono same
  · exact (env.completeScalar_blind _ _).mono same
  · next object found =>
    refine (env.checkType_blind _ _).bind_blind fun _ => ?_
    exact completeObject_mirrors alike _ _ _ (Registry.type?_self found) _
  · next type found =>
    split
    · next abstract =>
      refine (concreteType_mirrors found abstract _).bind ?_
      rintro object _ ⟨rfl, registered⟩
      exact completeObject_mirrors alike _ _ _ registered _
    · exact .refuse _

/-- The position of a value is spoiled only in the objects in it. The induction follows the type: a
list is spoiled only in its items. -/
theorem complete_mirrors (alike : env.ExecuteAlike execute other) (target : Target) (ref : TypeRef)
    (path : Path) (value : Value) :
    Attempt.Mirrors Spoils (env.complete execute target ref path value)
      (env.complete other target ref path value) := by
  have nothing : ∀ required, Attempt.Mirrors Spoils
      (complete.completeNull target required : Attempt σ Position)
      (complete.completeNull target required) := by
    intro required
    refine (completeNull_blind target required).mono ?_
    rintro position _ rfl
    exact .same position
  induction ref generalizing path value with
  | named name required =>
    unfold complete
    split
    · exact nothing required
    · exact completeNamed_mirrors alike _ _ _ _ _
  | list item required ih =>
    unfold complete
    split
    · exact nothing required
    · refine (itemsOf_blind target value).bind_blind fun items => Attempt.Mirrors.map ?_
      have each : ∀ (index : Nat) (raw : Value), Exec.Mirrors Spoils
          (Attempt.position item (path ++ [.index index]) target.group.locations do
            let value ← awaitItem raw
            env.complete execute target item (path ++ [.index index]) value)
          (Attempt.position item (path ++ [.index index]) target.group.locations do
            let value ← awaitItem raw
            env.complete other target item (path ++ [.index index]) value) :=
        fun index raw => .position ((awaitItem_blind raw).bind_blind fun awaited => ih _ awaited)
      refine (together_mirrors (forall₂_mapIdx items each) fun _ _ => Spoils.fault?_eq).mono ?_
      exact fun _ _ spoiled => .list (itemsSpoil_of_forall₂ spoiled)

/-- The position of a field is spoiled only in the objects in it. -/
theorem executeTarget_mirrors (alike : env.ExecuteAlike execute other) (object : ObjectType)
    (target : Target) (parent : Value) (path : Path) :
    Exec.Mirrors Spoils (env.executeTarget execute object target parent path)
      (env.executeTarget other object target parent path) := by
  unfold executeTarget
  refine .position ?_
  split
  · exact complete_mirrors alike _ _ _ _
  · refine Attempt.Mirrors.get.bind fun one two shared => ?_
    have context : env.coercion one.world = env.coercion two.world := by
      unfold coercion
      rw [Executor.settleValue_of_shared shared]
    rw [context]
    refine (Attempt.Mirrors.ofCoercion _).bind_blind fun args => ?_
    refine (env.resolve_blind target path parent args).bind_blind fun value => ?_
    exact complete_mirrors alike _ _ _ _

end Environment

end GraphQL
