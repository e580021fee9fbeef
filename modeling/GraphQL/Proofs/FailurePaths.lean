import GraphQL.Proofs.Propagation
import Mathlib.Data.List.Forall2

/-!
# Paths of failing positions

Nothing stands below a position that failed. So of the paths that lead to the failing positions of a
response none begins with another, and each of these positions has one error, in the same order.
-/

namespace GraphQL

/-- Neither of two paths begins with the other. -/
structure Path.Apart (first second : Path) : Prop where
  not_isPrefix : ¬ first <+: second
  not_extends : ¬ second <+: first

namespace Path.Apart

variable {first second : Path}

theorem cons (apart : Path.Apart first second) (step : PathKey) :
    Path.Apart (step :: first) (step :: second) where
  not_isPrefix ahead := apart.not_isPrefix ((List.prefix_cons_inj step).mp ahead)
  not_extends ahead := apart.not_extends ((List.prefix_cons_inj step).mp ahead)

theorem of_ne {step other : PathKey} (different : step ≠ other) :
    Path.Apart (step :: first) (other :: second) where
  not_isPrefix ahead := different (List.cons_prefix_cons.mp ahead).1
  not_extends ahead := different (List.cons_prefix_cons.mp ahead).1.symm

end Path.Apart

namespace Position

variable {position : Position} {fields : List (String × Position)} {items : List Position}
  {step : PathKey} {path : Path} {error : FieldError}

/-- A path leads to a position that failed with an error. -/
def FailsAt (position : Position) (error : FieldError) (path : Path) : Prop :=
  ∃ required, position.at? path = some (.failed required error)

/-- What failed in a part failed behind the step that leads to the part. -/
theorem FailsAt.of_part {part : PathKey × Position} (distinct : position.KeysDistinct)
    (member : part ∈ position.parts) (failed : part.2.FailsAt error path) :
    position.FailsAt error (part.1 :: path) := by
  obtain ⟨required, reached⟩ := failed
  refine ⟨required, ?_⟩
  rw [at?, child?_of_mem distinct member]
  exact reached

/-- The errors below a position are those of its parts. -/
def ErrsInParts (position : Position) : Prop :=
  position.errors = position.parts.flatMap fun part => part.2.errors

theorem itemErrors_eq (stepOf : Nat → PathKey) (items : List Position) :
    itemErrors items =
      (items.mapIdx fun index item => (stepOf index, item)).flatMap fun part => part.2.errors := by
  induction items generalizing stepOf with
  | nil => rfl
  | cons item rest ih =>
    rw [List.mapIdx_cons, List.flatMap_cons, itemErrors, ih fun index => stepOf (index + 1)]

theorem errsInParts_list (required : Bool) (items : List Position) :
    (list required items).ErrsInParts :=
  itemErrors_eq (fun index => PathKey.index index) items

theorem errsInParts_object (required : Bool) (fields : List (String × Position)) :
    (object required fields).ErrsInParts := by
  show fieldErrors fields =
    (fields.map fun entry => (PathKey.key entry.1, entry.2)).flatMap fun part => part.2.errors
  induction fields with
  | nil => rfl
  | cons entry rest ih =>
    rw [List.map_cons, List.flatMap_cons, ← ih]
    rfl

/-- The errors of a position are those of the positions that failed in it, in the order of their
paths, and none of these paths begins with another. -/
structure LocatesFailures (position : Position) : Prop where
  failed : List.Forall₂ position.FailsAt position.errors position.failures
  apart : position.failures.Pairwise Path.Apart

/-- A position has the failing positions of its parts, and no others. -/
theorem LocatesFailures.of_parts (distinct : position.KeysDistinct)
    (failsInParts : position.FailsInParts) (errsInParts : position.ErrsInParts)
    (each : ∀ part ∈ position.parts, part.2.LocatesFailures) : position.LocatesFailures := by
  have nodup := List.pairwise_map.mp (nodup_steps distinct)
  constructor
  · have inside : List.Forall₂ (List.Forall₂ position.FailsAt)
        (position.parts.map fun part => part.2.errors)
        (position.parts.map fun part => part.2.failures.map (part.1 :: ·)) := by
      refine List.forall₂_map_left_iff.mpr (List.forall₂_map_right_iff.mpr ?_)
      refine List.forall₂_same.mpr fun part member => List.forall₂_map_right_iff.mpr ?_
      exact (each part member).failed.imp fun error path failed => failed.of_part distinct member
    rw [errsInParts, failsInParts]
    exact List.rel_flatten inside
  · rw [failsInParts]
    refine List.pairwise_flatMap.mpr ⟨fun part member => ?_, nodup.imp fun different => ?_⟩
    · exact List.pairwise_map.mpr ((each part member).apart.imp fun apart => apart.cons part.1)
    · rintro path first other second
      obtain ⟨_, _, rfl⟩ := List.mem_map.mp first
      obtain ⟨_, _, rfl⟩ := List.mem_map.mp second
      exact .of_ne different

mutual

/-- Where objects have each key once, the errors lead to the positions that failed. -/
theorem locatesFailures : ∀ position : Position, position.KeysDistinct → position.LocatesFailures
  | .null, _ | .leaf _, _ => ⟨.nil, .nil⟩
  | .failed required error, _ => ⟨.cons ⟨required, rfl⟩ .nil, List.pairwise_singleton _ _⟩
  | .list required items, distinct => by
    refine .of_parts distinct (failsInParts_list required items)
      (errsInParts_list required items) fun part member => ?_
    obtain ⟨index, within, rfl⟩ := List.mem_mapIdx.mp member
    exact itemsLocateFailures items distinct _ (List.getElem_mem within)
  | .object required fields, distinct => by
    refine .of_parts distinct (failsInParts_object required fields)
      (errsInParts_object required fields) fun part member => ?_
    obtain ⟨entry, present, rfl⟩ := List.mem_map.mp member
    exact fieldsLocateFailures fields distinct.2 entry present

theorem itemsLocateFailures : ∀ items : List Position, ItemKeysDistinct items →
    ∀ item ∈ items, item.LocatesFailures
  | [], _ => nofun
  | first :: rest, ⟨own, others⟩ =>
    List.forall_mem_cons.mpr ⟨locatesFailures first own, itemsLocateFailures rest others⟩

theorem fieldsLocateFailures : ∀ fields : List (String × Position), FieldKeysDistinct fields →
    ∀ entry ∈ fields, entry.2.LocatesFailures
  | [], _ => nofun
  | (_, first) :: rest, ⟨own, others⟩ =>
    List.forall_mem_cons.mpr ⟨locatesFailures first own, fieldsLocateFailures rest others⟩

end

end Position

end GraphQL
