import GraphQL.Proofs.Calls
import GraphQL.Proofs.Outcomes
import GraphQL.Proofs.Placement

/-!
# Errors of objects

Completing a value, or executing the fields of an object, records exactly the errors of the positions
that failed in it, each at its path, where all that is tried on the way is sound. Every case rests on
the same alternative: a position fails before anything below it is recorded, or it is completed with
what was recorded below it.
-/

namespace GraphQL

variable {σ α : Type}

/-- What may be tried after an attempt is sound with what is tried. -/
theorem Trials.Sound.after {attempt : Attempt σ α} {next : α → Trials σ}
    {before middle : Executor σ} {result : α} (sound : (Trials.after attempt next).Sound before)
    (ran : Exec.runFrom attempt.run before = (.ok (.ok result), middle)) :
    (next result).Sound middle := by
  unfold Trials.Sound Trials.after at sound
  rw [ran] at sound
  exact sound

namespace Position

variable {path : Path} {noted : List FieldError} {position : Position}

/-- The failing positions in a part stand below the step that leads to it. -/
theorem Places.below {step : PathKey} (places : position.Places (path ++ [step]) noted) :
    List.Forall₂ (fun error below => error.StandsAt (path ++ below)) noted
      (position.failures.map (step :: ·)) := by
  refine List.forall₂_map_right_iff.mpr (places.paths.imp fun error below stands => ?_)
  rwa [List.append_assoc] at stands

/-- Items that each have the errors in them have them together. -/
theorem places_items {items : List Value} {offset : Nat} {positions : List Position}
    (jointly : Jointly ((items.zipIdx offset).map fun entry noted position =>
      Position.Places (path ++ [.index entry.2]) noted position) noted positions) :
    noted = itemErrors positions ∧
      List.Forall₂ (fun error below => error.StandsAt (path ++ below)) noted
        (itemFailures offset positions) := by
  induction items generalizing offset noted positions with
  | nil =>
    obtain ⟨rfl, rfl⟩ := jointly
    exact ⟨rfl, .nil⟩
  | cons raw rest ih =>
    obtain ⟨here, later, position, others, rfl, rfl, places, jointly⟩ := jointly
    obtain ⟨rfl, paths⟩ := ih jointly
    obtain rfl := places.errors
    exact ⟨rfl, List.rel_append places.below paths⟩

/-- Fields that each have the errors in them have them together. -/
theorem places_fields {groups : List FieldGroup} {fields : List (String × Position)}
    (jointly : Jointly (groups.map fun group noted entry => entry.1 = group.key ∧
      entry.2.Places (path ++ [.key group.key]) noted) noted fields) :
    noted = fieldErrors fields ∧
      List.Forall₂ (fun error below => error.StandsAt (path ++ below)) noted
        (fieldFailures fields) := by
  induction groups generalizing noted fields with
  | nil =>
    obtain ⟨rfl, rfl⟩ := jointly
    exact ⟨rfl, .nil⟩
  | cons group rest ih =>
    obtain ⟨here, later, ⟨key, position⟩, others, rfl, rfl, ⟨keyed, places⟩, jointly⟩ := jointly
    cases keyed
    obtain ⟨rfl, paths⟩ := ih jointly
    obtain rfl := places.errors
    exact ⟨rfl, List.rel_append places.below paths⟩

end Position

namespace Environment

variable {env : Environment σ} {root object : ObjectType} {level : Nat} {target : Target}
  {execute : ObjectExecution σ} {inside : ObjectTrials σ} {path : Path}

/-- Nothing escapes from a part that a position would take. -/
theorem MayHalt.isFieldError {origin : FaultOrigin} {fault : Fault}
    (reason : env.MayHalt root True (.escaped origin fault)) : fault.kind.isFieldError = false := by
  cases reason with
  | escaped _ _ ordinary => exact ordinary
  | unregistered _ _ => rfl
  | @arguments _ _ _ _ _ stop _ _ _ ends | @collection _ _ _ _ stop _ _ _ ends =>
    cases stop with
    | unknownType name =>
      cases ends
      rfl
    | _ => cases ends

theorem Meets.isFieldError {part : Exec σ α} {yields : List FieldError → α → Prop}
    (met : env.Meets root True path part yields) (before : Executor σ) (origin : FaultOrigin)
    (fault : Fault) (escaped : (part.runFrom before).1 = .error (.escaped origin fault)) :
    fault.kind.isFieldError = false := by
  obtain ⟨_, _, reason⟩ := met before fun _ => trivial
  rw [escaped] at reason
  exact MayHalt.isFieldError reason

/-- A value that turns out to be a leaf is one. -/
theorem exists_leaf_of_head {name : String} {value : Value} {position : Position}
    {before after : Executor σ}
    (ran : Exec.runFrom (env.head name value).run before = (.ok (.ok (.leaf position)), after)) :
    ∃ value, position = .leaf value := by
  unfold head at ran
  obtain ⟨_, _, _, ran⟩ := Attempt.exists_of_runFrom_bind ran
  dsimp only at ran
  split at ran
  · cases ran
  · rw [map_eq_pure_bind] at ran
    obtain ⟨_, _, completed, ended⟩ := Attempt.exists_of_runFrom_bind ran
    cases ended
    unfold completeEnum at completed
    split at completed
    · cases completed
      exact ⟨_, rfl⟩
    · cases completed
  · rw [map_eq_pure_bind] at ran
    obtain ⟨_, _, completed, ended⟩ := Attempt.exists_of_runFrom_bind ran
    cases ended
    unfold completeScalar at completed
    split at completed
    · split at completed <;> cases completed
    · split at completed
      · cases completed
      · cases completed
        exact ⟨_, rfl⟩
  · obtain ⟨_, _, _, ended⟩ := Attempt.exists_of_runFrom_bind ran
    cases ended
  · split at ran
    · obtain ⟨_, _, _, ended⟩ := Attempt.exists_of_runFrom_bind ran
      cases ended
    · cases ran

variable (env root) in
/-- Executing objects below some position, with a number of others around them, places the errors of
their fields where all that it tries is sound. -/
def ObjectsPlace (level : Nat) (execute : ObjectExecution σ) (inside : ObjectTrials σ) : Prop :=
  ∀ object parent selections path, path ≠ [] → env.Encounters root level object selections →
    ∀ before, (inside object parent selections path).Sound before →
      (execute object parent selections path).Records before fun noted fields =>
        Position.Places path noted (.object false fields)

theorem completeNull_records (target : Target) (required : Bool) (before : Executor σ) :
    (complete.completeNull target required : Attempt σ Position).Records before
      (Position.Places path) := by
  unfold complete.completeNull
  split
  · exact .refuse _
  · exact .pure ⟨rfl, .nil⟩

theorem one_lt_length_snoc (inner : path ≠ []) (step : PathKey) :
    1 < (path ++ [step]).length := by
  rw [List.length_append, List.length_singleton]
  exact Nat.lt_add_of_pos_left (List.length_pos_iff.mpr inner)

/-- An item of a list settles where completing values of its type places their errors. -/
theorem completeItem_settles (executes : env.Executes root True (level + 1) execute)
    (visited : env.Visits root level object target.group target.field) {item : TypeRef}
    (within : item.name = target.field.type.name) {path : Path} (inner : 1 < path.length)
    (completes : ∀ value before,
      (env.valueTrials execute inside target item path value).Sound before →
        (env.complete execute target item path value).Records before (Position.Places path))
    (raw : Value) :
    Exec.Settles id (env.completeItem execute target item path raw)
      (.attempt path (env.attemptItem execute target item path raw)
        (.after (awaitItem raw) (env.valueTrials execute inside target item path)))
      fun noted position => position.Places path noted where
  escapes := Meets.isFieldError <| .position <| (awaitItem_attempts raw).bind_quiet
    fun awaited _ => complete_attempts executes visited within awaited
  records before sound := by
    refine (Attempt.Records.position sound ?_ item target.group.locations).mono ?_
    · refine .bind_errorless (awaitItem_quiet raw).isErrorless fun awaited middle ran => ?_
      exact completes awaited middle (sound.inside.after ran)
    · rintro noted position ⟨places, plain⟩
      exact ⟨places, plain inner⟩

/-- Completing a value places the errors of what is completed. The induction is on the type, whose
lists complete their items in turn. -/
theorem complete_records (executes : env.Executes root True (level + 1) execute)
    (objects : env.ObjectsPlace root (level + 1) execute inside)
    (visited : env.Visits root level object target.group target.field) {ref : TypeRef}
    (within : ref.name = target.field.type.name) {path : Path} (inner : path ≠ []) (value : Value)
    {before : Executor σ}
    (sound : (env.valueTrials execute inside target ref path value).Sound before) :
    (env.complete execute target ref path value).Records before (Position.Places path) := by
  induction ref generalizing path value before with
  | named name required =>
    unfold complete
    unfold valueTrials at sound
    cases present : value.isNull with
    | true => exact completeNull_records target required before
    | false =>
      rw [present, if_neg Bool.false_ne_true] at sound
      rw [if_neg Bool.false_ne_true, completeNamed_eq]
      refine .bind_errorless (env.errorless_head name value) fun head middle ran => ?_
      cases head with
      | leaf position =>
        obtain ⟨value, rfl⟩ := exists_leaf_of_head ran
        exact .pure ⟨rfl, .nil⟩
      | object type value =>
        have admitted : env.registry.CanBe target.field.type.name type :=
          within ▸ canBe_of_head ran
        refine .map ((objects type value _ path inner (visited.encounters admitted) middle
          (sound.after ran)).mono fun noted fields places => ?_)
        exact ⟨places.errors, places.paths⟩
  | list item required ih =>
    cases present : value.isNull with
    | true =>
      unfold complete
      rw [present]
      exact completeNull_records target required before
    | false =>
      unfold valueTrials at sound
      rw [present, if_neg Bool.false_ne_true] at sound
      rw [complete_list present]
      refine .bind_errorless (itemsOf_quiet target value).isErrorless fun items middle ran => .map ?_
      have settles : ∀ entry ∈ items.zipIdx, Exec.Settles id
          (env.completeItem execute target item (path ++ [.index entry.2]) entry.1)
          (.attempt (path ++ [.index entry.2])
            (env.attemptItem execute target item (path ++ [.index entry.2]) entry.1)
            (.after (awaitItem entry.1)
              (env.valueTrials execute inside target item (path ++ [.index entry.2]))))
          fun noted position => position.Places (path ++ [.index entry.2]) noted := by
        rintro ⟨raw, index⟩ _
        have itself : item.name = target.field.type.name := within
        refine completeItem_settles executes visited itself (one_lt_length_snoc inner _) ?_ raw
        exact fun value before sound => ih itself (List.concat_ne_nil _ _) value sound
      rw [List.mapIdx_eq_zipIdx_map]
      refine (together_records settles (sound.after ran)).mono fun noted positions jointly => ?_
      obtain ⟨errors, paths⟩ := Position.places_items jointly
      exact ⟨errors, paths⟩

/-- A group is executed by what is attempted at its position. -/
theorem exists_executeGroup_eq (parent : Value) (path : Path) (group : FieldGroup) :
    ∃ ref, env.executeGroup execute object parent path group =
      Attempt.position ref path group.locations
        (env.attemptGroup execute object parent path group) := by
  unfold executeGroup attemptGroup
  cases env.registry.field? (.object object) group.first.name with
  | none => exact ⟨_, rfl⟩
  | some field => exact ⟨_, executeTarget_eq⟩

/-- A group of selections places the errors at its position and below it, and is plain unless it is
one of the root. -/
theorem executeGroup_records (executes : env.Executes root True (level + 1) execute)
    (objects : env.ObjectsPlace root (level + 1) execute inside) {group : FieldGroup}
    (reached : env.Reaches root level object group) (parent : Value) (inner : path ≠ [])
    {before : Executor σ}
    (sound : (env.groupTrials execute inside object parent path group).Sound before) :
    (env.executeGroup execute object parent path group).Records before fun noted position =>
      position.Places path noted ∧ (1 < path.length → position.isPlain = true) := by
  obtain ⟨ref, same⟩ := env.exists_executeGroup_eq parent path group
  rw [same]
  refine Attempt.Records.position sound ?_ ref group.locations
  have below := sound.inside
  unfold attemptGroup
  cases found : env.registry.field? (.object object) group.first.name with
  | none => exact .refuse _
  | some field =>
    have visited : env.Visits root level object group field := ⟨reached, found⟩
    rw [found] at below
    refine .bind_errorless (env.errorless_fetch _ object parent path) fun value middle ran => ?_
    exact complete_records executes objects visited rfl inner value (below.after ran)

/-- A group of selections below the root settles. -/
theorem executeGroup_settles (executes : env.Executes root True (level + 1) execute)
    (objects : env.ObjectsPlace root (level + 1) execute inside) {group : FieldGroup}
    (reached : env.Reaches root level object group) (parent : Value) (inner : 1 < path.length) :
    Exec.Settles Prod.snd
      ((group.key, ·) <$> env.executeGroup execute object parent path group)
      (env.groupTrials execute inside object parent path group)
      fun noted entry => entry.1 = group.key ∧ entry.2.Places path noted where
  escapes := by
    have met : env.Meets root True path
        ((group.key, ·) <$> env.executeGroup execute object parent path group) fun _ _ => True :=
      .map ((executeGroup_meets (fun _ => trivial) executes reached parent).mono
        fun _ _ _ => trivial)
    exact met.isFieldError
  records before sound := by
    have nonempty : path ≠ [] := List.ne_nil_of_length_pos (Nat.lt_of_succ_lt inner)
    refine .map ((executeGroup_records executes objects reached parent nonempty sound).mono ?_)
    rintro noted position ⟨places, plain⟩
    exact ⟨⟨rfl, places⟩, plain inner⟩

/-- Executing objects places the errors of their fields, at whatever depth they are nested. -/
theorem executeObject_records {depth level : Nat}
    (enough : env.request.depthBound < level + depth) :
    env.ObjectsPlace root level (env.executeObject depth) (env.objectTrials depth) := by
  induction depth generalizing level with
  | zero =>
    intro object parent selections path _ _ before _ result after ran
    cases ran
  | succ depth ih =>
    intro object parent selections path inner encountered before sound
    have executes : env.Executes root True (level + 1) (env.executeObject depth) :=
      executeObject_executes (fun _ => trivial) (by omega)
    have objects : env.ObjectsPlace root (level + 1) (env.executeObject depth)
        (env.objectTrials depth) := ih (by omega)
    unfold executeObject
    unfold objectTrials at sound
    refine .bind_errorless (env.collectGroups_quiet object selections).isErrorless
      fun groups middle ran => ?_
    have settles : ∀ group ∈ groups, Exec.Settles Prod.snd
        ((group.key, ·) <$> env.executeGroup (env.executeObject depth) object parent
          (path ++ [.key group.key]) group)
        (env.groupTrials (env.executeObject depth) (env.objectTrials depth) object parent
          (path ++ [.key group.key]) group)
        fun noted entry => entry.1 = group.key ∧
          entry.2.Places (path ++ [.key group.key]) noted := by
      intro group member
      have reached : env.Reaches root level object group :=
        ⟨selections, groups, encountered, encountered.collects ran, member⟩
      exact executeGroup_settles executes objects reached parent (one_lt_length_snoc inner _)
    refine (together_records settles (sound.after ran)).mono fun noted fields jointly => ?_
    obtain ⟨errors, paths⟩ := Position.places_fields jointly
    exact ⟨errors, paths⟩

end Environment

end GraphQL
