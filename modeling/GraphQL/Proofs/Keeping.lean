import GraphQL.Proofs.Failures
import GraphQL.Proofs.Invariants
import GraphQL.Proofs.Repetition
import GraphQL.Proofs.Settling

/-!
# Error objects keep their places

An error object that is stored gets a path when it is recorded first, or when user code gives it
one. From then on it has a path: an error that is recorded later, and a method that is called on the
object, find one there and leave it. Nothing else that an execution does touches the places of error
objects.
-/

namespace GraphQL

variable {σ α : Type}

/-! ## Places of error objects -/

namespace World

/-- The path that a stored error object has got. -/
def placeOf? (world : World σ) (identity : Nat) : Option Path :=
  (world.located.find? (·.identity == identity)).bind LocatedFault.path

variable {world : World σ} {fault : Fault} {identity : Nat} {path : Option Path}
  {locations : List Location}

/-- A stored error object has its own path, or else the one that it has got. -/
theorem path_settleFault (stored : fault.identity = some identity) :
    (world.settleFault fault).path = (fault.path <|> world.placeOf? identity) := by
  unfold settleFault located? placeOf?
  rw [stored, Option.bind_some]
  cases world.located.find? (·.identity == identity) with
  | none => cases fault.path <;> rfl
  | some mark => rfl

/-- A stored error object that has got a path has one. -/
theorem isSome_path_settleFault (stored : fault.identity = some identity)
    (placed : (world.placeOf? identity).isSome = true) :
    (world.settleFault fault).path.isSome = true := by
  rw [path_settleFault stored]
  cases fault.path with
  | none => exact placed
  | some own => rfl

theorem placeOf?_keepPlace_self (stored : fault.identity = some identity) :
    (world.keepPlace fault path locations).placeOf? identity = path := by
  unfold keepPlace
  rw [stored]
  show (List.find? _ (_ :: _)).bind _ = _
  rw [List.find?_cons_of_pos (by simp)]
  rfl

theorem placeOf?_keepPlace_of_ne (other : fault.identity ≠ some identity) :
    (world.keepPlace fault path locations).placeOf? identity = world.placeOf? identity := by
  unfold keepPlace
  split
  · rfl
  · next own stored =>
    have different : own ≠ identity := fun same => other (same ▸ stored)
    show (List.find? _ (_ :: _)).bind _ = _
    rw [List.find?_cons_of_neg (by simpa using different), List.find?_filter]
    refine congrArg (Option.bind · _)
      (congrArg (List.find? · world.located) (funext fun mark => ?_))
    by_cases here : mark.identity = identity
    · simp [here, Ne.symm different]
    · simp [here]

end World

namespace Executor

/-- A stored error object has got a path. -/
def HasPlace (identity : Nat) (executor : Executor σ) : Prop :=
  (executor.world.placeOf? identity).isSome = true

variable {identity : Nat} {executor : Executor σ}

/-- A place that is kept with a path, or that is the place of another error object. -/
theorem HasPlace.keepPlace {fault : Fault} {path : Option Path} {locations : List Location}
    (held : executor.HasPlace identity)
    (placed : fault.identity = some identity → path.isSome = true) :
    ((executor.world.keepPlace fault path locations).placeOf? identity).isSome = true := by
  by_cases stored : fault.identity = some identity
  · rw [World.placeOf?_keepPlace_self stored]
    exact placed stored
  · rwa [World.placeOf?_keepPlace_of_ne stored]

theorem placeOf?_recordError (error : FieldError) (executor : Executor σ) :
    (executor.recordError error).world.placeOf? identity =
      (executor.world.keepError error).placeOf? identity := by
  show (((executor.world.report [error.record]).keepError error)).placeOf? identity = _
  unfold World.keepError World.keepPlace
  split
  · rfl
  · split <;> rfl

/-- An error that is recorded with a path gives the error object behind it a place. -/
theorem hasPlace_recordError {error : FieldError} {fault : Fault}
    (given : error.cause = .given fault) (stored : fault.identity = some identity)
    (placed : error.path.isSome = true) : (executor.recordError error).HasPlace identity := by
  unfold HasPlace
  rw [placeOf?_recordError, World.keepError, given]
  show ((executor.world.keepPlace fault error.path error.locations).placeOf? identity).isSome = true
  rwa [World.placeOf?_keepPlace_self stored]

theorem HasPlace.recordError {error : FieldError} (held : executor.HasPlace identity)
    (placed : ∀ fault, error.cause = .given fault → error.path.isSome = true) :
    (executor.recordError error).HasPlace identity := by
  unfold HasPlace
  rw [placeOf?_recordError, World.keepError]
  cases given : error.cause with
  | given fault => exact held.keepPlace fun _ => placed fault given
  | _ => exact held

end Executor

/-! ## Methods of error objects -/

namespace EngineMethod

theorem relocate_keeps (fault : Fault) (args : Entries Value) :
    (relocate fault args).1.identity = fault.identity ∧
      (fault.path.isSome = true → (relocate fault args).1.path.isSome = true) := by
  unfold relocate
  dsimp only
  split
  · exact ⟨rfl, id⟩
  · split
    · exact ⟨rfl, fun _ => rfl⟩
    · exact ⟨rfl, fun _ => rfl⟩

/-- A method changes no error object but its own, which keeps having a path. -/
theorem exists_of_call_eq_some {method : EngineMethod} {args : Entries Value}
    {outcome : Except Fault Value} {changed : Fault}
    (called : method.call args = (outcome, some changed)) :
    ∃ fault, method = .locate fault ∧ changed.identity = fault.identity ∧
      (fault.path.isSome = true → changed.path.isSome = true) := by
  unfold call at called
  split at called
  · cases called
  · cases called
  · next fault fits =>
    have kept := relocate_keeps fault args
    split at called
    · next located failure relocated =>
      rw [relocated] at kept
      cases called
      exact ⟨fault, rfl, kept⟩
    · next located relocated =>
      rw [relocated] at kept
      cases called
      exact ⟨fault, rfl, kept⟩

end EngineMethod

namespace Value

theorem map_value_ne_engine (found : Option Value) (method : EngineMethod) :
    found.map Reading.value ≠ some (.engine method) := by
  cases found <;> nofun

theorem ownAttribute?_eq_locate {value : Value} {name : String} {fault : Fault}
    (read : value.ownAttribute? name = some (.engine (.locate fault))) :
    value.bare = .fault fault := by
  unfold ownAttribute? at read
  split at read
  · split at read
    · cases read
    · cases found : Entries.get? _ name with
      | _ =>
        rw [found] at read
        cases read
  · exact absurd read (map_value_ne_engine _ _)
  · exact absurd read (map_value_ne_engine _ _)
  · split at read <;> cases read
  · exact absurd read (map_value_ne_engine _ _)
  · exact absurd read (map_value_ne_engine _ _)
  · exact absurd read (map_value_ne_engine _ _)
  · next raised shown =>
    unfold Fault.read? at read
    split at read
    · cases read
      exact shown
    · exact absurd read (map_value_ne_engine _ _)
  · unfold Location.attribute? at read
    split at read
    · cases read
    · exact absurd read (map_value_ne_engine _ _)
  · cases read

theorem attribute?_eq_locate {value : Value} {name : String} {fault : Fault}
    (read : value.attribute? name = some (.engine (.locate fault))) :
    value.bare = .fault fault := by
  unfold attribute? at read
  cases own : value.ownAttribute? name with
  | some reading =>
    rw [own] at read
    cases read
    exact ownAttribute?_eq_locate own
  | none =>
    rw [own] at read
    cases method : value.method? name with
    | some found =>
      rw [method] at read
      cases read
    | none =>
      rw [method] at read
      replace read : (if name = className then some (Reading.value value.classOf) else none) =
        some (.engine (.locate fault)) := read
      split at read <;> cases read

/-- What stands for an attribute that is missing is no method. -/
theorem attribute?_getD_eq_locate {value : Value} {name : String} {fault : Fault}
    (read : (value.attribute? name).getD (.value .null) = .engine (.locate fault)) :
    value.bare = .fault fault := by
  cases found : value.attribute? name with
  | none =>
    rw [found] at read
    cases read
  | some reading =>
    rw [found] at read
    exact attribute?_eq_locate (found.trans (congrArg some read))

/-- Only an error object has a method that gives it a place. -/
theorem read_eq_locate {parent : Value} {key name : String} {fault : Fault}
    (read : parent.read key name = .engine (.locate fault)) : parent.bare.bare = .fault fault := by
  unfold Value.read at read
  split at read
  · cases read
  · split at read
    · exact attribute?_getD_eq_locate read
    · exact attribute?_getD_eq_locate read
    · next found _ other =>
      exact attribute?_eq_locate (other.trans (congrArg some read))

@[simp] theorem bare_bare (value : Value) : value.bare.bare = value.bare := by
  induction value using Value.bare.induct with
  | case1 enumName symbol value ih => exact ih
  | case2 value other => simp [bare]

/-- An error object that is shown with what has become of it. -/
theorem bare_mapFaults_eq_fault {change : Fault → Fault} {value : Value} {fault : Fault}
    (shown : (value.mapFaults change).bare = .fault fault) : ∃ own, fault = change own := by
  induction value using Value.bare.induct with
  | case1 enumName symbol value ih => exact ih shown
  | case2 value other =>
    cases value with
    | fault own =>
      cases shown
      exact ⟨own, rfl⟩
    | chosen enumName symbol value => exact absurd rfl (other enumName symbol value)
    | _ => cases shown

end Value

/-! ## Parts that keep places -/

/-- A part after which a stored error object has a path if it had one before. -/
abbrev Exec.KeepsPlace (identity : Nat) (part : Exec σ α) : Prop :=
  part.Preserves (Executor.HasPlace identity)

/-- An attempt that keeps places, also where it fails. -/
abbrev Attempt.KeepsPlace (identity : Nat) (attempt : Attempt σ α) : Prop :=
  Attempt.Preserves (Executor.HasPlace identity) attempt

section

variable {identity : Nat}

/-- A change of the world that touches no places. -/
theorem Exec.KeepsPlace.withWorld {change : World σ → α × World σ}
    (same : ∀ world, (change world).2.located = world.located) :
    (Exec.withWorld change).KeepsPlace identity := by
  intro before held
  show ((change before.world).2.placeOf? identity).isSome = true
  unfold World.placeOf?
  rwa [same]

theorem Exec.KeepsPlace.forceStop (reason : String) :
    Exec.KeepsPlace identity (modify (Executor.forceStop reason) : Exec σ PUnit) := by
  refine .modify fun {executor} held => ?_
  unfold Executor.forceStop
  split <;> exact held

theorem Attempt.KeepsPlace.report (records : List LogRecord) :
    Attempt.KeepsPlace identity (Attempt.report records : Attempt σ Unit) :=
  Attempt.Preserves.lift (.modify fun held => held)

theorem Attempt.KeepsPlace.ofCoercion (coercion : Coercion α) :
    Attempt.KeepsPlace identity (Attempt.ofCoercion coercion : Attempt σ α) := by
  unfold Attempt.ofCoercion
  refine Attempt.Preserves.bind (Attempt.KeepsPlace.report _) fun _ => ?_
  split
  · exact .pure _
  · exact .refuse _
  · exact .halt _
  · exact .halt _
  · exact .halt _

theorem World.located_takeElements (world : World σ) (value : Value) :
    (world.takeElements value).2.located = world.located := by
  unfold World.takeElements
  split
  · dsimp only
    split <;> rfl
  · rfl

namespace Environment

variable (env : Environment σ)

open Exec (KeepsPlace)

theorem run_keepsPlace (code : UserCode σ) : KeepsPlace identity code.run := by
  induction code with
  | finish value => exact .pure _
  | fail fault => exact raise_preserves fault
  | hang => exact Exec.Preserves.checkpoint.bind fun _ => .halt _
  | pause next ih => exact Exec.Preserves.checkpoint.bind fun _ => ih
  | stop reason next ih => exact Exec.Preserves.bind (KeepsPlace.forceStop reason) fun _ => ih
  | access change next ih =>
    exact Exec.Preserves.get.bind fun before =>
      Exec.Preserves.bind (.modify fun held => held) fun _ => ih _
  | renew value next ih =>
    exact Exec.Preserves.bind (KeepsPlace.withWorld fun _ => rfl) fun renewed => ih renewed
  | takeElements value next ih =>
    rw [UserCode.run]
    refine Exec.Preserves.bind
      (KeepsPlace.withWorld fun world => world.located_takeElements value) fun outcome => ?_
    cases outcome with
    | ok elements => exact ih elements
    | error fault => exact raise_preserves fault
  | promise body next _ ih =>
    exact Exec.Preserves.bind (KeepsPlace.withWorld fun _ => rfl) fun promise => ih promise

theorem await_keepsPlace (value : Value) : KeepsPlace identity (Exec.await value : Exec σ _) := by
  unfold Exec.await
  split
  · exact Exec.Preserves.map (KeepsPlace.withWorld fun _ => rfl)
  · exact .pure _
  · refine Exec.Preserves.bind (KeepsPlace.withWorld fun _ => rfl) fun code => ?_
    cases code with
    | some body => exact run_keepsPlace body
    | none => exact .pure _
  · exact .pure _

/-- A method that is called on an error object leaves it with a path if it had one. -/
theorem hasPlace_callMethod {method : EngineMethod} {args : Entries Value} {before : Executor σ}
    (shown : ∀ fault, method = .locate fault → ∃ own, fault = before.world.settleFault own)
    (held : before.HasPlace identity) :
    ((Exec.callMethod method args).runFrom before).2.HasPlace identity := by
  rw [Exec.callMethod, Exec.runFrom_withWorld]
  rcases called : method.call args with ⟨outcome, _ | changed⟩
  · exact held
  · refine held.keepPlace fun stored => ?_
    obtain ⟨fault, located, same, keeps⟩ := EngineMethod.exists_of_call_eq_some called
    obtain ⟨own, rfl⟩ := shown fault located
    refine keeps ?_
    rw [same, (World.settleFault_keeps _ _).1] at stored
    exact World.isSome_path_settleFault stored held

theorem callResolver_keepsPlace (target : Target) (parent : Value) (args : Entries Value)
    {before : Executor σ} (held : before.HasPlace identity) :
    ((env.callResolver target (before.world.settleValue parent) args).runFrom before).2.HasPlace
      identity := by
  unfold callResolver
  split
  · refine Exec.Preserves.bind (run_keepsPlace _) (fun outcome => ?_) before held
    split
    · exact Exec.Preserves.checkpoint.bind fun _ => .pure _
    · exact .pure _
  · split
    · exact KeepsPlace.withWorld (fun _ => rfl) before held
    · refine Exec.Preserves.bind (run_keepsPlace _) (fun outcome => ?_) before held
      cases outcome with
      | ok listed => exact KeepsPlace.withWorld fun _ => rfl
      | error fault => exact .pure _
  · split
    · exact held
    · exact run_keepsPlace _ before held
    · next method read =>
      -- the method belongs to the error object as it is shown, so its path is the one that was got
      refine hasPlace_callMethod (fun fault located => ?_) held
      rw [located] at read
      have shown := Value.read_eq_locate read
      rw [Value.bare_bare, World.settleValue_eq] at shown
      exact Value.bare_mapFaults_eq_fault shown

theorem call_keepsPlace (target : Target) (parent : Value) (args : Entries Value) :
    KeepsPlace identity (env.call target parent args) := by
  intro before held
  unfold call
  rw [Exec.runFrom_bind_ok (Exec.runFrom_get before)]
  have called := env.callResolver_keepsPlace target parent args held
  rcases ran : (env.callResolver target (before.world.settleValue parent) args).runFrom before with
    ⟨why | outcome, middle⟩
  · rw [Exec.runFrom_bind_error ran]
    rwa [ran] at called
  · rw [Exec.runFrom_bind_ok ran]
    rw [ran] at called
    cases outcome with
    | ok value => exact await_keepsPlace value middle called
    | error fault => exact called

theorem accept_keepsPlace (target : Target) (outcome : Except Fault Value) :
    Attempt.KeepsPlace identity (accept target outcome : Attempt σ Value) := by
  unfold accept
  split
  · split
    · exact .halt _
    · split
      · exact .refuse _
      · exact Attempt.Preserves.bind (Attempt.KeepsPlace.report _) fun _ => .refuse _
  · split
    · exact .pure _
    · exact .refuse _
  · exact .pure _

theorem fetch_keepsPlace (target : Target) (object : ObjectType) (parent : Value) (path : Path) :
    Attempt.KeepsPlace identity (env.fetch target object parent path) := by
  unfold fetch
  split
  · exact .pure _
  · refine Attempt.Preserves.get.bind fun executor => ?_
    refine Attempt.Preserves.bind (Attempt.KeepsPlace.ofCoercion _) fun args => ?_
    unfold resolve
    refine Attempt.Preserves.bind (.lift .checkpoint) fun _ => ?_
    refine Attempt.Preserves.bind (.lift (.modify fun held => held)) fun _ => ?_
    exact Attempt.Preserves.bind (.lift (env.call_keepsPlace target parent args))
      (accept_keepsPlace target)

theorem head_keepsPlace (name : String) (value : Value) :
    Attempt.KeepsPlace identity (env.head name value) := by
  unfold head
  refine Attempt.Preserves.get.bind fun executor => ?_
  dsimp only
  split
  · exact .halt _
  · exact (completeEnum_preserves _ _).map
  · exact (env.completeScalar_preserves _ _).map
  · exact (env.checkType_preserves _ _).bind fun _ => .pure _
  · split
    · refine Attempt.Preserves.bind ?_ fun _ => .pure _
      unfold concreteType
      split
      · exact .pure _
      · refine Attempt.Preserves.bind (Attempt.KeepsPlace.report _) fun _ => ?_
        split
        · exact .halt _
        · exact .refuse _
        · exact .refuse _
    · exact .refuse _

theorem itemsOf_keepsPlace (target : Target) (value : Value) :
    Attempt.KeepsPlace identity (itemsOf target value : Attempt σ (List Value)) := by
  unfold itemsOf
  split
  · exact .pure _
  · exact .pure _
  · next taken items failure _ =>
    refine Attempt.Preserves.bind (.lift (KeepsPlace.withWorld fun _ => rfl)) fun remaining => ?_
    cases failure with
    | none => exact .pure _
    | some fault => exact .raise _ _
  · exact .refuse _

theorem awaitItem_keepsPlace (raw : Value) :
    Attempt.KeepsPlace identity (awaitItem raw : Attempt σ Value) := by
  unfold awaitItem
  refine Attempt.Preserves.bind (.lift (await_keepsPlace raw)) fun outcome => ?_
  cases outcome with
  | ok value => exact .pure _
  | error fault =>
    dsimp only
    split
    · exact .halt _
    · exact .refuse _

theorem collectGroups_keepsPlace (object : ObjectType) (selections : List (List Selection)) :
    Attempt.KeepsPlace identity (env.collectGroups object selections) := by
  unfold collectGroups
  refine Attempt.Preserves.get.bind fun executor => ?_
  refine Attempt.Preserves.bind (Attempt.KeepsPlace.report _) fun _ => ?_
  exact Attempt.Preserves.bind (Attempt.KeepsPlace.ofCoercion _) fun _ => .pure _

end Environment

end

end GraphQL
