import GraphQL.Proofs.Siblings

/-!
# Resolving notes no error

Whatever user code does while a field is resolved, no error is recorded before the value is there:
a fault that user code raises is handed on, and becomes the failure of the position only there.
-/

namespace GraphQL

variable {σ : Type}

namespace World

theorem promises_takeElements (world : World σ) (value : Value) :
    (world.takeElements value).2.promises = world.promises := by
  unfold takeElements
  split
  · next failure _ =>
    cases failure with
    | none => rfl
    | some fault => rfl
  · rfl

/-- A promise waits only if its code does. -/
theorem waits_promise {world : World σ} {body : UserCode σ} {waits : Prop}
    (bodyWaits : body.Waits → waits) (worldWaits : world.Waits → waits) :
    (world.promise body).2.Waits → waits := by
  rintro ⟨entry, member, waiting⟩
  rcases List.mem_cons.mp member with rfl | older
  · exact bodyWaits waiting
  · exact worldWaits ⟨entry, older, waiting⟩

/-- Awaiting a promise leaves no other promise than there were. -/
theorem waits_takePromise {world : World σ} {identity : Nat} {waits : Prop}
    (worldWaits : world.Waits → waits) : (world.takePromise identity).2.Waits → waits := by
  rintro ⟨entry, member, waiting⟩
  exact worldWaits ⟨entry, List.mem_of_mem_filter member, waiting⟩

/-- The code of a promise waits only if the promises do. -/
theorem waits_of_takePromise {world : World σ} {identity : Nat} {body : UserCode σ}
    (found : (world.takePromise identity).1 = some body) (waiting : body.Waits) :
    world.Waits := by
  obtain ⟨entry, present, rfl⟩ := Option.map_eq_some_iff.mp found
  exact ⟨entry, List.mem_of_find?_eq_some present, waiting⟩

end World

namespace Environment

variable {env : Environment σ} {root : ObjectType} {waits : Prop} {path : Path}

/-- A fault that user code raises is handed on, unless it abandons the root field. -/
theorem raise_meets (fault : Fault) :
    env.Meets root waits path (UserCode.raise fault) fun noted _ => noted = [] ∧ True := by
  unfold UserCode.raise
  split
  · exact .halt .cancelled
  · exact .pure ⟨rfl, trivial⟩

/-- User code notes no error, and waits forever only if it may. -/
theorem run_meets {code : UserCode σ} (mayWait : code.Waits → waits) :
    env.Meets root waits path code.run fun noted _ => noted = [] ∧ True := by
  induction code with
  | finish value => exact .pure ⟨rfl, trivial⟩
  | fail fault => exact raise_meets fault
  | hang => exact Meets.checkpoint.bind_quiet fun _ _ => .halt (.hung (mayWait .hang))
  | pause next ih =>
    exact Meets.checkpoint.bind_quiet fun _ _ => ih fun waiting => mayWait (.pause waiting)
  | stop reason next ih =>
    refine Meets.bind_quiet (.modify ?_ ?_) fun _ _ => ih fun waiting => mayWait (.stop waiting)
    · exact Executor.errors_forceStop reason
    · exact Executor.promises_forceStop reason
  | access change next ih =>
    refine Meets.get.bind_quiet fun executor _ => ?_
    refine Meets.bind_quiet (.modify ?_ ?_) fun _ _ => ih _ fun waiting =>
      mayWait (.access _ waiting)
    · exact fun _ => rfl
    · exact fun _ => rfl
  | renew value next ih =>
    refine (Meets.withWorld_of_promises fun _ => rfl).bind_quiet fun renewed _ => ?_
    exact ih renewed fun waiting => mayWait (.renew renewed waiting)
  | takeElements value next ih =>
    have taken : env.Meets root waits path (Exec.withWorld (World.takeElements · value) :
        Exec σ (Except Fault (Option (List Value)))) fun noted _ => noted = [] ∧ True :=
      .withWorld_of_promises fun world => world.promises_takeElements value
    rw [UserCode.run]
    refine taken.bind_quiet fun outcome _ => ?_
    cases outcome with
    | ok elements => exact ih elements fun waiting => mayWait (.takeElements elements waiting)
    | error fault => exact raise_meets fault
  | promise body next _ ih =>
    have promised : env.Meets root waits path (Exec.withWorld (World.promise · body))
        fun noted _ => noted = [] ∧ True :=
      .withWorld (fun _ => World.waits_promise fun waiting => mayWait (.promised waiting))
        fun _ _ => trivial
    refine promised.bind_quiet fun promise _ => ?_
    exact ih promise fun waiting => mayWait (.promise promise waiting)

/-- Awaiting a value notes no error. -/
theorem await_meets (value : Value) :
    env.Meets root waits path (Exec.await value) fun noted _ => noted = [] ∧ True := by
  unfold Exec.await
  split
  · exact Meets.map (Meets.withWorld_of_promises fun _ => rfl)
  · exact .pure ⟨rfl, trivial⟩
  · next identity _ =>
    have taken : env.Meets root waits path (Exec.withWorld (World.takePromise · identity))
        fun noted code => noted = [] ∧ ∀ body, code = some body → body.Waits → waits :=
      .withWorld (fun _ => World.waits_takePromise) fun _ worldWaits _ found waiting =>
        worldWaits (World.waits_of_takePromise found waiting)
    refine taken.bind_quiet fun code mayWait => ?_
    cases code with
    | some body => exact run_meets (mayWait body rfl)
    | none => exact .pure ⟨rfl, trivial⟩
  · exact .pure ⟨rfl, trivial⟩

/-- Looking at a parent notes no error. -/
theorem inspect_meets (inspection : Introspector.Inspection Value) :
    env.Meets root waits path (Exec.inspect inspection) fun noted _ => noted = [] ∧ True :=
  .withWorld_of_promises fun _ => rfl

/-- A method of the engine notes no error. -/
theorem callMethod_meets (method : EngineMethod) (args : Entries Value) :
    env.Meets root waits path (Exec.callMethod method args) fun noted _ =>
      noted = [] ∧ True := by
  refine .withWorld_of_promises fun world => ?_
  split
  · exact World.promises_keepPlace ..
  · rfl

/-- The code of a resolver notes no error. -/
theorem resolver_meets (mayWait : env.Waits → waits) (handle : Handle) (parent : Value)
    (args : Entries Value) (request : Option Request) :
    env.Meets root waits path (env.behaviour.resolve handle parent args request).run
      fun noted _ => noted = [] ∧ True :=
  run_meets fun waiting => mayWait ⟨handle, parent, args, request, waiting⟩

theorem runResolver_meets (mayWait : env.Waits → waits) (handle : Handle) (parent : Value)
    (args : Entries Value) :
    env.Meets root waits path (env.runResolver handle parent args) fun noted _ =>
      noted = [] ∧ True := by
  unfold runResolver
  refine (resolver_meets mayWait handle parent args _).bind_quiet fun outcome _ => ?_
  cases env.request.settings.threads with
  | true => exact Meets.checkpoint.bind_quiet fun _ _ => .pure ⟨rfl, trivial⟩
  | false => exact .pure ⟨rfl, trivial⟩

/-- Calling the resolver of a field notes no error, wherever the value is read. -/
theorem callResolver_meets (mayWait : env.Waits → waits) (target : Target) (parent : Value)
    (args : Entries Value) :
    env.Meets root waits path (env.callResolver target parent args) fun noted _ =>
      noted = [] ∧ True := by
  unfold callResolver
  split
  · exact runResolver_meets mayWait _ _ _
  · split
    · exact inspect_meets _
    · refine (resolver_meets mayWait _ _ _ _).bind_quiet fun outcome _ => ?_
      cases outcome with
      | ok listed => exact inspect_meets _
      | error fault => exact .pure ⟨rfl, trivial⟩
  · split
    · exact .pure ⟨rfl, trivial⟩
    · exact resolver_meets mayWait _ _ _ _
    · exact callMethod_meets _ _

theorem call_meets (mayWait : env.Waits → waits) (target : Target) (parent : Value)
    (args : Entries Value) :
    env.Meets root waits path (env.call target parent args) fun noted _ =>
      noted = [] ∧ True := by
  unfold call
  refine Meets.get.bind_quiet fun executor _ => ?_
  refine (callResolver_meets mayWait _ _ _).bind_quiet fun outcome _ => ?_
  cases outcome with
  | ok value => exact await_meets value
  | error fault => exact .pure ⟨rfl, trivial⟩

/-- A fault of user code is an ordinary cause. -/
theorem isOrdinary_failureOf (fault : Fault) : (failureOf fault).isOrdinary = true := by
  unfold failureOf
  split <;> rfl

theorem accept_attempts (target : Target) (outcome : Except Fault Value) :
    env.Attempts root waits path (accept target outcome : Attempt σ Value) fun noted _ =>
      noted = [] ∧ True := by
  unfold accept
  split
  · split
    · exact .halt .cancelled
    · split
      · exact .refuse rfl
      · exact (Attempts.report _).bind_quiet fun _ _ => .refuse rfl
  · split
    · exact .pure ⟨rfl, trivial⟩
    · exact .refuse (isOrdinary_failureOf _)
  · exact .pure ⟨rfl, trivial⟩

/-- Resolving a field notes no error before the value is there. -/
theorem resolve_attempts (mayWait : env.Waits → waits) (target : Target) (parent : Value)
    (args : Entries Value) :
    env.Attempts root waits path (env.resolve target path parent args) fun noted _ =>
      noted = [] ∧ True := by
  unfold resolve
  refine (Attempts.lift Meets.checkpoint).bind_quiet fun _ _ => ?_
  refine Attempts.bind_quiet (.modify ?_ ?_) fun _ _ => ?_
  · exact fun _ => rfl
  · exact fun _ => rfl
  · refine (Attempts.lift (call_meets mayWait target parent args)).bind_quiet fun outcome _ => ?_
    exact accept_attempts target outcome

end Environment

end GraphQL
