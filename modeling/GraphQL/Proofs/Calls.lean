import GraphQL.Proofs.Passage
import GraphQL.Proofs.StaticValidity

/-!
# Calls of resolvers

A resolver is called at most once for each position of a response. The positions to which an
execution comes have paths that differ: the groups of an object differ in their response keys, the
items of a list in their indices, and what stands below a position has a longer path. Of these
positions those whose field exists and has a resolver, and whose arguments are coerced, have a call,
unless a stop came first; no other calls are made.
-/

namespace GraphQL

variable {σ : Type}

namespace Environment

variable {env : Environment σ} {root object : ObjectType} {level : Nat} {target : Target}
  {execute : ObjectExecution σ} {inside : ObjectArrivals σ}

/-- A position that a stop keeps from beginning passes no call. -/
theorem Passes.kept {group : FieldGroup} {path : Path} {before : Executor σ}
    {holds : Arrival σ → Prop} (stopping : before.isStopping = true)
    (held : holds ⟨object, group, path, before⟩) :
    env.Passes holds before [⟨object, group, path, before⟩] before where
  calls := by
    have uncalled : env.call? ⟨object, group, path, before⟩ = none := by
      unfold call?
      rw [if_pos stopping]
    rw [List.filterMap_cons_none uncalled, List.filterMap_nil, List.append_nil]
  stays := id
  stops := fun _ _ _ => stopping
  distinct := List.nodup_singleton _
  held := fun other among => List.mem_singleton.mp among ▸ held

/-- The groups of an object that an execution may come to are what its selections give. -/
theorem Encounters.collects {selections : List (List Selection)} {groups : List FieldGroup}
    {before after : Executor σ} (encountered : env.Encounters root level object selections)
    (ran : Exec.runFrom (env.collectGroups object selections).run before =
      (.ok (.ok groups), after)) : env.Collects object selections groups := by
  have attempted : env.Attempts root True [] (env.collectGroups object selections)
      fun noted groups => noted = [] ∧ env.Collects object selections groups :=
    collectGroups_attempts encountered
  obtain ⟨_, _, outcome⟩ := attempted before fun _ => trivial
  rw [ran] at outcome
  exact outcome.2

/-- Running a root field leaves the executor that its position leaves, if it begins. -/
theorem run_runRootField_snd (group : FieldGroup) (before : Executor σ) :
    ((env.runRootField root group).run before).2 =
      ((Exec.checkpoint >>= fun () => env.executeRootField root group).runFrom before).2 := by
  rw [run_runRootField, Exec.runFrom_bind, Exec.runFrom_checkpoint]
  cases before.isStopping with
  | true => rfl
  | false => rfl

/-- Root fields that run together leave the executor that their positions leave in turn. -/
theorem run_runTogether_snd (groups : List FieldGroup) (before : Executor σ) :
    ((env.runTogether root groups).run before).2 =
      ((Exec.attemptEach (groups.map (env.executeRootField root))).run before).2 := by
  induction groups generalizing before with
  | nil => rfl
  | cons group rest ih =>
    rw [List.map_cons, Exec.run_attemptEach_cons]
    show ((env.runTogether root rest).run ((env.runRootField root group).run before).2).2 = _
    rw [run_runRootField_snd]
    exact ih _

section

variable {groups : List FieldGroup} (reached : ∀ group ∈ groups, env.Reaches root 0 root group)
  (distinct : (groups.map FieldGroup.key).Nodup)

include reached distinct

end

variable (env) in
/-- A call that belongs to a position: there is such a field, it is not the name of the object type,
and its arguments are what coercing those of the first selection under the response key gives. -/
structure Asks (arrival : Arrival σ) (call : ResolverCall) : Prop where
  field : ∃ field,
    env.registry.field? (.object arrival.object) arrival.group.first.name = some field ∧
    field.name ≠ Introspection.typenameField.name ∧
    call.label = arrival.object.name ++ "." ++ field.name ∧
    ((env.coercion arrival.executor.world).coerceArguments defaultCoercionDepth field.args
      arrival.group.first.arguments).outcome = .ok call.arguments
  path : call.path = arrival.path

/-- A field that is selected twice, with selections below it that are merged, is resolved once. -/
example :
    ((Environment.execute { petting quietDog with
      request := { operation := { selections := [
        .field "pet" none [] [] none [.field "name" none [] [] none []],
        .field "pet" none [] [] none [.inline (some "Dog") [] [
          .field "barks" none [] [] none [], .field "name" none [] [] none []]]] } } }).runFrom
        { world := { user := () } }).2.calls.map ResolverCall.path =
      [[.key "pet"], [.key "pet", .key "name"], [.key "pet", .key "barks"]] := by
  rfl

end Environment

end GraphQL
