import GraphQL.Proofs.Constancy
import GraphQL.Proofs.Root
import GraphQL.Proofs.Scheduling

/-!
# Independence of siblings

No field leaks into another one: where every field comes to the same whatever was executed before
it, objects and whole operations are the merge of their fields, each of them executed alone, in
whichever order they are executed. What is read once, such as an iterable that two fields share,
comes to something else for the second of them.
-/

namespace GraphQL

variable {σ : Type}

open Position

/-- The data of a whole operation, null where its root has to be null. -/
def Response.ofEntries : Option (List (String × Response)) → Response
  | some entries => .object entries
  | none => .null

/-- Whichever executor an execution begins with, the response shows the same. -/
def Exec.Responds (usual : World σ → Prop) (shown : Shown (List (String × Response)))
    (execution : Exec σ Response) : Prop :=
  execution.Gives usual shown.errors fun data => data = .ofEntries shown.data

theorem Position.rootResponse_eq (fields : List (String × Position)) :
    rootResponse fields = .ofEntries (fieldResponses? fields) := by
  unfold rootResponse
  cases fieldResponses? fields <;> rfl

namespace Environment

variable (env : Environment σ)

/-- Executes some groups of root fields as the kind of the operation says. -/
def executeRootGroups (root : ObjectType) (groups : List FieldGroup) : Exec σ Response := do
  let outcomes ← env.runRootFields root groups
  env.assemble root groups outcomes

variable {env} {usual : World σ → Prop} {root : ObjectType} {groups : List FieldGroup}
  {shown : FieldGroup → Shown Response} {before : Executor σ}

/-- What cannot halt, after a change that notes nothing. -/
theorem ends_lift_step {α β : Type} {part : StateM (Executor σ) α}
    {next : α → StateM (Executor σ) β} {result : α} {value : β} {middle after : Executor σ}
    {errors : Multiset ShownError} (ran : part.run before = (result, middle))
    (same : middle.errors = before.errors)
    (ends : Exec.Ends usual (liftM (next result)) middle errors value after) :
    Exec.Ends usual (liftM (part >>= next)) before errors value after := by
  have ranLifted : (liftM part : Exec σ α).runFrom before = (.ok result, middle) := by
    rw [Exec.runFrom_lift, ran]
  have steps : (liftM (part >>= next) : Exec σ β) =
      liftM part >>= fun result => liftM (next result) := rfl
  rw [steps]
  exact Exec.Ends.step ranLifted same ends

/-- What cannot halt, one after another. -/
theorem ends_lift_bind {α β : Type} {part : StateM (Executor σ) α}
    {next : α → StateM (Executor σ) β} {result : α} {value : β} {middle after : Executor σ}
    {errors more : Multiset ShownError}
    (first : Exec.Ends usual (liftM part) before errors result middle)
    (second : Exec.Ends usual (liftM (next result)) middle more value after) :
    Exec.Ends usual (liftM (part >>= next)) before (errors + more) value after := by
  have steps : (liftM (part >>= next) : Exec σ β) =
      liftM part >>= fun result => liftM (next result) := rfl
  rw [steps]
  exact first.bind second

/-- What cannot halt, with its result changed. -/
theorem ends_lift_map {α β : Type} {part : StateM (Executor σ) α} {change : α → β} {result : α}
    {after : Executor σ} {errors : Multiset ShownError}
    (ends : Exec.Ends usual (liftM part) before errors result after) :
    Exec.Ends usual (liftM (part >>= fun result => pure (change result))) before errors
      (change result) after := by
  rw [← add_zero errors]
  exact ends_lift_bind ends (.pure ends.ready)

/-- What root fields come to of which each is finished, with an entry that its group yields. -/
def Finishes (shown : FieldGroup → Shown Response) (groups : List FieldGroup)
    (outcomes : List RootOutcome) : Prop :=
  ∃ entries, outcomes = entries.map (fun entry => .finished entry.2) ∧
    List.Forall₂ (fun entry group => group.Yields shown entry) entries groups

theorem Finishes.cons {group : FieldGroup} {position : Position} {outcomes : List RootOutcome}
    (held : Has (shown group).data position) (finishes : Finishes shown groups outcomes) :
    Finishes shown (group :: groups) (.finished position :: outcomes) := by
  obtain ⟨entries, rfl, yields⟩ := finishes
  exact ⟨(group.key, position) :: entries, rfl, .cons ⟨rfl, held⟩ yields⟩

theorem Finishes.all_finished {outcomes : List RootOutcome}
    (finishes : Finishes shown groups outcomes) {outcome : RootOutcome}
    (among : outcome ∈ outcomes) : ∃ position, outcome = .finished position := by
  obtain ⟨entries, rfl, _⟩ := finishes
  obtain ⟨entry, _, rfl⟩ := List.mem_map.mp among
  exact ⟨entry.2, rfl⟩

section Root

variable (gives : ∀ group ∈ groups,
  (env.executeGroup (env.executeObject env.request.depthBound) root env.request.root
    (rootPath group) group).Gives usual (shown group).errors (Has (shown group).data))

/-- A root field that always shows the same is finished. -/
theorem runRootField_ends {group : FieldGroup}
    (gives : (env.executeGroup (env.executeObject env.request.depthBound) root env.request.root
      (rootPath group) group).Gives usual (shown group).errors (Has (shown group).data))
    (ready : before.Ready usual) :
    ∃ position after,
      Exec.Ends usual (liftM (env.runRootField root group)) before (shown group).errors
        (.finished position) after ∧ Has (shown group).data position := by
  obtain ⟨position, after, ends, held⟩ := gives before ready
  refine ⟨position, after, ⟨?_, ends.ready, ends.notes⟩, held⟩
  rw [Exec.runFrom_lift, run_runRootField, ready.running, if_neg Bool.false_ne_true, ends.ran]
  show (Except.ok (rootOutcome after.isStopping (.ok position)), after) = _
  rw [ends.ready.running]
  rfl

include gives

theorem runTogether_ends (ready : before.Ready usual) :
    ∃ outcomes after,
      Exec.Ends usual (liftM (env.runTogether root groups)) before
        (groups.map fun group => (shown group).errors).sum outcomes after ∧
      Finishes shown groups outcomes := by
  induction groups generalizing before with
  | nil => exact ⟨[], before, ⟨rfl, ready, .of_eq rfl⟩, [], rfl, .nil⟩
  | cons group rest ih =>
    obtain ⟨position, middle, ends, held⟩ :=
      runRootField_ends (gives group List.mem_cons_self) ready
    obtain ⟨outcomes, after, endsOn, finishes⟩ :=
      ih (fun other among => gives other (List.mem_cons_of_mem _ among)) ends.ready
    refine ⟨_, after, ?_, finishes.cons held⟩
    rw [List.map_cons, List.sum_cons]
    refine ends_lift_bind ends ?_
    exact ends_lift_map endsOn

theorem runQuery_ends (ready : before.Ready usual) :
    ∃ outcomes after,
      Exec.Ends usual (liftM (env.runQuery root groups)) before
        (groups.map fun group => (shown group).errors).sum outcomes after ∧
      Finishes shown groups outcomes := by
  have started : (before.start groups.length).Ready usual := ready.of_eq rfl rfl
  obtain ⟨outcomes, after, ends, finishes⟩ := runTogether_ends gives started
  have none : outcomes.countP isWaiting = 0 := by
    refine List.countP_eq_zero.mpr fun outcome among => ?_
    obtain ⟨position, rfl⟩ := finishes.all_finished among
    exact Bool.false_ne_true
  refine ⟨outcomes, after, ?_, finishes⟩
  unfold runQuery
  refine ends_lift_step rfl rfl ?_
  rw [ready.running, if_neg Bool.false_ne_true]
  refine ends_lift_step rfl rfl ?_
  rw [← add_zero (List.sum _)]
  refine ends_lift_bind ends ?_
  dsimp only
  rw [none]
  exact .pure ends.ready

/-- The root fields of a mutation are finished one after another. The induction is on the fields
still to run. -/
theorem runMutation_ends (ready : before.Ready usual) :
    ∃ outcomes after,
      Exec.Ends usual (liftM (env.runMutation root groups)) before
        (groups.map fun group => (shown group).errors).sum outcomes after ∧
      Finishes shown groups outcomes := by
  induction groups generalizing before with
  | nil => exact ⟨[], before, ⟨rfl, ready, .of_eq rfl⟩, [], rfl, .nil⟩
  | cons group rest ih =>
    have started : (before.start 1).Ready usual := ready.of_eq rfl rfl
    obtain ⟨position, middle, ends, held⟩ :=
      runRootField_ends (gives group List.mem_cons_self) started
    obtain ⟨outcomes, after, endsOn, finishes⟩ :=
      ih (fun other among => gives other (List.mem_cons_of_mem _ among)) ends.ready
    refine ⟨_, after, ?_, finishes.cons held⟩
    unfold runMutation
    refine ends_lift_step rfl rfl ?_
    rw [ready.running, if_neg Bool.false_ne_true]
    refine ends_lift_step rfl rfl ?_
    rw [List.map_cons, List.sum_cons]
    refine ends_lift_bind ends ?_
    exact ends_lift_map endsOn

/-- The root fields of an operation of any kind are finished. -/
theorem runRootFields_ends (ready : before.Ready usual) :
    ∃ outcomes after,
      Exec.Ends usual (liftM (env.runRootFields root groups)) before
        (groups.map fun group => (shown group).errors).sum outcomes after ∧
      Finishes shown groups outcomes := by
  unfold runRootFields
  split
  · exact runMutation_ends gives ready
  · exact runQuery_ends gives ready
  · exact runQuery_ends gives ready

end Root

/-- Finished root fields are assembled as they stand. -/
theorem assemble_finished {entries : List (String × Position)}
    (yields : List.Forall₂ (fun entry group => group.Yields shown entry) entries groups) :
    env.assemble root groups (entries.map fun entry => .finished entry.2) =
      pure (rootResponse entries) := by
  have waits : (entries.map fun entry => RootOutcome.finished entry.2).any isWaiting = false := by
    rw [List.any_map]
    exact List.any_eq_false.mpr fun _ _ => Bool.false_ne_true
  have ends : (entries.map fun entry => RootOutcome.finished entry.2).any isUnfinished = false := by
    rw [List.any_map]
    exact List.any_eq_false.mpr fun _ _ => Bool.false_ne_true
  have positions : ((groups.zip (entries.map fun entry => RootOutcome.finished entry.2)).mapM
      fun pair => env.rootPosition root pair.1 pair.2) = pure entries := by
    clear waits ends
    induction yields with
    | nil => rfl
    | @cons entry group entries groups first _ ih =>
      obtain ⟨key, position⟩ := entry
      obtain ⟨rfl, _⟩ := first
      have finished : env.rootPosition root group (.finished position) =
          pure (group.key, position) := rfl
      rw [List.map_cons, List.zip_cons_cons, List.mapM_cons, finished, ih, pure_bind, pure_bind]
  unfold assemble
  rw [waits, ends, if_neg Bool.false_ne_true, Bool.false_and, if_neg Bool.false_ne_true, positions,
    pure_bind]

/-! ## Whole operations -/

/-- Groups of root fields that always show the same show their merge. -/
theorem executeRootGroups_responds (gives : ∀ group ∈ groups,
    (env.executeGroup (env.executeObject env.request.depthBound) root env.request.root
      (rootPath group) group).Gives usual (shown group).errors (Has (shown group).data)) :
    (env.executeRootGroups root groups).Responds usual
      (Shown.merge (groups.map fun group => (shown group).entry group.key)) := by
  intro before ready
  obtain ⟨outcomes, after, ends, entries, rfl, yields⟩ := runRootFields_ends gives ready
  refine ⟨rootResponse entries, after, ?_, ?_⟩
  · unfold executeRootGroups
    rw [Shown.errors_merge_entries, ← add_zero (List.sum _)]
    refine ends.bind ?_
    rw [assemble_finished yields]
    exact .pure ends.ready
  · rw [rootResponse_eq, fieldResponses?_of_yields yields]

/-- Root fields that always show the same show their merge, once they are collected. -/
theorem executeRoot_responds (accepted : env.registry.Accepted)
    (collected : env.groups? root [env.request.operation.selections] = some groups)
    (gives : ∀ group ∈ groups,
      (env.executeGroup (env.executeObject env.request.depthBound) root env.request.root
        (rootPath group) group).Gives usual (shown group).errors (Has (shown group).data)) :
    (env.executeRoot root).Responds usual
      (Shown.merge (groups.map fun group => (shown group).entry group.key)) := by
  intro before ready
  obtain ⟨middle, ends⟩ := collectGroups_ends accepted collected ready
  cases groups with
  | nil =>
    refine ⟨.object [], middle, ?_, rfl⟩
    unfold executeRoot
    rw [Shown.errors_merge_entries, ← add_zero (List.sum _)]
    exact ends.bind (.pure ends.ready)
  | cons group rest =>
    obtain ⟨data, after, endsOn, held⟩ := executeRootGroups_responds gives middle ends.ready
    refine ⟨data, after, ?_, held⟩
    unfold executeRoot
    rw [← zero_add (Shown.errors _)]
    exact ends.bind endsOn

end Environment

end GraphQL
