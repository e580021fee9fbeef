import GraphQL.Proofs.Disruption
import GraphQL.Proofs.NullPropagation

/-!
# Executions in which fields fail

An execution is compared with one under other user code, under which some fields fail. The whole
response differs in the positions that failed alone, and its data follows from that.
-/

namespace GraphQL

variable {σ : Type}

open Position

namespace Environment

variable {env : Environment σ} {behaviour : Behaviour σ} {root : ObjectType}

variable (env root) in
/-- What becomes of a root field with and without failures in it. One that stops the execution
counts only if it leaves no data. -/
inductive RootSpoils (group : FieldGroup) : RootOutcome → RootOutcome → Prop where
  | same (outcome : RootOutcome) : RootSpoils group outcome outcome
  | finished {position other : Position} :
      Spoils position other → RootSpoils group (.finished position) (.finished other)
  | lost {other : Position} : other.response? = none → env.rootRequired root group = true →
      RootSpoils group .unfinished (.finished other)

/-- A root field without data excludes null. -/
theorem GroupFits.required {group : FieldGroup} {position : Position}
    (fits : env.GroupFits root group position) (lost : position.response? = none) :
    env.rootRequired root group = true := by
  have excluded : ∀ required, Response.lost required = none → required = true := by
    intro required gone
    cases required with
    | true => rfl
    | false => cases gone
  unfold GroupFits at fits
  unfold rootRequired
  cases found : env.registry.field? (.object root) group.first.name with
  | none =>
    rw [found] at fits
    obtain ⟨error, rfl⟩ := fits
    cases lost
  | some field =>
    rw [found] at fits
    dsimp only at fits ⊢
    cases position with
    | null => cases lost
    | leaf value => cases lost
    | failed required error =>
      rw [← fits]
      exact excluded required lost
    | list required items =>
      obtain ⟨item, shape, _⟩ := fits
      rw [shape]
      unfold response? at lost
      split at lost
      · cases lost
      · exact excluded required lost
    | object required fields =>
      obtain ⟨name, inner, groups, shape, _⟩ := fits
      rw [shape]
      unfold response? at lost
      split at lost
      · cases lost
      · exact excluded required lost

theorem rootOutcome_spoils {group : FieldGroup} {outcome other : Except Halt Position}
    (alike : Exec.Alike Spoils outcome other) (stopping : Bool)
    (required : ∀ position, other = .ok position → position.response? = none →
      env.rootRequired root group = true) :
    env.RootSpoils root group (rootOutcome stopping outcome) (rootOutcome stopping other) := by
  cases alike with
  | error why => exact .same _
  | @ok position other spoiled =>
    unfold rootOutcome
    cases stopping with
    | false => exact .finished spoiled
    | true =>
      dsimp only
      cases given : position.response? with
      | none =>
        rw [spoiled.response?_eq_none given]
        exact .finished spoiled
      | some response =>
        cases otherGiven : other.response? with
        | none => exact .lost otherGiven (required other rfl otherGiven)
        | some otherResponse => exact .same _

variable (env root) in
/-- What becomes of some root fields with and without failures in them. -/
inductive RootsSpoil : List FieldGroup → List RootOutcome → List RootOutcome → Prop where
  | nil : RootsSpoil [] [] []
  | cons {group : FieldGroup} {groups : List FieldGroup} {outcome other : RootOutcome}
      {outcomes others : List RootOutcome} :
      env.RootSpoils root group outcome other → RootsSpoil groups outcomes others →
      RootsSpoil (group :: groups) (outcome :: outcomes) (other :: others)

namespace RootsSpoil

theorem unfinished (groups : List FieldGroup) :
    env.RootsSpoil root groups (groups.map fun _ => .unfinished)
      (groups.map fun _ => .unfinished) := by
  induction groups with
  | nil => exact .nil
  | cons group rest ih => exact .cons (.same _) ih

/-- Giving up root fields that wait keeps failures where they are. -/
theorem map {groups : List FieldGroup} {outcomes others : List RootOutcome}
    {change : RootOutcome → RootOutcome}
    (stays : ∀ outcome, isWaiting outcome = false → change outcome = outcome)
    (spoiled : env.RootsSpoil root groups outcomes others) :
    env.RootsSpoil root groups (outcomes.map change) (others.map change) := by
  induction spoiled with
  | nil => exact .nil
  | cons first _ ih =>
    refine .cons ?_ ih
    cases first with
    | same => exact .same _
    | finished inner =>
      rw [stays _ rfl, stays _ rfl]
      exact .finished inner
    | lost gone required =>
      rw [stays _ rfl, stays _ rfl]
      exact .lost gone required

/-- The same root fields wait. -/
theorem map_isWaiting {groups : List FieldGroup} {outcomes others : List RootOutcome}
    (spoiled : env.RootsSpoil root groups outcomes others) :
    outcomes.map isWaiting = others.map isWaiting := by
  induction spoiled with
  | nil => rfl
  | cons first _ ih =>
    rw [List.map_cons, List.map_cons, ih]
    cases first <;> rfl

theorem countP_isWaiting {groups : List FieldGroup} {outcomes others : List RootOutcome}
    (spoiled : env.RootsSpoil root groups outcomes others) :
    outcomes.countP isWaiting = others.countP isWaiting := by
  have same := congrArg (List.countP id) spoiled.map_isWaiting
  rwa [List.countP_map, List.countP_map] at same

end RootsSpoil

/-- What cannot halt goes on as a part. -/
theorem lift_bind_mirrors {α β γ δ : Type} {part : StateM (Executor σ) α}
    {other : StateM (Executor σ) β} {next : α → StateM (Executor σ) γ}
    {otherNext : β → StateM (Executor σ) δ} {related : α → β → Prop} {later : γ → δ → Prop}
    (mirrored : Exec.Mirrors related (liftM part : Exec σ α) (liftM other))
    (goesOn : ∀ one two, related one two →
      Exec.Mirrors later (liftM (next one) : Exec σ γ) (liftM (otherNext two))) :
    Exec.Mirrors later (liftM (part >>= next) : Exec σ γ) (liftM (other >>= otherNext)) := by
  have same :
      (liftM (part >>= next) : Exec σ γ) = liftM part >>= fun result => liftM (next result) := rfl
  have otherSame : (liftM (other >>= otherNext) : Exec σ δ) =
      liftM other >>= fun result => liftM (otherNext result) := rfl
  rw [same, otherSame]
  exact mirrored.bind goesOn

theorem Differs.runRootField (differs : env.Differs behaviour)
    (registered : env.registry.type? root.name = some (.object root)) {group : FieldGroup}
    (reached : (env.running behaviour).Reaches root 0 root group) :
    Exec.Mirrors (env.RootSpoils root group)
      (liftM (env.runRootField root group) : Exec σ RootOutcome)
      (liftM ((env.running behaviour).runRootField root group)) := by
  intro one two same
  rw [Exec.runFrom_lift, Exec.runFrom_lift, run_runRootField, run_runRootField,
    Executor.isStopping_of_shared same]
  split
  · exact ⟨same, .ok (.same _)⟩
  · obtain ⟨left, alike⟩ := differs.executeGroup
      (differs.executeObject env.request.depthBound) registered env.request.root
      (rootPath group) group one two same
    refine ⟨left, .ok ?_⟩
    dsimp only
    rw [Executor.isStopping_of_shared left]
    refine rootOutcome_spoils alike _ fun position given lost => ?_
    have executes : (env.running behaviour).Executes root True 1
        ((env.running behaviour).executeObject env.request.depthBound) :=
      executeObject_executes (fun _ => trivial) (Nat.lt_one_add_iff.mpr (Nat.le_refl _))
    have executed : (env.running behaviour).Meets root True (rootPath group)
        ((env.running behaviour).executeGroup
          ((env.running behaviour).executeObject env.request.depthBound) root env.request.root
          (rootPath group) group) fun noted position =>
          (env.running behaviour).GroupFits root group position ∧
            position.Accounts (rootPath group) noted :=
      executeGroup_meets (fun _ => trivial) executes reached _
    obtain ⟨noted, _, outcome⟩ := executed two fun _ => trivial
    rw [given] at outcome
    have fits : (env.running behaviour).GroupFits root group position := outcome.1
    exact fits.required lost

theorem Differs.runTogether (differs : env.Differs behaviour)
    (registered : env.registry.type? root.name = some (.object root)) {groups : List FieldGroup}
    (reached : ∀ group ∈ groups, (env.running behaviour).Reaches root 0 root group) :
    Exec.Mirrors (env.RootsSpoil root groups)
      (liftM (env.runTogether root groups) : Exec σ (List RootOutcome))
      (liftM ((env.running behaviour).runTogether root groups)) := by
  induction groups with
  | nil => exact .pure .nil
  | cons group rest ih =>
    have first := differs.runRootField registered (reached group List.mem_cons_self)
    have others := ih fun group member => reached group (List.mem_cons_of_mem _ member)
    exact lift_bind_mirrors first fun _ _ spoiled => lift_bind_mirrors others
      fun _ _ restSpoiled => .pure (.cons spoiled restSpoiled)

theorem timeOut_blind (count : Nat) :
    Exec.IsBlind (modify (Executor.timeOut count) : Exec σ PUnit) := by
  refine .modify fun executor => ?_
  unfold Executor.timeOut
  rw [Executor.shared_forceStop,
    Executor.shared_forceStop "timeout" (Executor.reportText _ _ executor.shared)]
  rfl

theorem Differs.runQuery (differs : env.Differs behaviour)
    (registered : env.registry.type? root.name = some (.object root)) {groups : List FieldGroup}
    (reached : ∀ group ∈ groups, (env.running behaviour).Reaches root 0 root group) :
    Exec.Mirrors (env.RootsSpoil root groups)
      (liftM (env.runQuery root groups) : Exec σ (List RootOutcome))
      (liftM ((env.running behaviour).runQuery root groups)) := by
  unfold Environment.runQuery
  refine lift_bind_mirrors Exec.Mirrors.get fun one two same => ?_
  rw [Executor.isStopping_of_shared same]
  split
  · exact .pure (.unfinished groups)
  · refine lift_bind_mirrors (Exec.Mirrors.modify fun _ => rfl) fun _ _ _ => ?_
    have together := differs.runTogether registered reached
    refine lift_bind_mirrors together fun outcomes others spoiled => ?_
    have expires : ∀ outcome, isWaiting outcome = false → env.expire outcome = outcome := by
      intro outcome ended
      unfold expire
      rw [ended]
      rfl
    dsimp only
    rw [spoiled.countP_isWaiting]
    split
    · exact .pure spoiled
    · refine lift_bind_mirrors Exec.Mirrors.get fun one two same => ?_
      rw [Executor.isStopping_of_shared same]
      split
      · refine .pure (spoiled.map fun outcome ended => ?_)
        rw [ended]
        rfl
      · rw [running_request]
        split
        · exact lift_bind_mirrors (timeOut_blind _) fun _ _ _ => .pure (spoiled.map expires)
        · exact .pure (spoiled.map expires)

theorem Differs.runMutation (differs : env.Differs behaviour)
    (registered : env.registry.type? root.name = some (.object root)) {groups : List FieldGroup}
    (reached : ∀ group ∈ groups, (env.running behaviour).Reaches root 0 root group) :
    Exec.Mirrors (env.RootsSpoil root groups)
      (liftM (env.runMutation root groups) : Exec σ (List RootOutcome))
      (liftM ((env.running behaviour).runMutation root groups)) := by
  induction groups with
  | nil => exact .pure .nil
  | cons group rest ih =>
    unfold Environment.runMutation
    refine lift_bind_mirrors Exec.Mirrors.get fun one two same => ?_
    rw [Executor.isStopping_of_shared same]
    split
    · exact .pure (.unfinished (group :: rest))
    · refine lift_bind_mirrors (Exec.Mirrors.modify fun _ => rfl) fun _ _ _ => ?_
      have first := differs.runRootField registered (reached group List.mem_cons_self)
      refine lift_bind_mirrors first fun outcome other spoiled => ?_
      have waits : isWaiting outcome = isWaiting other := by cases spoiled <;> rfl
      dsimp only
      rw [waits]
      cases waiting : isWaiting other with
      | true =>
        have same : outcome = other := by
          cases spoiled with
          | same => rfl
          | finished _ => cases waiting
          | lost _ _ => cases waiting
        have expired : env.RootsSpoil root (group :: rest)
            (env.expire outcome :: rest.map fun _ => .unfinished)
            ((env.running behaviour).expire other :: rest.map fun _ => .unfinished) := by
          rw [same]
          exact .cons (.same _) (.unfinished rest)
        rw [running_request]
        cases env.request.settings.timeout.isSome with
        | true => exact lift_bind_mirrors (timeOut_blind 1) fun _ _ _ => .pure expired
        | false => exact .pure expired
      | false =>
        have others := ih fun group member => reached group (List.mem_cons_of_mem _ member)
        exact lift_bind_mirrors others fun _ _ restSpoiled => .pure (.cons spoiled restSpoiled)

theorem Differs.runRootFields (differs : env.Differs behaviour)
    (registered : env.registry.type? root.name = some (.object root)) {groups : List FieldGroup}
    (reached : ∀ group ∈ groups, (env.running behaviour).Reaches root 0 root group) :
    Exec.Mirrors (env.RootsSpoil root groups)
      (liftM (env.runRootFields root groups) : Exec σ (List RootOutcome))
      (liftM ((env.running behaviour).runRootFields root groups)) := by
  unfold Environment.runRootFields
  rw [running_request]
  split
  · exact differs.runMutation registered reached
  · exact differs.runQuery registered reached
  · exact differs.runQuery registered reached

/-- The data of a response with and without failures in it: either way it follows from the positions
of the root fields, of which some failed, or there is none. -/
inductive DataSpoils : Response → Response → Prop where
  | lost : DataSpoils .null .null
  | spoiled {fields others : List (String × Position)} :
      FieldsSpoil fields others → DataSpoils (rootResponse fields) (rootResponse others)

theorem fieldResponses?_eq_none_of_head {entry : String × Position}
    (lost : entry.2.response? = none) (rest : List (String × Position)) :
    fieldResponses? (entry :: rest) = none := by
  obtain ⟨key, field⟩ := entry
  unfold fieldResponses?
  rw [lost]

theorem fieldResponses?_eq_none_of_tail {rest : List (String × Position)}
    (lost : fieldResponses? rest = none) (entry : String × Position) :
    fieldResponses? (entry :: rest) = none := by
  obtain ⟨key, field⟩ := entry
  unfold fieldResponses?
  rw [lost]
  cases field.response? <;> rfl

/-- The positions of root fields, in which some have failed or which leave no data either way. -/
def EntriesSpoil (fields others : List (String × Position)) : Prop :=
  FieldsSpoil fields others ∨ fieldResponses? fields = none ∧ fieldResponses? others = none

theorem EntriesSpoil.cons {entry other : String × Position}
    {fields others : List (String × Position)}
    (first : EntrySpoils entry other ∨ entry.2.response? = none ∧ other.2.response? = none)
    (rest : EntriesSpoil fields others) : EntriesSpoil (entry :: fields) (other :: others) := by
  rcases first with ⟨keyed, spoiled⟩ | ⟨lost, otherLost⟩
  · rcases rest with restSpoiled | ⟨restLost, otherRestLost⟩
    · obtain ⟨key, field⟩ := entry
      obtain ⟨otherKey, otherField⟩ := other
      cases keyed
      exact Or.inl (.cons spoiled restSpoiled)
    · exact Or.inr ⟨fieldResponses?_eq_none_of_tail restLost _,
        fieldResponses?_eq_none_of_tail otherRestLost _⟩
  · exact Or.inr ⟨fieldResponses?_eq_none_of_head lost _,
      fieldResponses?_eq_none_of_head otherLost _⟩

/-- Positions that leave no data either way, or of which some have failed, give data likewise. -/
theorem EntriesSpoil.data {fields others : List (String × Position)}
    (spoiled : EntriesSpoil fields others) :
    DataSpoils (rootResponse fields) (rootResponse others) := by
  rcases spoiled with inner | ⟨lost, otherLost⟩
  · exact .spoiled inner
  · unfold rootResponse
    rw [lost, otherLost]
    exact .lost

variable {groups : List FieldGroup} {outcomes others : List RootOutcome}

theorem RootSpoils.entry {group : FieldGroup} {outcome other : RootOutcome}
    {one two after otherAfter : Executor σ} {entry otherEntry : String × Position}
    (spoiled : env.RootSpoils root group outcome other)
    (ran : (env.rootPosition root group outcome).runFrom one = (.ok entry, after))
    (otherRan : ((env.running behaviour).rootPosition root group other).runFrom two =
      (.ok otherEntry, otherAfter)) :
    EntrySpoils entry otherEntry ∨
      entry.2.response? = none ∧ otherEntry.2.response? = none := by
  cases spoiled with
  | finished inner =>
    cases ran
    cases otherRan
    exact Or.inl ⟨rfl, inner⟩
  | lost gone required =>
    cases ran
    cases otherRan
    refine Or.inr ⟨?_, gone⟩
    show Response.lost (env.rootRequired root group) = none
    rw [required]
    rfl
  | same =>
    cases outcome with
    | finished position =>
      cases ran
      cases otherRan
      exact Or.inl ⟨rfl, .same position⟩
    | unfinished =>
      cases ran
      cases otherRan
      refine Or.inl ⟨rfl, .failed _ _ rfl fun lost => ?_⟩
      show env.rootRequired root group = true
      cases required : env.rootRequired root group with
      | true => rfl
      | false =>
        have given : Response.lost (env.rootRequired root group) = none := lost
        rw [required] at given
        cases given
    | waiting => cases ran
    | escaped origin fault => cases ran
    | tooDeep => cases ran

theorem RootsSpoil.entries {one two after otherAfter : Executor σ}
    {fields otherFields : List (String × Position)}
    (spoiled : env.RootsSpoil root groups outcomes others)
    (ran : ((groups.zip outcomes).mapM fun pair =>
      env.rootPosition root pair.1 pair.2).runFrom one = (.ok fields, after))
    (otherRan : ((groups.zip others).mapM fun pair =>
      (env.running behaviour).rootPosition root pair.1 pair.2).runFrom two =
        (.ok otherFields, otherAfter)) :
    EntriesSpoil fields otherFields := by
  induction spoiled generalizing one two fields otherFields with
  | nil =>
    cases ran
    cases otherRan
    exact Or.inl .nil
  | cons first _ ih =>
    rw [List.zip_cons_cons, List.mapM_cons] at ran otherRan
    obtain ⟨entry, middle, entryRan, ran⟩ := Exec.exists_of_runFrom_bind ran
    obtain ⟨otherEntry, otherMiddle, otherEntryRan, otherRan⟩ :=
      Exec.exists_of_runFrom_bind otherRan
    obtain ⟨rest, ended, restRan, ran⟩ := Exec.exists_of_runFrom_bind ran
    obtain ⟨otherRest, otherEnded, otherRestRan, otherRan⟩ :=
      Exec.exists_of_runFrom_bind otherRan
    cases ran
    cases otherRan
    exact .cons (first.entry entryRan otherEntryRan) (ih restRan otherRestRan)

/-- A root field that is unfinished without a failure, but not with it, leaves no data. -/
theorem RootsSpoil.lost {two otherAfter : Executor σ} {otherFields : List (String × Position)}
    (spoiled : env.RootsSpoil root groups outcomes others)
    (interrupted : outcomes.any isUnfinished = true)
    (finished : others.any isUnfinished = false)
    (otherRan : ((groups.zip others).mapM fun pair =>
      (env.running behaviour).rootPosition root pair.1 pair.2).runFrom two =
        (.ok otherFields, otherAfter)) :
    fieldResponses? otherFields = none := by
  induction spoiled generalizing two otherFields with
  | nil => cases interrupted
  | cons first _ ih =>
    rw [List.zip_cons_cons, List.mapM_cons] at otherRan
    obtain ⟨otherEntry, otherMiddle, otherEntryRan, otherRan⟩ :=
      Exec.exists_of_runFrom_bind otherRan
    obtain ⟨otherRest, otherEnded, otherRestRan, otherRan⟩ :=
      Exec.exists_of_runFrom_bind otherRan
    cases otherRan
    rw [List.any_cons, Bool.or_eq_true] at interrupted
    rw [List.any_cons, Bool.or_eq_false_iff] at finished
    rcases interrupted with here | later
    · cases first with
      | same =>
        rw [here] at finished
        cases finished.1
      | finished _ => cases here
      | lost gone _ =>
        cases otherEntryRan
        exact fieldResponses?_eq_none_of_head gone _
    · exact fieldResponses?_eq_none_of_tail (ih later finished.2 otherRestRan) _

/-- What is unfinished with failures is so without them. -/
theorem RootsSpoil.unfinished_of_any (spoiled : env.RootsSpoil root groups outcomes others)
    (interrupted : others.any isUnfinished = true) : outcomes.any isUnfinished = true := by
  induction spoiled with
  | nil => cases interrupted
  | cons first _ ih =>
    rw [List.any_cons, Bool.or_eq_true] at interrupted ⊢
    rcases interrupted with here | later
    · cases first with
      | same => exact Or.inl here
      | finished _ => cases here
      | lost _ _ => cases here
    · exact Or.inr (ih later)

theorem RootsSpoil.assemble {one two after otherAfter : Executor σ} {data otherData : Response}
    (spoiled : env.RootsSpoil root groups outcomes others)
    (ran : (env.assemble root groups outcomes).runFrom one = (.ok data, after))
    (otherRan : ((env.running behaviour).assemble root groups others).runFrom two =
      (.ok otherData, otherAfter)) :
    DataSpoils data otherData := by
  unfold Environment.assemble at ran otherRan
  split at ran
  · cases ran
  · split at otherRan
    · cases otherRan
    · rw [running_request] at otherRan
      split at ran
      · next interrupted =>
        rw [Bool.and_eq_true] at interrupted
        cases ran
        split at otherRan
        · cases otherRan
          exact .lost
        · next finished =>
          rw [interrupted.2, Bool.and_true, Bool.not_eq_true] at finished
          obtain ⟨fields, middle, fieldsRan, otherRan⟩ := Exec.exists_of_runFrom_bind otherRan
          cases otherRan
          have gone := spoiled.lost interrupted.1 finished fieldsRan
          unfold rootResponse
          rw [gone]
          exact .lost
      · next finished =>
        obtain ⟨fields, middle, fieldsRan, ran⟩ := Exec.exists_of_runFrom_bind ran
        cases ran
        split at otherRan
        · next interrupted =>
          rw [Bool.and_eq_true] at interrupted
          have before := spoiled.unfinished_of_any interrupted.1
          rw [before, interrupted.2] at finished
          exact absurd rfl finished
        · obtain ⟨otherFields, _, otherFieldsRan, otherRan⟩ :=
            Exec.exists_of_runFrom_bind otherRan
          cases otherRan
          exact (spoiled.entries fieldsRan otherFieldsRan).data

/-- Executions on a root type that both give data differ in the positions that failed alone. -/
theorem Differs.executeRoot (differs : env.Differs behaviour)
    (registered : env.registry.type? root.name = some (.object root))
    {before after otherAfter : Executor σ} {data otherData : Response}
    (ran : (env.executeRoot root).runFrom before = (.ok data, after))
    (otherRan : ((env.running behaviour).executeRoot root).runFrom before =
      (.ok otherData, otherAfter)) :
    DataSpoils data otherData := by
  have collects : (env.running behaviour).rootGroups root before = env.rootGroups root before := by
    unfold rootGroups
    rw [differs.collecting]
    rfl
  rcases executeRoot_cases ran with ⟨cause, middle, collected, rfl, rfl⟩ |
      ⟨groups, middle, collected, assembled⟩
  · rcases executeRoot_cases otherRan with ⟨_, _, _, rfl, rfl⟩ | ⟨_, _, otherCollected, _⟩
    · exact .lost
    · rw [collects, collected] at otherCollected
      cases otherCollected
  · rcases executeRoot_cases otherRan with ⟨_, _, otherCollected, _⟩ |
        ⟨otherGroups, otherMiddle, otherCollected, otherAssembled⟩
    · rw [collects, collected] at otherCollected
      cases otherCollected
    · have found := otherCollected
      rw [collects, collected] at found
      cases found
      have nothing : DataSpoils (.object []) (.object []) := .spoiled .nil
      rcases assembled with ⟨rfl, rfl, rfl⟩ | ran
      · rcases otherAssembled with ⟨_, rfl, rfl⟩ | otherRan
        · exact nothing
        · rw [run_runRootFields_nil] at otherRan
          cases otherRan
          exact nothing
      · rcases otherAssembled with ⟨rfl, rfl, rfl⟩ | otherRan
        · rw [run_runRootFields_nil] at ran
          cases ran
          exact nothing
        · have reached : ∀ group ∈ groups, (env.running behaviour).Reaches root 0 root group :=
            fun group member =>
              ⟨_, groups, .root, (collects_rootGroups otherCollected).1, member⟩
          obtain ⟨_, alike⟩ := differs.runRootFields registered reached middle middle rfl
          rw [Exec.runFrom_lift, Exec.runFrom_lift] at alike
          cases alike with
          | ok spoiled => exact spoiled.assemble ran otherRan

/-- Where some fields fail under other user code, the responses differ in the positions that failed
alone. -/
theorem Differs.execute (differs : env.Differs behaviour) {before after otherAfter : Executor σ}
    {result otherResult : ExecutionResult}
    (ran : env.execute.runFrom before = (.ok result, after))
    (otherRan : (env.running behaviour).execute.runFrom before = (.ok otherResult, otherAfter)) :
    DataSpoils result.data otherResult.data := by
  cases found : env.rootType? with
  | none =>
    have otherFound : (env.running behaviour).rootType? = none := found
    rw [runFrom_execute_of_none found] at ran
    rw [runFrom_execute_of_none otherFound] at otherRan
    cases ran
    cases otherRan
    exact .lost
  | some root =>
    have otherFound : (env.running behaviour).rootType? = some root := found
    rw [runFrom_execute_of_some found] at ran
    rw [runFrom_execute_of_some otherFound] at otherRan
    rcases executed : (env.executeRoot root).runFrom (env.begun root before) with
      ⟨why | data, ended⟩
    · rw [executed] at ran
      cases ran
    · rcases otherExecuted : ((env.running behaviour).executeRoot root).runFrom
          ((env.running behaviour).begun root before) with ⟨why | otherData, otherEnded⟩
      · rw [otherExecuted] at otherRan
        cases otherRan
      · rw [executed] at ran
        rw [otherExecuted] at otherRan
        cases ran
        cases otherRan
        exact differs.executeRoot (registered_of_rootType? found) executed otherExecuted

end Environment

end GraphQL
