import GraphQL.Proofs.Collection
import GraphQL.Proofs.Execution
import GraphQL.Proofs.Propagation

/-!
# Null propagation in executions

The data of an execution follows from what its root fields completed to by the rule for failing
positions: each of them makes null the nearest position, at it or above it, whose declared type
admits null.
-/

namespace GraphQL

variable {σ : Type}

namespace Environment

variable {env : Environment σ} {root object : ObjectType}

/-- The fields of an object that is laid out stand under the keys of its groups. -/
theorem FieldsFit.keys {groups : List FieldGroup} {fields : List (String × Position)}
    (fit : env.FieldsFit object groups fields) :
    fields.map Prod.fst = groups.map FieldGroup.key := by
  induction fields generalizing groups with
  | nil =>
    cases (fit : groups = [])
    rfl
  | cons entry rest ih =>
    obtain ⟨group, others, rfl, keyed, _, restFit⟩ := fit
    rw [List.map_cons, List.map_cons, ih restFit]
    exact congrArg (· :: _) keyed

mutual

/-- A position that is laid out has distinct keys in every object. -/
theorem keysDistinct_of_fits : ∀ (position : Position) {ref : TypeRef}
    {selections : List (List Selection)}, env.Fits ref selections position → position.KeysDistinct
  | .null, _, _, _ => trivial
  | .leaf _, _, _, _ => trivial
  | .failed _ _, _, _, _ => trivial
  | .list _ items, _, _, ⟨_, _, itemsFit⟩ => itemKeysDistinct_of_fits items itemsFit
  | .object _ fields, _, _, ⟨_, _, _, _, _, collected, fieldsFit⟩ => by
    obtain ⟨world, grouped⟩ := collected.grouped
    refine ⟨?_, fieldKeysDistinct_of_fits fields fieldsFit⟩
    rw [fieldsFit.keys]
    exact grouped.distinct

/-- Items that are laid out have distinct keys in every object. -/
theorem itemKeysDistinct_of_fits : ∀ (items : List Position) {item : TypeRef}
    {selections : List (List Selection)}, env.ItemsFit item selections items →
      Position.ItemKeysDistinct items
  | [], _, _, _ => trivial
  | first :: rest, _, _, ⟨fits, restFit⟩ =>
    ⟨keysDistinct_of_fits first fits, itemKeysDistinct_of_fits rest restFit⟩

/-- Fields that are laid out have distinct keys in every object inside them. -/
theorem fieldKeysDistinct_of_fits : ∀ (fields : List (String × Position)) {object : ObjectType}
    {groups : List FieldGroup}, env.FieldsFit object groups fields →
      Position.FieldKeysDistinct fields
  | [], _, _, _ => trivial
  | (_, position) :: rest, object, _, ⟨group, _, _, _, fits, restFit⟩ => by
    refine ⟨?_, fieldKeysDistinct_of_fits rest restFit⟩
    cases found : env.registry.field? (.object object) group.first.name with
    | some field =>
      rw [found] at fits
      exact keysDistinct_of_fits position fits
    | none =>
      rw [found] at fits
      obtain ⟨error, failed⟩ := fits
      rw [failed]
      trivial

end

variable (env root) in
/-- Collecting the root fields of the operation, from an executor on. -/
def rootGroups (before : Executor σ) :
    Except Halt (Except FailureCause (List FieldGroup)) × Executor σ :=
  Exec.runFrom (env.collectGroups root [env.request.operation.selections]).run before

/-- An execution on a root type that gives data has collected its root fields or failed to. -/
theorem executeRoot_cases {before after : Executor σ} {data : Response}
    (ran : (env.executeRoot root).runFrom before = (.ok data, after)) :
    (∃ cause middle, env.rootGroups root before = (.ok (.error cause), middle) ∧
        data = .null ∧ after = middle.recordError { cause }) ∨
      ∃ groups middle, env.rootGroups root before = (.ok (.ok groups), middle) ∧
        ((groups = [] ∧ data = .object [] ∧ after = middle) ∨
          (env.assemble root groups ((env.runRootFields root groups).run middle).1).runFrom
            ((env.runRootFields root groups).run middle).2 = (.ok data, after)) := by
  unfold executeRoot at ran
  rw [Exec.runFrom_bind] at ran
  rcases collected : env.rootGroups root before with ⟨why | cause | groups, middle⟩
  · rw [rootGroups] at collected
    rw [collected] at ran
    cases ran
  · rw [rootGroups] at collected
    rw [collected] at ran
    refine Or.inl ⟨cause, middle, rfl, ?_⟩
    cases ran
    exact ⟨rfl, rfl⟩
  · rw [rootGroups] at collected
    rw [collected] at ran
    refine Or.inr ⟨groups, middle, rfl, ?_⟩
    cases groups with
    | nil =>
      cases ran
      exact Or.inl ⟨rfl, rfl, rfl⟩
    | cons group rest => exact Or.inr ran

/-- No root fields end at once. -/
theorem run_runRootFields_nil (before : Executor σ) :
    ((env.runRootFields root []).run before).1 = [] := by
  have query : ((env.runQuery root []).run before).1 = [] := by
    rw [run_runQuery]
    split
    · rfl
    · rfl
  unfold runRootFields
  split
  · rfl
  · exact query
  · exact query

/-- The groups that an execution collects for its root are collected for it. -/
theorem collects_rootGroups {before middle : Executor σ} {groups : List FieldGroup}
    (collected : env.rootGroups root before = (.ok (.ok groups), middle)) :
    env.Collects root [env.request.operation.selections] groups ∧
      middle.errors = before.errors := by
  have kept := errors_collectGroups env root [env.request.operation.selections] before
  have met : env.Attempts root True []
      (env.collectGroups root [env.request.operation.selections]) fun noted groups =>
        noted = [] ∧ env.Collects root [env.request.operation.selections] groups :=
    collectGroups_attempts .root
  obtain ⟨noted, _, outcome⟩ := met before fun _ => trivial
  unfold rootGroups at collected
  rw [collected] at kept outcome
  exact ⟨outcome.2, kept⟩

/-- Root fields that were not interrupted have all finished, are laid out as their types say, and
are assembled without a further error. -/
theorem exists_fields_of_assemble {before middle ended : Executor σ} {groups : List FieldGroup}
    {data : Response} (collected : env.rootGroups root before = (.ok (.ok groups), middle))
    (ran : (env.assemble root groups ((env.runRootFields root groups).run middle).1).runFrom
      ((env.runRootFields root groups).run middle).2 = (.ok data, ended))
    (undisturbed : Undisturbed (ended.errors.drop before.errors.length)) :
    ∃ fields noted, ((env.runRootFields root groups).run middle).1 =
        fields.map (fun entry => .finished entry.2) ∧
      env.FieldsFit root groups fields ∧
      ended.errors = ((env.runRootFields root groups).run middle).2.errors ∧
      ended.errors = before.errors ++ noted ∧ Position.FieldsAccount [] noted fields ∧
      data = Position.rootResponse fields := by
  obtain ⟨collects, same⟩ := collects_rootGroups collected
  have reached : ∀ group ∈ groups, env.Reaches root 0 root group := fun group member =>
    ⟨_, groups, .root, collects, member⟩
  have met : env.Meets root True [] (liftM (env.runRootFields root groups))
      (env.RootsFit root True groups) := runRootFields_meets (fun _ => trivial) reached
  obtain ⟨first, kept, fit⟩ := met middle fun _ => trivial
  rw [Exec.runFrom_lift] at kept fit
  obtain ⟨second, keptOn, assembled⟩ := assemble_meets fit _ kept.waiting
  rw [ran] at keptOn assembled
  have errors : ended.errors = before.errors ++ (first ++ second) := by
    rw [keptOn.errors, kept.errors, same, List.append_assoc]
  rw [errors, List.drop_left] at undisturbed
  rcases assembled with ⟨_, disturbed⟩ | ⟨fields, ⟨fieldsFit, quiet⟩, shown⟩
  · exact absurd (Undisturbed.append.mp undisturbed).2 disturbed
  · obtain ⟨rfl, outcomes, accounted⟩ := quiet (Undisturbed.append.mp undisturbed).2
    rw [List.append_nil] at errors
    exact ⟨fields, first, outcomes, fieldsFit, keptOn.errors.trans (List.append_nil _), errors,
      accounted, shown⟩

end Environment

end GraphQL
