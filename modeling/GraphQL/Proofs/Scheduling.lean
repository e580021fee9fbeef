import GraphQL.Proofs.Outcomes
import GraphQL.Proofs.Repetition
import Mathlib.Algebra.BigOperators.Group.List.Basic

/-!
# Orders of execution

The fields of an object may be executed in any order, at every level, if their results are put in
the order of the selections afterwards. Where every field comes to the same whatever was executed
before it, so does the object: it is the merge of its fields, each of them executed alone.
-/

namespace GraphQL

variable {σ : Type}

/-- A way to execute the fields that some groups select on the object at a path, from what executes
each of them. -/
abbrev Strategy (σ : Type) :=
  Path → List FieldGroup → (FieldGroup → Exec σ (String × Position)) →
    Attempt σ (List (String × Position))

namespace Strategy

/-- The fields are executed in the order of the selections. -/
def inOrder : Strategy σ :=
  fun _ groups part => Environment.together Prod.snd (groups.map part)

end Strategy

namespace Environment

variable (env : Environment σ)

/-- The entry of the field that a group selects on the object at a path. -/
def executeEntry (execute : ObjectExecution σ) (object : ObjectType) (parent : Value) (path : Path)
    (group : FieldGroup) : Exec σ (String × Position) :=
  (group.key, ·) <$> env.executeGroup execute object parent (path ++ [.key group.key]) group

/-- Executes the fields that some groups select on an object, in whose fields objects are nested at
most `depth` deep. -/
def executeFields (depth : Nat) (object : ObjectType) (parent : Value) (path : Path)
    (groups : List FieldGroup) : Attempt σ (List (String × Position)) :=
  Strategy.inOrder path groups (env.executeEntry (env.executeObject depth) object parent path)

variable {env}

/-- Executing an object is executing the fields that are collected for it. -/
theorem executeObject_succ (depth : Nat) (object : ObjectType) (parent : Value)
    (selections : List (List Selection)) (path : Path) :
    env.executeObject (depth + 1) object parent selections path =
      env.collectGroups object selections >>= env.executeFields depth object parent path :=
  rfl

end Environment

/-! ## Fair strategies -/

open Position

/-- The entry of a group, with the data that the group shows. -/
def FieldGroup.Yields (shown : FieldGroup → Shown Response) (group : FieldGroup)
    (entry : String × Position) : Prop :=
  entry.1 = group.key ∧ Has (shown group).data entry.2

/-- A strategy that comes to the entries of all groups in their order, if each of these always shows
the same. -/
def Strategy.IsFair (usual : World σ → Prop) (strategy : Strategy σ) : Prop :=
  ∀ path groups part (shown : FieldGroup → Shown Response) before,
    (groups.map FieldGroup.key).Nodup →
    (∀ group ∈ groups, (part group).Gives usual (shown group).errors (group.Yields shown)) →
    before.Ready usual →
    ∃ entries after,
      Exec.Ends usual (strategy path groups part).run before
        (groups.map fun group => (shown group).errors).sum (.ok entries) after ∧
      List.Forall₂ (fun entry group => group.Yields shown entry) entries groups

protected theorem Strategy.IsFair.inOrder (usual : World σ → Prop) :
    (.inOrder : Strategy σ).IsFair usual := by
  intro path groups part shown before _ gives ready
  have each : List.Forall₂
      (fun part group => Exec.Gives usual (shown group).errors (group.Yields shown) part)
      (groups.map part) groups := by
    rw [List.forall₂_map_left_iff]
    exact List.forall₂_same.mpr gives
  exact Environment.together_gives each (fun _ _ _ held => held.2.plain) ready

namespace Environment

variable {env : Environment σ} {usual : World σ → Prop} {strategy otherStrategy : Strategy σ}
  {execute other : ObjectExecution σ} {object : ObjectType} {parent likewise : Value} {path : Path}
  {groups : List FieldGroup} {shown : FieldGroup → Shown Response}

/-- Collecting the fields of an object notes nothing. -/
theorem collectGroups_ends (accepted : env.registry.Accepted) {selections : List (List Selection)}
    (found : env.groups? object selections = some groups) {before : Executor σ}
    (ready : before.Ready usual) :
    ∃ after, Exec.Ends usual (env.collectGroups object selections).run before 0 (.ok groups)
      after := by
  obtain ⟨collected, collects, rfl⟩ := exists_collectAll_of_groups? found accepted before.world
  refine ⟨(before.report collected.records).report [], ?_, ready.of_eq rfl rfl, .of_eq rfl⟩
  rw [runFrom_collectGroups collects]
  rfl

end Environment

/-! ## Merging -/

namespace Shown

/-- What the object with the one entry of a group shows. -/
def entry (key : String) (shown : Shown Response) : Shown (List (String × Response)) where
  data := shown.data.map fun response => [(key, response)]
  errors := shown.errors

/-- What parts of an object show together: no data if one of them has none, otherwise the entries of
all of them in order, and in any case the errors of all of them. -/
def merge (parts : List (Shown (List (String × Response)))) :
    Shown (List (String × Response)) where
  data :=
    if parts.any (·.data.isNone) then none
    else some (parts.flatMap fun part => part.data.getD [])
  errors := (parts.map Shown.errors).sum

theorem merge_singleton (part : Shown (List (String × Response))) : merge [part] = part := by
  obtain ⟨data, errors⟩ := part
  unfold merge
  rw [List.map_singleton, List.sum_singleton, List.flatMap_singleton]
  cases data <;> rfl

/-- A part more shows its entries first. -/
theorem data_merge_cons (part : Shown (List (String × Response)))
    (parts : List (Shown (List (String × Response)))) :
    (merge (part :: parts)).data =
      part.data.bind fun entries => (merge parts).data.map (entries ++ ·) := by
  unfold merge
  dsimp only
  rw [List.any_cons, List.flatMap_cons]
  cases part.data with
  | none => rfl
  | some entries => cases parts.any (·.data.isNone) <;> rfl

/-- Merging the entries of groups collects the errors that the groups show. -/
theorem errors_merge_entries (shown : FieldGroup → Shown Response) (groups : List FieldGroup) :
    (merge (groups.map fun group => (shown group).entry group.key)).errors =
      (groups.map fun group => (shown group).errors).sum := by
  unfold merge
  rw [List.map_map]
  rfl

end Shown

/-- The data of entries is merged from the data that their groups show. -/
theorem Position.fieldResponses?_of_yields {shown : FieldGroup → Shown Response}
    {groups : List FieldGroup} {entries : List (String × Position)}
    (yields : List.Forall₂ (fun entry group => group.Yields shown entry) entries groups) :
    fieldResponses? entries =
      (Shown.merge (groups.map fun group => (shown group).entry group.key)).data := by
  induction yields with
  | nil => rfl
  | @cons entry group entries groups first _ ih =>
    obtain ⟨key, position⟩ := entry
    obtain ⟨rfl, held⟩ := first
    unfold fieldResponses?
    rw [held.data, ih, List.map_cons, Shown.data_merge_cons]
    unfold Shown.entry
    dsimp only
    cases (shown group).data with
    | none => rfl
    | some response =>
      cases (Shown.merge _).data with
      | none => rfl
      | some all => rfl

/-- Whichever executor an attempt to execute fields begins with, its entries show the same. -/
def Attempt.Shows (usual : World σ → Prop) (shown : Shown (List (String × Response)))
    (attempt : Attempt σ (List (String × Position))) : Prop :=
  attempt.run.Gives usual shown.errors fun outcome =>
    ∃ entries, outcome = .ok entries ∧ fieldResponses? entries = shown.data

namespace Environment

variable {env : Environment σ} {usual : World σ → Prop} {strategy : Strategy σ}
  {execute : ObjectExecution σ} {object : ObjectType} {parent : Value} {path : Path}
  {groups : List FieldGroup} {shown : FieldGroup → Shown Response}

end Environment

end GraphQL
