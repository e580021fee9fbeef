import GraphQL.Proofs.Expansion
import GraphQL.Proofs.Outcomes
import GraphQL.Proofs.Retracing

/-!
# Executing expanded selections

An operation may be executed as it stands or with other selections and fragments. Where those are
expanded from its own, every object has the same fields in the same order either way, with the same
arguments; so the one execution retraces the other.
-/

namespace GraphQL

variable {σ : Type}

/-- What selections are expanded to does not depend on how conditions are refused. -/
theorem Selection.Expands.mono {includes decides : List DirectiveUse → Except CoercionStop Bool}
    {fragments : Entries Fragment} {selections expanded : List Selection}
    (expands : Selection.Expands includes fragments selections expanded)
    (agree : ∀ uses taken, includes uses = .ok taken → decides uses = .ok taken) :
    Selection.Expands decides fragments selections expanded := by
  induction expands with
  | nil => exact .nil
  | excluded left _ ih => exact .excluded (agree _ _ left) ih
  | field taken _ _ ihInside ihAfter => exact .field (agree _ _ taken) ihInside ihAfter
  | inline taken _ _ ihInside ihAfter => exact .inline (agree _ _ taken) ihInside ihAfter
  | undefined taken missing _ ih => exact .undefined (agree _ _ taken) missing ih
  | spread taken defined _ _ ihInside ihAfter =>
    exact .spread (agree _ _ taken) defined ihInside ihAfter

theorem FieldNode.Expands.mono {includes decides : List DirectiveUse → Except CoercionStop Bool}
    {fragments : Entries Fragment} {node other : FieldNode}
    (expands : FieldNode.Expands includes fragments node other)
    (agree : ∀ uses taken, includes uses = .ok taken → decides uses = .ok taken) :
    FieldNode.Expands decides fragments node other :=
  ⟨expands.name, expands.responseKey, expands.arguments, expands.selections.mono agree⟩

/-- Directives decide alike where each of them does. -/
theorem CollectionContext.includes_of_admits {context other : CollectionContext}
    (same : ∀ use, context.admits use = other.admits use) : context.includes = other.includes := by
  funext uses
  induction uses with
  | nil => rfl
  | cons use rest ih =>
    unfold includes
    rw [same, ih]

namespace Environment

variable (env : Environment σ)

/-- Whether directives let their selection take part in an execution. -/
def includes : List DirectiveUse → Except CoercionStop Bool :=
  CollectionContext.includes
    { registry := env.registry
      convert := env.behaviour.convert
      variableValues := env.request.variableValues
      fragments := env.request.fragments
      object := { name := "" } }

/-- The same environment for an operation with other selections and fragments. -/
def asking (selections : List Selection) (fragments : Entries Fragment) : Environment σ :=
  { env with request := { env.request with
      operation := { env.request.operation with selections }
      fragments } }

/-- No resolver looks at the operation or at the fragments. -/
def IgnoresOperation : Prop :=
  ∀ handle parent args operation fragments,
    env.behaviour.resolve handle parent args (some { env.request with operation, fragments }) =
      env.behaviour.resolve handle parent args (some env.request)

variable {env} {object : ObjectType} {selections : List Selection} {fragments : Entries Fragment}

/-- Conditions are decided alike throughout an execution. -/
theorem includes_collection (accepted : env.registry.Accepted) (world : World σ)
    (object : ObjectType) (uses : List DirectiveUse) (taken : Bool) :
    (env.collection world object).includes uses = .ok taken ↔ env.includes uses = .ok taken := by
  have same : (env.collection world object).unsettled.includes = env.includes :=
    CollectionContext.includes_of_admits fun _ => rfl
  have agree := (conditional_collection accepted world object).includes uses
  rw [same] at agree
  exact agree.ok_iff taken

theorem follows_asking (world : World σ) (object : ObjectType) :
    ((env.asking selections fragments).collection world object).Follows
      (env.collection world object) :=
  ⟨CollectionContext.includes_of_admits fun _ => rfl, rfl⟩

/-- The value of a field does not depend on the selections beside or below it. -/
theorem resolve_asking (ignores : env.IgnoresOperation) (parent : String) (field : Field)
    (group likewise : FieldGroup) (path : Path) (value : Value) (args : Entries Value) :
    (env.asking selections fragments).resolve ⟨parent, field, likewise⟩ path value args =
      env.resolve ⟨parent, field, group⟩ path value args := by
  have run : ∀ handle value args, (env.asking selections fragments).runResolver handle value args =
      env.runResolver handle value args := by
    intro handle value args
    unfold runResolver
    rw [show (env.asking selections fragments).behaviour.resolve handle value args
      (some (env.asking selections fragments).request) = _ from ignores ..]
    rfl
  have called : ∀ value args,
      (env.asking selections fragments).callResolver ⟨parent, field, likewise⟩ value args =
        env.callResolver ⟨parent, field, group⟩ value args := by
    intro value args
    unfold callResolver
    dsimp only
    cases field.resolver with
    | given handle => exact run ..
    | introspect what => rfl
    | default => rfl
  unfold resolve call
  simp only [called]
  rfl

/-- Completing a value takes nothing of the request. -/
theorem complete_asking (execute : ObjectExecution σ) (target : Target) (ref : TypeRef)
    (path : Path) (value : Value) :
    (env.asking selections fragments).complete execute target ref path value =
      env.complete execute target ref path value := by
  induction ref generalizing path value with
  | named name required =>
    unfold complete
    rfl
  | list item required ih =>
    unfold complete
    simp only [ih]

/-! ## Positions -/

section Positions

open Position

/-- What executes the fields that two groups select on objects, the one retracing the other. -/
def Retold (execute other : ObjectExecution σ) (group likewise : FieldGroup) : Prop :=
  ∀ object value path,
    Attempt.Retraces (List.Forall₂ EntryShows)
      (execute object value (group.nodes.map FieldNode.selections) path)
      (other object value (likewise.nodes.map FieldNode.selections) path)

variable {execute other : ObjectExecution σ} {group likewise : FieldGroup} {parent : String}
  {field : Field} {includes : List DirectiveUse → Except CoercionStop Bool}
  {table : Entries Fragment}

theorem completeNamed_retraces (retold : Retold execute other group likewise) (required : Bool)
    (name : String) (path : Path) (value : Value) :
    Attempt.Retraces Shows
      (env.completeNamed execute ⟨parent, field, group⟩ required name path value)
      (env.completeNamed other ⟨parent, field, likewise⟩ required name path value) := by
  have same : ∀ one two : Position, one = two → Shows one two := by
    rintro position _ rfl
    exact .refl position
  have inside : ∀ object value, Attempt.Retraces Shows
      (completeObject execute ⟨parent, field, group⟩ required path object value)
      (completeObject other ⟨parent, field, likewise⟩ required path object value) :=
    fun object value => .map ((retold object value path).mono fun _ _ shows => .object shows)
  unfold completeNamed
  refine .get_bind fun one two shared => ?_
  dsimp only
  rw [Executor.settleValue_of_shared shared]
  split
  · exact .halt _
  · exact .of_quiet ((completeEnum_blind _ _).mono same) (completeEnum_quiet _ _)
      (completeEnum_quiet _ _)
  · exact .of_quiet ((env.completeScalar_blind _ _).mono same) (env.completeScalar_quiet _ _)
      (env.completeScalar_quiet _ _)
  · exact .bind_quiet (env.checkType_blind _ _) (env.checkType_quiet _ _) fun _ => inside _ _
  · next type _ _ _ found =>
    split
    · next abstract =>
      have blind : Attempt.IsBlind (env.concreteType type (two.world.settleValue value)) :=
        (concreteType_mirrors found abstract _).mono fun _ _ held => held.1
      exact .bind_quiet blind (env.concreteType_quiet _ _) fun object => inside object _
    · exact .refuse _

/-- Completing a value for one group retraces completing it for the other. The induction follows the
type. -/
theorem complete_retraces (retold : Retold execute other group likewise) (ref : TypeRef)
    (path : Path) (value : Value) :
    Attempt.Retraces Shows (env.complete execute ⟨parent, field, group⟩ ref path value)
      (env.complete other ⟨parent, field, likewise⟩ ref path value) := by
  have nothing : ∀ required, Attempt.Retraces Shows
      (complete.completeNull ⟨parent, field, group⟩ required : Attempt σ Position)
      (complete.completeNull ⟨parent, field, likewise⟩ required) := by
    intro required
    unfold complete.completeNull
    split
    · exact .refuse _
    · exact .pure (.refl _)
  induction ref generalizing path value with
  | named name required =>
    unfold complete
    split
    · exact nothing required
    · exact completeNamed_retraces retold _ _ _ _
  | list item required ih =>
    unfold complete
    split
    · exact nothing required
    · refine .bind_quiet (itemsOf_blind ⟨parent, field, group⟩ value) (itemsOf_quiet _ _)
        fun items => .map ?_
      have each : ∀ (index : Nat) (raw : Value), Exec.Retraces Shows
          (Attempt.position item (path ++ [.index index]) group.locations do
            let value ← awaitItem raw
            env.complete execute ⟨parent, field, group⟩ item (path ++ [.index index]) value)
          (Attempt.position item (path ++ [.index index]) likewise.locations do
            let value ← awaitItem raw
            env.complete other ⟨parent, field, likewise⟩ item (path ++ [.index index]) value) :=
        fun index raw => .position
          (.bind_quiet (awaitItem_blind raw) (awaitItem_quiet raw) fun awaited => ih _ awaited)
      exact (together_retraces (forall₂_mapIdx items each) fun _ _ shows => shows.fault).mono
        fun _ _ shows => .list shows

theorem executeTarget_retraces (ignores : env.IgnoresOperation)
    (retold : Retold execute other group likewise)
    (arguments : group.first.arguments = likewise.first.arguments) (object : ObjectType)
    (value : Value) (path : Path) :
    Exec.Retraces Shows (env.executeTarget execute object ⟨parent, field, group⟩ value path)
      ((env.asking selections fragments).executeTarget other object ⟨parent, field, likewise⟩ value
        path) := by
  unfold executeTarget
  simp only [complete_asking]
  refine .position ?_
  split
  · exact complete_retraces retold _ _ _
  · refine .get_bind fun one two shared => ?_
    have context : (env.asking selections fragments).coercion two.world =
        env.coercion one.world := by
      unfold coercion
      rw [Executor.settleValue_of_shared shared]
      rfl
    rw [context, ← arguments]
    refine .bind_quiet (.ofCoercion _) (.ofCoercion _) fun args => ?_
    rw [resolve_asking ignores parent field group likewise]
    exact .bind_same (resolve_retraces rfl _) fun value => complete_retraces retold _ _ _

theorem executeGroup_retraces (ignores : env.IgnoresOperation)
    (retold : Retold execute other group likewise)
    (resembles : group.Resembles (FieldNode.Expands includes table) likewise) (object : ObjectType)
    (value : Value) (path : Path) :
    Exec.Retraces Shows (env.executeGroup execute object value path group)
      ((env.asking selections fragments).executeGroup other object value path likewise) := by
  have registry : (env.asking selections fragments).registry = env.registry := rfl
  unfold executeGroup
  rw [registry, ← resembles.first.name]
  cases env.registry.field? (.object object) group.first.name with
  | none => exact .position (.refuse _)
  | some field => exact executeTarget_retraces ignores retold resembles.first.arguments _ _ _

end Positions

/-! ## Objects -/

variable (env) in
/-- Selections on an object and expanded ones, where each may repeat some: both are nested less
deeply than objects may still be. -/
structure Unfolds (rank : String → Nat) (depth budget : Nat)
    (chosen others : List (List Selection)) : Prop where
  some : chosen ≠ []
  expands : MatchFirsts (Selection.Expands env.includes env.request.fragments) chosen others
  someOther : others ≠ []
  nested : ∀ inner ∈ chosen, ∃ less, less < depth ∧ env.NestedWithin rank inner less
  shallow : ∀ inner ∈ others, Selection.depths inner < budget

variable {rank : String → Nat} {depth budget : Nat} {chosen others : List (List Selection)}

variable (env) in
/-- Groups of an object and of the expanded selections on it, under one key. -/
structure GroupUnfolds (rank : String → Nat) (depth budget : Nat) (group likewise : FieldGroup) :
    Prop where
  resembles : group.Resembles (FieldNode.Expands env.includes env.request.fragments) likewise
  below : env.Unfolds rank depth budget (group.nodes.map FieldNode.selections)
    (likewise.nodes.map FieldNode.selections)

/-- Collecting the fields of an object gives groups of which each has its expanded likeness. -/
theorem Unfolds.collectAll (unfolds : env.Unfolds rank (depth + 1) (budget + 1) chosen others)
    (accepted : env.registry.Accepted) (ranked : env.Ranked rank) (world : World σ)
    (object : ObjectType) :
    ∃ collected likewise,
      (env.collection world object).collectAll chosen = (.ok (), collected) ∧
      ((env.asking selections fragments).collection world object).collectAll others =
        (.ok (), likewise) ∧
      List.Forall₂ (env.GroupUnfolds rank depth budget) collected.groups likewise.groups := by
  have decides : ∀ uses taken, env.includes uses = .ok taken →
      (env.collection world object).includes uses = .ok taken :=
    fun uses taken => (includes_collection accepted world object uses taken).mpr
  have decided : ∀ uses taken, (env.collection world object).includes uses = .ok taken →
      env.includes uses = .ok taken :=
    fun uses taken => (includes_collection accepted world object uses taken).mp
  obtain ⟨bound, low⟩ := exists_rank_bound rank (chosen.flatMap Selection.spreadsOf)
  obtain ⟨collected, likewise, collects, collectsToo, resemble, shallow⟩ :=
    CollectionContext.collectAll_of_expands (follows_asking world object)
      (fun name fragment defined _ => ranked name fragment defined)
      (fun inner among name spread => low name (List.mem_flatMap.mpr ⟨inner, among, spread⟩))
      (unfolds.expands.mono fun _ _ expands => expands.mono decides)
  have grouped := (env.collection world object).collectAll_grouped chosen
  rw [collects] at grouped
  refine ⟨collected, likewise, collects, collectsToo, ?_⟩
  refine forall₂_imp_of_mem resemble fun group among likely amongToo same => ?_
  have resembles := same.mono fun _ _ expands => expands.mono decided
  refine ⟨resembles, List.cons_ne_nil _ _, ?_, List.cons_ne_nil _ _, fun inner given => ?_,
    fun inner given => ?_⟩
  · exact resembles.nodes.map fun _ _ expands => expands.selections
  · obtain ⟨node, present, rfl⟩ := List.mem_map.mp given
    obtain ⟨⟨list, listed, collectable⟩, _⟩ := grouped.nodes group among node present
    obtain ⟨deeper, within, nested⟩ := unfolds.nested list listed
    obtain ⟨less, fewer, nestedNode⟩ := nested.collectable ranked collectable
    exact ⟨less, by omega, nestedNode⟩
  · obtain ⟨node, present, rfl⟩ := List.mem_map.mp given
    obtain ⟨list, listed, less⟩ := shallow likely amongToo node present
    have within := unfolds.shallow list listed
    omega

/-- The fields that are collected for an object are found again among the expanded ones. -/
theorem collectGroups_mirrors (unfolds : env.Unfolds rank (depth + 1) (budget + 1) chosen others)
    (accepted : env.registry.Accepted) (ranked : env.Ranked rank) (object : ObjectType) :
    Attempt.Mirrors (List.Forall₂ (env.GroupUnfolds rank depth budget))
      (env.collectGroups object chosen)
      ((env.asking selections fragments).collectGroups object others) := by
  intro one two same
  obtain ⟨collected, likewise, collects, collectsToo, unfolded⟩ :=
    unfolds.collectAll accepted ranked one.world object
  have context : (env.asking selections fragments).collection two.world object =
      (env.asking selections fragments).collection one.world object := by
    unfold collection
    rw [Executor.settleValue_of_shared same]
  rw [runFrom_collectGroups collects, runFrom_collectGroups (context ▸ collectsToo)]
  exact ⟨same, .ok (.ok unfolded)⟩

/-- Executing an object retraces executing it for expanded selections. The induction is on how
deeply objects may still be nested. -/
theorem executeObject_retraces (ignores : env.IgnoresOperation) (accepted : env.registry.Accepted)
    (ranked : env.Ranked rank) (unfolds : env.Unfolds rank depth budget chosen others)
    (object : ObjectType) (value : Value) (path : Path) :
    Attempt.Retraces (List.Forall₂ Position.EntryShows)
      (env.executeObject depth object value chosen path)
      ((env.asking selections fragments).executeObject budget object value others path) := by
  induction depth generalizing budget chosen others object value path with
  | zero =>
    obtain ⟨inner, among⟩ := List.exists_mem_of_ne_nil _ unfolds.some
    obtain ⟨less, impossible, _⟩ := unfolds.nested inner among
    exact absurd impossible (Nat.not_lt_zero _)
  | succ depth ih =>
    obtain ⟨budget, rfl⟩ : ∃ less, budget = less + 1 := by
      obtain ⟨inner, among⟩ := List.exists_mem_of_ne_nil _ unfolds.someOther
      exact ⟨budget - 1, by have := unfolds.shallow inner among; omega⟩
    unfold executeObject
    refine .bind_of_quiet (collectGroups_mirrors unfolds accepted ranked object)
      (env.collectGroups_quiet _ _) (collectGroups_quiet _ _ _) fun groups likewise unfolded => ?_
    refine together_retraces ?_ fun _ _ shows => shows.2.fault
    rw [List.forall₂_map_left_iff, List.forall₂_map_right_iff]
    refine unfolded.imp fun group likely groupUnfolds => .map ?_
    have key : group.key = likely.key := groupUnfolds.resembles.first.responseKey
    rw [← key]
    refine (executeGroup_retraces ignores ?_ groupUnfolds.resembles object value _).mono
      fun _ _ shows => ⟨rfl, shows⟩
    exact fun inner value path => ih groupUnfolds.below inner value path

end Environment

end GraphQL
