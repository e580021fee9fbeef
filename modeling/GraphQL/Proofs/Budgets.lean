import GraphQL.Proofs.Failures
import GraphQL.Proofs.Inlined
import GraphQL.Proofs.Outcomes
import GraphQL.Proofs.Repetition

/-!
# Budgets that are not used up

Reading fragments and executing nested objects both go on within a budget. Any budget beyond the
number of fragments reads the same, as each fragment is read once. Any budget beyond the depth of
the operation executes the same, as each object is nested in fewer than that. So neither budget ever
decides what becomes of an execution.
-/

namespace GraphQL

variable {σ : Type}

namespace CollectionContext

variable {context : CollectionContext} {budget : Nat} {one other : Collector Unit}

/-! ## Reading fragments -/

variable (context budget) in
/-- Two steps of collecting do the same where at most so many fragments have not been spread, and
forget none of those that were. -/
def ReadAlike (one other : Collector Unit) : Prop :=
  ∀ before, context.unread before.spread ≤ budget →
    one.runFrom before = other.runFrom before ∧ before.spread ⊆ (one.runFrom before).2.spread

namespace ReadAlike

theorem refl {part : Collector Unit}
    (keeps : ∀ before : Collected, before.spread ⊆ (part.runFrom before).2.spread) :
    context.ReadAlike budget part part :=
  fun before _ => ⟨rfl, keeps before⟩

protected theorem pure : context.ReadAlike budget (pure ()) (pure ()) :=
  .refl fun _ => List.Subset.refl _

protected theorem bind {next goOn : Unit → Collector Unit}
    (first : context.ReadAlike budget one other)
    (second : context.ReadAlike budget (next ()) (goOn ())) :
    context.ReadAlike budget (one >>= next) (other >>= goOn) := by
  intro before enough
  obtain ⟨same, grows⟩ := first before enough
  rw [Collector.runFrom_bind, Collector.runFrom_bind, ← same]
  rcases ran : one.runFrom before with ⟨stop | _, middle⟩
  · rw [ran] at grows
    exact ⟨rfl, grows⟩
  · rw [ran] at grows
    obtain ⟨sameOn, growsOn⟩ := second middle (Nat.le_trans (unread_anti grows) enough)
    exact ⟨sameOn, List.Subset.trans grows growsOn⟩

/-- Both parts are run where directives include them. -/
theorem included (directives : List DirectiveUse) (alike : context.ReadAlike budget one other) :
    context.ReadAlike budget
      (do if ← ExceptT.mk (pure (context.includes directives)) then one else pure ())
      (do if ← ExceptT.mk (pure (context.includes directives)) then other else pure ()) := by
  cases context.includes directives with
  | error stop => exact .refl fun _ => List.Subset.refl _
  | ok taken =>
    cases taken with
    | false => exact .pure
    | true => exact alike

variable {expand further : List Selection → Collector Unit}

/-- A fragment that is spread is one fewer that has not been. -/
theorem spread (alike : ∀ less, budget = less + 1 → ∀ selections,
      context.ReadAlike less (expand selections) (further selections)) (name : String) :
    context.ReadAlike budget (context.collectSpread expand name)
      (context.collectSpread further name) := by
  intro before enough
  rw [runFrom_collectSpread, runFrom_collectSpread]
  cases known : before.spread.contains name with
  | true => exact ⟨rfl, List.Subset.refl _⟩
  | false =>
    cases defined : Entries.get? context.fragments name with
    | none => exact ⟨rfl, List.subset_append_left _ _⟩
    | some fragment =>
      dsimp only
      cases context.covers (some fragment.condition) with
      | false => exact ⟨rfl, List.subset_append_left _ _⟩
      | true =>
        have fewer := unread_append_lt known defined
        obtain ⟨less, rfl⟩ : ∃ less, budget = less + 1 := ⟨budget - 1, by omega⟩
        obtain ⟨same, grows⟩ := alike less rfl fragment.selections
          { before with spread := before.spread ++ [name] } (by dsimp only; omega)
        exact ⟨same, List.Subset.trans (List.subset_append_left _ _) grows⟩

mutual

theorem collectOne (alike : ∀ less, budget = less + 1 → ∀ selections,
      context.ReadAlike less (expand selections) (further selections)) (selection : Selection) :
    context.ReadAlike budget (context.collectOne expand selection)
      (context.collectOne further selection) := by
  cases selection with
  | field name otherKey arguments directives location inner =>
    exact .included directives (.refl fun _ => List.Subset.refl _)
  | inline condition directives inner =>
    refine .included directives ?_
    cases context.covers condition with
    | false => exact .pure
    | true => exact collectEach alike inner
  | spread name directives => exact .included directives (.spread alike name)

/-- Selections are read the same, whatever becomes of fragments beyond the budget. -/
theorem collectEach (alike : ∀ less, budget = less + 1 → ∀ selections,
      context.ReadAlike less (expand selections) (further selections))
    (selections : List Selection) :
    context.ReadAlike budget (context.collectEach expand selections)
      (context.collectEach further selections) := by
  cases selections with
  | nil => exact .pure
  | cons selection rest => exact (collectOne alike selection).bind (collectEach alike rest)

end

end ReadAlike

theorem readAlike_collectWithin {less more : Nat} (low : budget ≤ less) (high : budget ≤ more)
    (selections : List Selection) :
    context.ReadAlike budget (context.collectWithin less selections)
      (context.collectWithin more selections) := by
  induction budget generalizing less more selections with
  | zero =>
    rw [collectWithin_eq, collectWithin_eq]
    exact .collectEach (fun _ none => absurd none.symm (Nat.succ_ne_zero _)) selections
  | succ budget ih =>
    rw [collectWithin_eq, collectWithin_eq]
    refine .collectEach (fun fewer same inner => ?_) selections
    cases same
    obtain ⟨less, rfl⟩ : ∃ smaller, less = smaller + 1 := ⟨less - 1, by omega⟩
    obtain ⟨more, rfl⟩ : ∃ smaller, more = smaller + 1 := ⟨more - 1, by omega⟩
    exact ih (by omega) (by omega) inner

/-- Reading needs no greater budget than there are fragments. -/
theorem collectWithin_eq_collect (enough : context.fragments.length ≤ budget)
    (selections : List Selection) :
    context.collectWithin budget selections = context.collect selections := by
  refine funext fun before => ?_
  have few : context.unread before.spread ≤ context.fragments.length := List.countP_le_length
  exact (readAlike_collectWithin enough (Nat.le_refl _) selections before few).1

end CollectionContext

/-! ## Executing nested objects -/

namespace Environment

variable {env : Environment σ} {root object : ObjectType} {execute further : ObjectExecution σ}

/-- Completing a value depends on the execution of objects only for the selections of its field. -/
theorem complete_congr {target : Target}
    (alike : ∀ object value path,
      execute object value (target.group.nodes.map FieldNode.selections) path =
        further object value (target.group.nodes.map FieldNode.selections) path)
    (ref : TypeRef) (path : Path) (value : Value) :
    env.complete execute target ref path value = env.complete further target ref path value := by
  induction ref generalizing path value with
  | named name required =>
    unfold complete
    rw [completeNamed_eq, completeNamed_eq]
    have heads : completeHead execute target required path =
        completeHead further target required path := by
      funext head
      cases head with
      | leaf position => rfl
      | object type value =>
        exact congrArg (Position.object required <$> ·) (alike type value path)
    rw [heads]
  | list item required ih =>
    cases present : value.isNull with
    | true =>
      unfold complete
      rw [present, if_pos rfl, if_pos rfl]
    | false =>
      have items : env.completeItem execute target item = env.completeItem further target item := by
        funext path raw
        unfold completeItem
        rw [show env.complete execute target item path = env.complete further target item path from
          funext (ih path)]
      rw [complete_list present, complete_list present, items]

/-- A group is executed the same where its selections are. -/
theorem executeGroup_congr {group : FieldGroup}
    (alike : ∀ object value path,
      execute object value (group.nodes.map FieldNode.selections) path =
        further object value (group.nodes.map FieldNode.selections) path)
    (parent : Value) (path : Path) :
    env.executeGroup execute object parent path group =
      env.executeGroup further object parent path group := by
  unfold executeGroup
  cases env.registry.field? (.object object) group.first.name with
  | none => rfl
  | some field =>
    dsimp only
    rw [executeTarget_eq, executeTarget_eq]
    rw [show env.complete execute ⟨object.name, field, group⟩ field.type path =
      env.complete further ⟨object.name, field, group⟩ field.type path from
        funext (complete_congr alike field.type path)]

/-- What comes after collecting matters only for what can be collected. -/
theorem collectGroups_bind_congr {α : Type} {selections : List (List Selection)}
    {next goOn : List FieldGroup → Attempt σ α}
    (alike : ∀ groups, env.Collects object selections groups → next groups = goOn groups) :
    env.collectGroups object selections >>= next = env.collectGroups object selections >>= goOn := by
  refine funext fun before => ?_
  show Exec.runFrom (_ >>= next).run before = Exec.runFrom (_ >>= goOn).run before
  rw [ExceptT.run_bind, ExceptT.run_bind, Exec.runFrom_bind, Exec.runFrom_bind]
  rcases found : (env.collection before.world object).collectAll selections with
    ⟨stop | _, collected⟩
  · rw [runFrom_collectGroups found]
    cases stop with
    | failed _ => rfl
    | _ => rfl
  · have collects : env.Collects object selections collected.groups :=
      ⟨before.world, congrArg Prod.fst found, congrArg (fun all => all.2.groups) found⟩
    rw [runFrom_collectGroups found]
    show Exec.runFrom (next collected.groups).run _ = Exec.runFrom (goOn collected.groups).run _
    rw [alike _ collects]

/-- Objects are executed the same within any two budgets beyond the depth of their selections. -/
theorem executeObject_congr {deep less more : Nat} {selections : List (List Selection)}
    (within : ∀ inner ∈ selections, Selection.DeepAtMost env.request.fragments inner deep)
    (low : deep < less) (high : deep < more) (parent : Value) (path : Path) :
    env.executeObject less object parent selections path =
      env.executeObject more object parent selections path := by
  induction less generalizing deep more object parent selections path with
  | zero => exact absurd low (Nat.not_lt_zero _)
  | succ less ih =>
    obtain ⟨more, rfl⟩ : ∃ fewer, more = fewer + 1 := ⟨more - 1, by omega⟩
    unfold executeObject
    refine collectGroups_bind_congr fun groups collected => ?_
    refine congrArg (together Prod.snd) (List.map_congr_left fun group member => ?_)
    obtain ⟨deep, rfl, inside⟩ := collected.deepAtMost within group member
    have fewer : deep < less := by omega
    have others : deep < more := by omega
    rw [executeGroup_congr fun _ value path => ih inside fewer others value path]

end Environment

end GraphQL
