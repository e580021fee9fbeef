import GraphQL.Proofs.Attempt
import Mathlib.Data.List.Forall2

/-!
# Parts that belong together

Parts that run one after another have a result together if each of them has one; otherwise one of
them gives the reason. A part that halts does not keep the parts after it from running, and the
errors of all of them are noted.
-/

namespace GraphQL

variable {σ α β : Type}

/-- Lists made from related lists index by index are related. -/
theorem forall₂_mapIdx_of_forall₂ {γ δ : Type} {Given : α → δ → Prop} {Related : β → γ → Prop}
    {left : Nat → α → β} {right : Nat → δ → γ} {items : List α} {others : List δ}
    (given : List.Forall₂ Given items others)
    (related : ∀ index item other,
      Given item other → Related (left index item) (right index other)) :
    List.Forall₂ Related (items.mapIdx left) (others.mapIdx right) := by
  induction given generalizing left right with
  | nil => exact .nil
  | cons first _ ih =>
    rw [List.mapIdx_cons, List.mapIdx_cons]
    exact .cons (related 0 _ _ first) (ih fun index => related (index + 1))

/-- Lists made from one list index by index are related if their items are. -/
theorem forall₂_mapIdx {γ : Type} {Related : β → γ → Prop} {left : Nat → α → β}
    {right : Nat → α → γ} (items : List α)
    (related : ∀ index item, Related (left index item) (right index item)) :
    List.Forall₂ Related (items.mapIdx left) (items.mapIdx right) :=
  forall₂_mapIdx_of_forall₂ (List.forall₂_same.mpr fun _ _ => rfl)
    fun index item _ same => same ▸ related index item

/-- Lists made from one list are related if what is made of each item is. -/
theorem forall₂_map {γ : Type} {Related : β → γ → Prop} {left : α → β} {right : α → γ}
    {items : List α} (related : ∀ item ∈ items, Related (left item) (right item)) :
    List.Forall₂ Related (items.map left) (items.map right) := by
  rw [List.forall₂_map_left_iff, List.forall₂_map_right_iff]
  exact List.forall₂_same.mpr related

namespace Exec

/-- The results of parts that all have one. -/
theorem eq_map_ok_of_mapM {outcomes : List (Except Halt α)} {results : List α}
    (joined : outcomes.mapM id = .ok results) : outcomes = results.map Except.ok := by
  induction outcomes generalizing results with
  | nil =>
    cases joined
    rfl
  | cons outcome rest ih =>
    rw [List.mapM_cons] at joined
    cases outcome with
    | error why => cases joined
    | ok result =>
      cases others : rest.mapM id with
      | error why =>
        rw [others] at joined
        cases joined
      | ok results =>
        rw [others] at joined
        cases joined
        rw [ih others]
        rfl

/-- The first part that halted gives the reason. -/
theorem mem_of_mapM_eq_error {outcomes : List (Except Halt α)} {why : Halt}
    (joined : outcomes.mapM id = .error why) : .error why ∈ outcomes := by
  induction outcomes with
  | nil => cases joined
  | cons outcome rest ih =>
    rw [List.mapM_cons] at joined
    cases outcome with
    | error reason =>
      cases joined
      exact List.mem_cons_self
    | ok result =>
      cases others : rest.mapM id with
      | error reason =>
        rw [others] at joined
        cases joined
        exact List.mem_cons_of_mem _ (ih others)
      | ok results =>
        rw [others] at joined
        cases joined

theorem isHung_iff {outcome : Except Halt α} : isHung outcome = true ↔ outcome = .error .hung := by
  unfold isHung
  split <;> simp_all

theorem isTooDeep_iff {outcome : Except Halt α} :
    isTooDeep outcome = true ↔ outcome = .error .tooDeep := by
  unfold isTooDeep
  split <;> simp_all

theorem eq_map_ok_of_join {outcomes : List (Except Halt α)} {results : List α}
    (joined : join outcomes = .ok results) : outcomes = results.map Except.ok := by
  unfold join at joined
  split at joined
  · cases joined
  · split at joined
    · cases joined
    · exact eq_map_ok_of_mapM joined

/-- Parts that all have a result have their results together. -/
theorem join_map_ok (results : List α) : join (results.map .ok) = .ok results := by
  have halts : ∀ test : Except Halt α → Bool, (∀ result, test (.ok result) = false) →
      (results.map Except.ok).any test = false := by
    intro test passes
    rw [List.any_map]
    exact List.any_eq_false.mpr fun result _ => by simp [passes]
  have joined : (results.map Except.ok).mapM id = (.ok results : Except Halt (List α)) := by
    induction results with
    | nil => rfl
    | cons result rest ih =>
      rw [List.map_cons, List.mapM_cons, ih fun test passes => by simp [passes]]
      rfl
  unfold join
  rw [halts isHung fun _ => rfl, halts isTooDeep fun _ => rfl, joined]
  rfl

/-- If parts have no result together, one of them halted for the same reason. -/
theorem mem_of_join_eq_error {outcomes : List (Except Halt α)} {why : Halt}
    (joined : join outcomes = .error why) : .error why ∈ outcomes := by
  unfold join at joined
  split at joined
  · next hung =>
    cases joined
    obtain ⟨outcome, member, isHung⟩ := List.any_eq_true.mp hung
    rwa [isHung_iff.mp isHung] at member
  · split at joined
    · next deep =>
      cases joined
      obtain ⟨outcome, member, isTooDeep⟩ := List.any_eq_true.mp deep
      rwa [isTooDeep_iff.mp isTooDeep] at member
    · exact mem_of_mapM_eq_error joined

theorem run_attemptEach_cons (part : Exec σ α) (rest : List (Exec σ α)) (before : Executor σ) :
    (attemptEach (part :: rest)).run before =
      let first := (checkpoint >>= fun () => part).runFrom before
      let others := (attemptEach rest).run first.2
      (first.1 :: others.1, others.2) :=
  rfl

/-- Changing the results of parts by what needs no executor changes their outcomes only. -/
theorem run_attemptEach_map {parts : List (Exec σ α)} {change : Exec σ α → Exec σ β}
    {finish : α → Except Halt β}
    (changed : ∀ part before, (change part).runFrom before =
      ((part.runFrom before).1.bind finish, (part.runFrom before).2)) (before : Executor σ) :
    (attemptEach (parts.map change)).run before =
      (((attemptEach parts).run before).1.map (·.bind finish),
        ((attemptEach parts).run before).2) := by
  induction parts generalizing before with
  | nil => rfl
  | cons part rest ih =>
    have first : (checkpoint >>= fun () => change part).runFrom before =
        (((checkpoint >>= fun () => part).runFrom before).1.bind finish,
          ((checkpoint >>= fun () => part).runFrom before).2) := by
      rw [runFrom_bind, runFrom_bind, runFrom_checkpoint]
      cases before.isStopping with
      | true => rfl
      | false => exact changed part before
    rw [List.map_cons, run_attemptEach_cons, run_attemptEach_cons, first]
    simp only [ih, List.map_cons]

theorem runFrom_siblings (parts : List (Exec σ α)) (before : Executor σ) :
    (siblings parts).runFrom before =
      (if !parts.isEmpty && ((attemptEach parts).run before).2.isStopping then .error .cancelled
        else join ((attemptEach parts).run before).1,
        ((attemptEach parts).run before).2) := by
  unfold siblings
  rw [runFrom_bind_ok (runFrom_lift (attemptEach parts) before)]
  cases parts.isEmpty with
  | true => rfl
  | false =>
    rw [if_neg Bool.false_ne_true, runFrom_bind, runFrom_checkpoint]
    cases ((attemptEach parts).run before).2.isStopping with
    | true => rfl
    | false => rfl

end Exec

/-- Errors and results that go with several parts, one after another. -/
def Jointly : List (List FieldError → α → Prop) → List FieldError → List α → Prop
  | [], noted, results => noted = [] ∧ results = []
  | yields :: rest, noted, results =>
    ∃ here later result others, noted = here ++ later ∧ results = result :: others ∧
      yields here result ∧ Jointly rest later others

namespace Environment

variable {env : Environment σ} {root : ObjectType} {waits : Prop} {path : Path}

/-- What parts do one after another: those that have a result note errors that go with it, and those
that halt have a reason. -/
theorem attemptEach_meets {parts : List (Exec σ α)} {yields : List (List FieldError → α → Prop)}
    (met : List.Forall₂ (env.Meets root waits path) parts yields) {before : Executor σ}
    (waiting : before.world.Waits → waits) :
    ∃ noted, env.Keeps root waits path before noted ((Exec.attemptEach parts).run before).2 ∧
      (∀ results, ((Exec.attemptEach parts).run before).1 = results.map Except.ok →
        Jointly yields noted results) ∧
      ∀ why, .error why ∈ ((Exec.attemptEach parts).run before).1 →
        env.MayHalt root waits why := by
  induction met generalizing before with
  | nil =>
    refine ⟨[], .refl path waiting, ?_, fun why member => absurd member List.not_mem_nil⟩
    intro results found
    exact ⟨rfl, List.map_eq_nil_iff.mp found.symm⟩
  | @cons part gives parts yields metPart _ ih =>
    have metFirst : env.Meets root waits path (Exec.checkpoint >>= fun () => part) gives :=
      Meets.checkpoint.bind_quiet fun _ _ => metPart
    obtain ⟨here, kept, outcome⟩ := metFirst before waiting
    rw [Exec.run_attemptEach_cons]
    obtain ⟨later, keptOn, succeeds, halts⟩ :=
      ih kept.waiting
    refine ⟨here ++ later, kept.trans keptOn, ?_, ?_⟩
    · intro results found
      obtain ⟨result, others, rfl, first, rest⟩ := List.map_eq_cons_iff.mp found.symm
      rw [← first] at outcome
      exact ⟨here, later, result, others, rfl, rfl, outcome, succeeds others rest.symm⟩
    · intro why member
      rcases List.mem_cons.mp member with halted | halted
      · rw [← halted] at outcome
        exact outcome
      · exact halts why halted

/-- The outcome of a part whose result is an error object counts as raised. -/
def unlessFault (positionOf : α → Position) (found : α) : Except Halt α :=
  match (positionOf found).fault? with
  | some fault => .error (.escaped .completion fault)
  | none => .ok found

theorem runFrom_checked (positionOf : α → Position) (part : Exec σ α) (before : Executor σ) :
    (checked positionOf part).runFrom before =
      ((part.runFrom before).1.bind (unlessFault positionOf), (part.runFrom before).2) := by
  unfold checked unlessFault
  rw [Exec.runFrom_bind]
  rcases part.runFrom before with ⟨_ | found, after⟩
  · rfl
  · show Exec.runFrom _ after = _
    cases fault : (positionOf found).fault? with
    | none => simp [Except.bind, fault]
    | some raised => simp [Except.bind, fault]

theorem unlessFault_eq_ok_iff {positionOf : α → Position} {found result : α} :
    unlessFault positionOf found = .ok result ↔
      found = result ∧ (positionOf found).fault? = none := by
  unfold unlessFault
  cases fault : (positionOf found).fault? with
  | none => simp
  | some raised => simp

/-- Outcomes that pass the check for error objects are those that were checked. -/
theorem map_unlessFault_eq_ok_iff {positionOf : α → Position} {outcomes : List (Except Halt α)}
    {results : List α} :
    outcomes.map (·.bind (unlessFault positionOf)) = results.map Except.ok ↔
      outcomes = results.map Except.ok ∧
        ∀ result ∈ results, (positionOf result).fault? = none := by
  constructor
  · intro passed
    induction outcomes generalizing results with
    | nil =>
      obtain rfl := List.map_eq_nil_iff.mp passed.symm
      exact ⟨rfl, fun result among => absurd among List.not_mem_nil⟩
    | cons outcome rest ih =>
      obtain ⟨result, others, rfl, first, later⟩ := List.map_eq_cons_iff.mp passed.symm
      obtain ⟨same, plain⟩ := ih later.symm
      cases outcome with
      | error why => cases first
      | ok found =>
        obtain ⟨rfl, here⟩ := unlessFault_eq_ok_iff.mp first.symm
        exact ⟨by rw [List.map_cons, same], List.forall_mem_cons.mpr ⟨here, plain⟩⟩
  · rintro ⟨rfl, plain⟩
    rw [List.map_map]
    exact List.map_congr_left fun result among =>
      unlessFault_eq_ok_iff.mpr ⟨rfl, plain result among⟩

/-- An outcome that halts after the check for error objects is one, or halted before. -/
theorem of_mem_unlessFault {positionOf : α → Position} {outcomes : List (Except Halt α)}
    {why : Halt} (halted : .error why ∈ outcomes.map (·.bind (unlessFault positionOf))) :
    (∃ fault, why = .escaped .completion fault) ∨ .error why ∈ outcomes := by
  obtain ⟨outcome, member, same⟩ := List.mem_map.mp halted
  cases outcome with
  | error reason =>
    cases same
    exact Or.inr member
  | ok found =>
    have raised : unlessFault positionOf found = .error why := same
    unfold unlessFault at raised
    split at raised
    · next fault _ =>
      cases raised
      exact Or.inl ⟨fault, rfl⟩
    · cases raised

/-- What parts that belong together do, each checked for an error object. -/
theorem siblings_meets {parts : List (Exec σ α)} {yields : List (List FieldError → α → Prop)}
    (positionOf : α → Position) (met : List.Forall₂ (env.Meets root waits path) parts yields)
    {before : Executor σ} (waiting : before.world.Waits → waits) :
    ∃ noted, env.Keeps root waits path before noted
        ((Exec.siblings (parts.map (checked positionOf))).runFrom before).2 ∧
      match ((Exec.siblings (parts.map (checked positionOf))).runFrom before).1 with
      | .ok results => Jointly yields noted results
      | .error why => (∃ fault, why = .escaped .completion fault) ∨
        env.MayHalt root waits why := by
  obtain ⟨noted, kept, succeeds, halts⟩ := attemptEach_meets met waiting
  rw [Exec.runFrom_siblings, Exec.run_attemptEach_map (runFrom_checked positionOf)]
  refine ⟨noted, kept, ?_⟩
  dsimp only
  split
  · next results joined =>
    split at joined
    · cases joined
    · exact succeeds results (map_unlessFault_eq_ok_iff.mp (Exec.eq_map_ok_of_join joined)).1
  · next why joined =>
    split at joined
    · cases joined
      exact Or.inr .cancelled
    · exact (of_mem_unlessFault (Exec.mem_of_join_eq_error joined)).imp_right (halts why)

theorem runFrom_together (positionOf : α → Position) (parts : List (Exec σ α))
    (before : Executor σ) :
    Exec.runFrom (together positionOf parts).run before =
      Exec.runFrom (settleTogether
          ((Exec.siblings (parts.map (checked positionOf))).runFrom before).1).run
        ((Exec.siblings (parts.map (checked positionOf))).runFrom before).2 := by
  have ran : Exec.runFrom (ExceptT.run (liftM
      (Exec.siblings (parts.map (checked positionOf))).outcome :
        Attempt σ (Except Halt (List α)))) before =
      (.ok (.ok ((Exec.siblings (parts.map (checked positionOf))).runFrom before).1),
        ((Exec.siblings (parts.map (checked positionOf))).runFrom before).2) :=
    Attempt.runFrom_liftM_ok (Exec.runFrom_outcome _ _)
  unfold together
  exact Attempt.runFrom_bind_ok ran

/-- The positions of parts that belong together are those of the parts, unless one of them is an
error object: that is raised where the parts belong. -/
theorem Attempts.together {parts : List (Exec σ α)} {yields : List (List FieldError → α → Prop)}
    {positionOf : α → Position} (met : List.Forall₂ (env.Meets root waits path) parts yields) :
    env.Attempts root waits path (Environment.together positionOf parts) (Jointly yields) := by
  intro before waiting
  obtain ⟨noted, kept, outcome⟩ := siblings_meets positionOf met waiting
  rw [runFrom_together]
  rcases ran : (Exec.siblings (parts.map (checked positionOf))).runFrom before with
    ⟨joined, after⟩
  rw [ran] at kept outcome
  -- Only a fault that escaped is looked at again; all else stays what it is.
  rcases joined with (_ | _ | ⟨origin, fault⟩ | _) | results
  · exact ⟨noted, kept, .cancelled⟩
  · exact ⟨noted, kept, outcome.resolve_left fun ⟨_, same⟩ => nomatch same⟩
  · rw [settleTogether, Attempt.runFrom_raise]
    refine ⟨noted, kept, ?_⟩
    cases abandoned : fault.kind.isCancellation with
    | true => exact .cancelled
    | false =>
      cases taken : fault.kind.isFieldError with
      | true => exact .ordinary rfl
      | false =>
        rcases outcome with ⟨raised, same⟩ | halted
        · cases same
          exact .escaped (by decide) abandoned taken
        · exact halted
  · exact ⟨noted, kept, outcome.resolve_left fun ⟨_, same⟩ => nomatch same⟩
  · exact ⟨noted, kept, outcome⟩

end Environment

end GraphQL
