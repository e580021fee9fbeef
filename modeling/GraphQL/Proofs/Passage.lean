import GraphQL.Proofs.Arrivals
import GraphQL.Proofs.Silence

/-!
# Calls on the way

What happens to an executor on the way to some positions: each position whose field has to be
resolved has its call, and there are no others. Parts that come one after another join their
positions, if the paths of these differ.
-/

namespace GraphQL

variable {σ α β : Type}

namespace Environment

variable {env : Environment σ}

variable (env) in
/-- What happens to an executor on the way to some positions: their calls are made, and no
others. -/
structure Passes (holds : Arrival σ → Prop) (before : Executor σ) (arrivals : List (Arrival σ))
    (after : Executor σ) : Prop where
  calls : after.calls = before.calls ++ arrivals.filterMap env.call?
  stays : before.isStopping = true → after.isStopping = true
  /-- A position that a stop kept from beginning was come to by an executor that stopped. -/
  stops : ∀ arrival ∈ arrivals, arrival.executor.isStopping = true → after.isStopping = true
  distinct : (arrivals.map Arrival.path).Nodup
  held : ∀ arrival ∈ arrivals, holds arrival

namespace Passes

variable {holds weaker : Arrival σ → Prop} {before middle after : Executor σ}
  {arrivals : List (Arrival σ)}

theorem of_hush (hush : before.Hush after) : env.Passes holds before [] after where
  calls := by rw [hush.calls, List.filterMap_nil, List.append_nil]
  stays := hush.stays
  stops := List.forall_mem_nil _
  distinct := List.nodup_nil
  held := List.forall_mem_nil _

theorem mono (passes : env.Passes holds before arrivals after)
    (implies : ∀ arrival, holds arrival → weaker arrival) :
    env.Passes weaker before arrivals after :=
  { passes with held := fun arrival among => implies arrival (passes.held arrival among) }

theorem then_hush (passes : env.Passes holds before arrivals middle) (hush : middle.Hush after) :
    env.Passes holds before arrivals after where
  calls := by rw [hush.calls, passes.calls]
  stays := hush.stays ∘ passes.stays
  stops := fun arrival among stopping => hush.stays (passes.stops arrival among stopping)
  distinct := passes.distinct
  held := passes.held

/-- What is come to by one part and by the next, at other paths. -/
theorem append {more : List (Arrival σ)} {holdsMore : Arrival σ → Prop}
    (passes : env.Passes holds before arrivals middle)
    (goesOn : env.Passes holdsMore middle more after)
    (apart : ∀ one other, holds one → holdsMore other → one.path ≠ other.path) :
    env.Passes (fun arrival => holds arrival ∨ holdsMore arrival) before (arrivals ++ more)
      after where
  calls := by rw [goesOn.calls, passes.calls, List.filterMap_append, List.append_assoc]
  stays := goesOn.stays ∘ passes.stays
  stops := by
    intro arrival among stopping
    rcases List.mem_append.mp among with here | later
    · exact goesOn.stays (passes.stops arrival here stopping)
    · exact goesOn.stops arrival later stopping
  distinct := by
    rw [List.map_append, List.nodup_append]
    refine ⟨passes.distinct, goesOn.distinct, ?_⟩
    intro path here other later
    obtain ⟨first, firstAmong, rfl⟩ := List.mem_map.mp here
    obtain ⟨second, secondAmong, rfl⟩ := List.mem_map.mp later
    exact apart first second (passes.held _ firstAmong) (goesOn.held _ secondAmong)
  held := by
    intro arrival among
    rcases List.mem_append.mp among with here | later
    · exact Or.inl (passes.held arrival here)
    · exact Or.inr (goesOn.held arrival later)

/-- A part passes what it passes also where something silent follows. -/
theorem bind_silent {part : Exec σ α} {next : α → Exec σ β}
    (passes : env.Passes holds before arrivals (part.runFrom before).2)
    (silent : ∀ result, (next result).IsSilent) :
    env.Passes holds before arrivals ((part >>= next).runFrom before).2 := by
  rcases ran : part.runFrom before with ⟨why | result, middle⟩
  · rw [Exec.runFrom_bind_error ran]
    rwa [ran] at passes
  · rw [Exec.runFrom_bind_ok ran]
    rw [ran] at passes
    exact passes.then_hush (silent result middle)

/-- A position passes what is attempted there. -/
theorem position {ref : TypeRef} {path : Path} {locations : List Location}
    {attempt : Attempt σ Position}
    (passes : env.Passes holds before arrivals (Exec.runFrom attempt.run before).2) :
    env.Passes holds before arrivals
      ((Attempt.position ref path locations attempt).runFrom before).2 := by
  unfold Attempt.position
  refine passes.bind_silent fun outcome => ?_
  cases outcome with
  | ok position => exact .pure _
  | error cause =>
    exact Exec.IsSilent.get.bind fun _ => (Exec.IsSilent.record _).bind fun _ => .pure _

/-- A change of the result of an attempt passes nothing else. -/
theorem map {attempt : Attempt σ α} {change : α → β}
    (passes : env.Passes holds before arrivals (Exec.runFrom attempt.run before).2) :
    env.Passes holds before arrivals (Exec.runFrom (change <$> attempt).run before).2 := by
  rw [ExceptT.run_map, Exec.runFrom_map]
  exact passes

/-- A part that begins only where no stop is asked for. -/
theorem unlessStopping {part : Exec σ α} {come : Arrivals σ}
    (passes : before.isStopping = false →
      env.Passes holds before (come before) (part.runFrom before).2) :
    env.Passes holds before (come.unlessStopping before)
      ((Exec.checkpoint >>= fun () => part).runFrom before).2 := by
  rw [Exec.runFrom_bind, Exec.runFrom_checkpoint]
  unfold Arrivals.unlessStopping
  cases stopping : before.isStopping with
  | true => exact .of_hush (.refl before)
  | false => exact passes stopping

/-- Parts in turn pass what each of them passes, if their paths differ. The induction is on the
parts; those that are left begin with the executor that the first one leaves. -/
theorem attemptEach {ι : Type} {entries : List ι} {part : ι → Exec σ α} {come : ι → Arrivals σ}
    (holds : ι → Arrival σ → Prop)
    (apart : entries.Pairwise fun entry other => ∀ one two, holds entry one → holds other two →
      one.path ≠ two.path)
    (each : ∀ entry ∈ entries, ∀ before, env.Passes (holds entry) before (come entry before)
      ((Exec.checkpoint >>= fun () => part entry).runFrom before).2) (before : Executor σ) :
    env.Passes (fun arrival => ∃ entry ∈ entries, holds entry arrival) before
      (Arrivals.inTurn (entries.map fun entry => (part entry, come entry)) before)
      ((Exec.attemptEach (entries.map part)).run before).2 := by
  induction entries generalizing before with
  | nil => exact .of_hush (.refl before)
  | cons entry rest ih =>
    obtain ⟨here, later⟩ := List.pairwise_cons.mp apart
    obtain ⟨first, others⟩ := List.forall_mem_cons.mp each
    refine ((first before).append (ih later others _) ?_).mono ?_
    · rintro one two own ⟨other, among, held⟩
      exact here other among one two own held
    · rintro arrival (own | ⟨other, among, held⟩)
      · exact ⟨entry, List.mem_cons_self, own⟩
      · exact ⟨other, List.mem_cons_of_mem _ among, held⟩

end Passes

/-- Parts that belong together leave the executor that they leave in turn. -/
theorem runFrom_together_snd (positionOf : α → Position) (parts : List (Exec σ α))
    (before : Executor σ) :
    (Exec.runFrom (together positionOf parts).run before).2 =
      ((Exec.attemptEach parts).run before).2 := by
  have settled : ∀ outcome (executor : Executor σ),
      (Exec.runFrom (settleTogether outcome : Attempt σ (List α)).run executor).2 = executor := by
    rintro ((_ | _ | ⟨origin, fault⟩ | _) | found) executor
    · rfl
    · rfl
    · rw [settleTogether, Attempt.runFrom_raise]
    · rfl
    · rfl
  rw [runFrom_together, settled, Exec.runFrom_siblings,
    Exec.run_attemptEach_map (runFrom_checked positionOf)]

end Environment

end GraphQL
