import GraphQL.Proofs.Expansion
import GraphQL.Proofs.Inlining

/-!
# Operations with their fragments written out

Where the spreads of an operation do not lead back into themselves, its fragments can be written out
in place of them. How deeply fields are nested then bounds how deeply objects are nested: selections
that come together on an object are nested less deeply than those on the object around it, from
however many places they come.
-/

namespace GraphQL

variable {σ : Type}

namespace Selection

/-- Each fragment is written out wherever it is spread, whatever its directives say. -/
abbrev Inlines (fragments : Entries Fragment) : List Selection → List Selection → Prop :=
  Expands (fun _ => .ok true) fragments

/-- Fields are nested at most so deeply in some selections, fragments written out. -/
def DeepAtMost (fragments : Entries Fragment) (selections : List Selection) (deep : Nat) : Prop :=
  ∃ inlined, Inlines fragments selections inlined ∧ depths inlined ≤ deep

/-- A fragment is spread in some selections, or in a fragment to which they lead. -/
inductive LeadsTo (fragments : Entries Fragment) (selections : List Selection) : String → Prop where
  | here {name : String} : name ∈ spreadsOf selections → LeadsTo fragments selections name
  | inside {name other : String} {fragment : Fragment} :
      LeadsTo fragments selections name → Entries.get? fragments name = some fragment →
      other ∈ spreadsOf fragment.selections → LeadsTo fragments selections other

/-- Fragments to which some selections lead spread only fragments of lower ranks. -/
def RankedFrom (fragments : Entries Fragment) (selections : List Selection)
    (rank : String → Nat) : Prop :=
  ∀ name, LeadsTo fragments selections name →
    ∀ fragment, Entries.get? fragments name = some fragment →
      ∀ other ∈ spreadsOf fragment.selections, rank other < rank name

/-- The selections at which a selection has its fields, and how many fields lead there. -/
def below? (fragments : Entries Fragment) : Selection → Option (Nat × List Selection)
  | field _ _ _ _ _ inner => some (1, inner)
  | inline _ _ inner => some (0, inner)
  | spread name _ =>
    (Entries.get? fragments name).map fun fragment => (0, fragment.selections)

variable {fragments : Entries Fragment} {selections inlined inner : List Selection}
  {selection : Selection} {rank : String → Nat} {deep : Nat}

/-- What stands below a selection is written out with it. -/
theorem Expands.of_mem (inlines : Inlines fragments selections inlined)
    (member : selection ∈ selections) {fields : Nat}
    (below : selection.below? fragments = some (fields, inner)) :
    ∃ written, Inlines fragments inner written ∧ depths written + fields ≤ depths inlined := by
  have beside : ∀ {first : Selection} {others : List Selection},
      (∃ written, Inlines fragments inner written ∧ depths written + fields ≤ depths others) →
        ∃ written, Inlines fragments inner written ∧
          depths written + fields ≤ depths (first :: others) :=
    fun ⟨written, writes, shallow⟩ =>
      ⟨written, writes, Nat.le_trans shallow (Nat.le_max_right _ _)⟩
  induction inlines with
  | nil => cases member
  | excluded left => cases left
  | field _ inside _ _ ih | inline _ inside _ _ ih =>
    rcases List.mem_cons.mp member with rfl | later
    · cases below
      exact ⟨_, inside, Nat.le_max_left _ _⟩
    · exact beside (ih later)
  | undefined _ missing _ ih =>
    rcases List.mem_cons.mp member with rfl | later
    · dsimp only [below?] at below
      rw [missing] at below
      cases below
    · exact ih later
  | spread _ defined inside _ _ ih =>
    rcases List.mem_cons.mp member with rfl | later
    · dsimp only [below?] at below
      rw [defined] at below
      cases below
      exact ⟨_, inside, Nat.le_max_left _ _⟩
    · exact beside (ih later)

theorem DeepAtMost.of_mem (within : DeepAtMost fragments selections deep)
    (member : selection ∈ selections) {fields : Nat}
    (below : selection.below? fragments = some (fields, inner)) :
    ∃ less, deep = less + fields ∧ DeepAtMost fragments inner less := by
  obtain ⟨inlined, inlines, shallow⟩ := within
  obtain ⟨written, writes, deeper⟩ := inlines.of_mem member below
  exact ⟨deep - fields, by omega, written, writes, by omega⟩

/-! ## Existence and depth -/

/-- Only the fragments to which selections lead matter where those are written out. -/
theorem Expands.of_agree {kept : Entries Fragment} {others : List Selection}
    (agree : ∀ name, LeadsTo fragments selections name →
      Entries.get? kept name = Entries.get? fragments name)
    (leads : ∀ name ∈ spreadsOf others, LeadsTo fragments selections name)
    (inlines : Inlines kept others inlined) : Inlines fragments others inlined := by
  induction inlines with
  | nil => exact .nil
  | excluded left => cases left
  | field taken _ _ ihInside ihAfter =>
    obtain ⟨here, later⟩ := List.forall_mem_append.mp leads
    exact .field taken (ihInside here) (ihAfter later)
  | inline taken _ _ ihInside ihAfter =>
    obtain ⟨here, later⟩ := List.forall_mem_append.mp leads
    exact .inline taken (ihInside here) (ihAfter later)
  | undefined taken missing _ ih =>
    obtain ⟨here, later⟩ := List.forall_mem_append.mp leads
    rw [agree _ (List.forall_mem_singleton.mp here)] at missing
    exact .undefined taken missing (ih later)
  | spread taken defined _ _ ihInside ihAfter =>
    obtain ⟨here, later⟩ := List.forall_mem_append.mp leads
    have leading := List.forall_mem_singleton.mp here
    rw [agree _ leading] at defined
    exact .spread taken defined (ihInside fun _ among => .inside leading defined among)
      (ihAfter later)

/-- Where ranks allow it, fragments can be written out. Those to which the selections do not lead
need no ranks, so they are left aside. -/
theorem RankedFrom.exists_inlines (ranked : RankedFrom fragments selections rank) :
    ∃ inlined, Inlines fragments selections inlined := by
  classical
  let leading : String → Bool := fun name => decide (LeadsTo fragments selections name)
  let kept : Entries Fragment := fragments.filter fun entry => leading entry.1
  have agree : ∀ name, LeadsTo fragments selections name →
      Entries.get? kept name = Entries.get? fragments name := by
    intro name leads
    rw [Entries.get?_filter, if_pos (decide_eq_true leads)]
  have keptRanked : ∀ name fragment, Entries.get? kept name = some fragment →
      ∀ other ∈ spreadsOf fragment.selections, rank other < rank name := by
    intro name fragment found
    rw [Entries.get?_filter] at found
    split at found
    · next leads => exact ranked name (of_decide_eq_true leads) fragment found
    · cases found
  have decided : ∀ directives : List DirectiveUse, (∀ use ∈ directives, True) →
      ∃ taken, (.ok true : Except CoercionStop Bool) = .ok taken :=
    fun _ _ => ⟨true, rfl⟩
  obtain ⟨bound, low⟩ := Environment.exists_rank_bound rank (spreadsOf selections)
  obtain ⟨inlined, inlines⟩ := exists_expands keptRanked decided
    (fun _ _ _ _ _ => trivial) bound selections low (fun _ _ => trivial)
  exact ⟨inlined, .of_agree agree (fun _ => .here) inlines⟩

/-- Written out, selections are nested no deeper than they and the fragments of lower ranks are
together. -/
theorem Expands.depths_le {others : List Selection} {bound : Nat}
    (ranked : RankedFrom fragments selections rank) (inlines : Inlines fragments others inlined)
    (low : ∀ name ∈ spreadsOf others, LeadsTo fragments selections name ∧ rank name < bound) :
    depths inlined ≤ depths others + nestingBelow rank bound fragments := by
  induction inlines generalizing bound with
  | nil => exact Nat.zero_le _
  | excluded left => cases left
  | field _ _ _ ihInside ihAfter | inline _ _ _ ihInside ihAfter =>
    obtain ⟨here, later⟩ := List.forall_mem_append.mp low
    have inside := ihInside here
    have after := ihAfter later
    simp only [depths, depth]
    omega
  | undefined _ _ _ ih =>
    obtain ⟨_, later⟩ := List.forall_mem_append.mp low
    have after := ih later
    simp only [depths, depth]
    omega
  | @spread name _ fragment _ _ _ _ defined _ _ ihInside ihAfter =>
    obtain ⟨here, later⟩ := List.forall_mem_append.mp low
    obtain ⟨leading, below⟩ := List.forall_mem_singleton.mp here
    have inside := ihInside fun other among =>
      ⟨.inside leading defined among, ranked name leading fragment defined other among⟩
    have listed : (name, fragment) ∈ fragments := Entries.mem_of_get? defined
    have counted := nestingBelow_add_le listed below
    have after := ihAfter later
    simp only [depths, depth]
    omega

end Selection

/-! ## Objects -/

/-- The selections below a field selection are nested less deeply than those that lead to it. -/
theorem CollectionContext.Collectable.deepAtMost {context : CollectionContext}
    {selections : List Selection} {node : FieldNode}
    (collectable : context.Collectable selections node) {deep : Nat}
    (within : Selection.DeepAtMost context.fragments selections deep) :
    ∃ less, deep = less + 1 ∧ Selection.DeepAtMost context.fragments node.selections less := by
  induction collectable with
  | field member => exact within.of_mem member rfl
  | inline member _ _ ih =>
    obtain ⟨less, rfl, inside⟩ := within.of_mem member rfl
    exact ih inside
  | spread member found _ _ ih =>
    obtain ⟨less, rfl, inside⟩ := within.of_mem member (congrArg (Option.map _) found)
    exact ih inside

/-- The selections of a group are nested less deeply than those that lead to its fields. -/
theorem Grouped.deepAtMost {context : CollectionContext} {selections : List (List Selection)}
    {groups : List FieldGroup} {deep : Nat}
    (grouped : Grouped (fun node => ∃ inner ∈ selections, context.Collectable inner node) groups)
    (within : ∀ inner ∈ selections, Selection.DeepAtMost context.fragments inner deep) :
    ∀ group ∈ groups, ∃ less, deep = less + 1 ∧ ∀ inner ∈ group.nodes.map FieldNode.selections,
      Selection.DeepAtMost context.fragments inner less := by
  intro group member
  have deeper : ∀ node ∈ group.nodes, ∃ less, deep = less + 1 ∧
      Selection.DeepAtMost context.fragments node.selections less := by
    intro node present
    obtain ⟨⟨list, listed, collectable⟩, _⟩ := grouped.nodes group member node present
    exact collectable.deepAtMost (within list listed)
  obtain ⟨less, rfl, _⟩ := deeper group.first List.mem_cons_self
  refine ⟨less, rfl, List.forall_mem_map.mpr fun node present => ?_⟩
  obtain ⟨_, same, inside⟩ := deeper node present
  cases same
  exact inside

namespace Environment

variable {env : Environment σ} {root object : ObjectType} {selections : List (List Selection)}
  {groups : List FieldGroup} {deep : Nat}

theorem Collects.deepAtMost (collected : env.Collects object selections groups)
    (within : ∀ inner ∈ selections, Selection.DeepAtMost env.request.fragments inner deep) :
    ∀ group ∈ groups, ∃ less, deep = less + 1 ∧ ∀ inner ∈ group.nodes.map FieldNode.selections,
      Selection.DeepAtMost env.request.fragments inner less := by
  obtain ⟨world, grouped⟩ := collected.grouped
  exact grouped.deepAtMost within

theorem deepAtMost_of_groups? (gathered : env.groups? object selections = some groups)
    (within : ∀ inner ∈ selections, Selection.DeepAtMost env.request.fragments inner deep) :
    ∀ group ∈ groups, ∃ less, deep = less + 1 ∧ ∀ inner ∈ group.nodes.map FieldNode.selections,
      Selection.DeepAtMost env.request.fragments inner less := by
  unfold groups? at gathered
  extract_lets context at gathered
  have grouped : Grouped (fun node => ∃ inner ∈ selections, context.Collectable inner node)
      (context.collectAll selections).2.groups := CollectionContext.collectAll_grouped selections
  split at gathered
  · next collected found =>
    cases gathered
    rw [found] at grouped
    exact grouped.deepAtMost within
  · cases gathered

/-- The selections on an object that an execution comes to are nested less deeply, the more objects
there are around it. -/
theorem Encounters.deepAtMost {level : Nat}
    (within : Selection.DeepAtMost env.request.fragments env.request.operation.selections deep)
    (encountered : env.Encounters root level object selections) :
    ∃ less, deep = level + less ∧ ∀ inner ∈ selections,
      Selection.DeepAtMost env.request.fragments inner less := by
  induction encountered with
  | root => exact ⟨deep, (Nat.zero_add deep).symm, List.forall_mem_singleton.mpr within⟩
  | inside _ collected member _ _ ih =>
    obtain ⟨_, rfl, around⟩ := ih
    obtain ⟨less, rfl, inside⟩ := collected.deepAtMost around _ member
    exact ⟨less, by omega, inside⟩

variable (env) in
/-- The spreads to which the operation leads do not lead back into themselves. -/
def SpreadsAcyclic : Prop :=
  ∃ rank, Selection.RankedFrom env.request.fragments env.request.operation.selections rank

theorem SpreadsAcyclic.exists_inlines (acyclic : env.SpreadsAcyclic) :
    ∃ inlined,
      Selection.Inlines env.request.fragments env.request.operation.selections inlined := by
  obtain ⟨rank, ranked⟩ := acyclic
  exact ranked.exists_inlines

/-- The bound on the nesting of objects is beyond the operation with its fragments written out. -/
theorem SpreadsAcyclic.depths_lt (acyclic : env.SpreadsAcyclic) {inlined : List Selection}
    (inlines : Selection.Inlines env.request.fragments env.request.operation.selections inlined) :
    Selection.depths inlined < env.request.depthBound := by
  obtain ⟨rank, ranked⟩ := acyclic
  obtain ⟨bound, low⟩ :=
    exists_rank_bound rank (Selection.spreadsOf env.request.operation.selections)
  have shallow := inlines.depths_le ranked fun name among => ⟨.here among, low name among⟩
  have total : nestingBelow rank bound env.request.fragments + extraDepth ≤ _ :=
    nestingBelow_le bound extraDepth
  unfold Request.depthBound
  unfold extraDepth at total ⊢
  omega

end Environment

end GraphQL
