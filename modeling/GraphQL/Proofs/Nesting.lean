import GraphQL.Proofs.Collection
import GraphQL.Proofs.Layout

/-!
# How deeply objects are nested

Where fragments do not lead back into themselves, an object stands below as many others as fields
are nested in the operation and in its fragments, at most. The bound on the nesting of objects is
beyond that.
-/

namespace GraphQL

variable {σ : Type}

/-- What is found under a key is an entry. -/
theorem Entries.mem_of_get? {α : Type} {entries : Entries α} {key : String} {value : α}
    (found : Entries.get? entries key = some value) : (key, value) ∈ entries := by
  obtain ⟨entry, first, rfl⟩ := Option.map_eq_some_iff.mp found
  have named : entry.1 = key := by simpa using List.find?_some first
  rw [← named]
  exact List.mem_of_find?_eq_some first

mutual

/-- The names of the fragments that are spread at a selection or below it. -/
def Selection.spreads : Selection → List String
  | field _ _ _ _ _ selections => Selection.spreadsOf selections
  | inline _ _ selections => Selection.spreadsOf selections
  | spread name _ => [name]

/-- The names of the fragments that are spread at some selections or below them. -/
def Selection.spreadsOf : List Selection → List String
  | [] => []
  | selection :: rest => selection.spreads ++ Selection.spreadsOf rest

end

namespace Selection

variable {selection : Selection} {selections : List Selection}

theorem spreads_subset (member : selection ∈ selections) :
    ∀ name ∈ selection.spreads, name ∈ spreadsOf selections := by
  induction selections with
  | nil => cases member
  | cons first rest ih =>
    intro name spread
    unfold spreadsOf
    rcases List.mem_cons.mp member with rfl | member
    · exact List.mem_append_left _ spread
    · exact List.mem_append_right _ (ih member name spread)

theorem depth_le_depths (member : selection ∈ selections) :
    selection.depth ≤ depths selections := by
  induction selections with
  | nil => cases member
  | cons first rest ih =>
    unfold depths
    rcases List.mem_cons.mp member with rfl | member
    · exact Nat.le_max_left _ _
    · exact Nat.le_trans (ih member) (Nat.le_max_right _ _)

end Selection

/-- How deeply fields are nested in the fragments of a rank below some number, all together. -/
def nestingBelow (rank : String → Nat) (bound : Nat) : Entries Fragment → Nat
  | [] => 0
  | (name, fragment) :: rest =>
    (if rank name < bound then Selection.depths fragment.selections else 0) +
      nestingBelow rank bound rest

section Nesting

variable {rank : String → Nat} {fragments : Entries Fragment} {name : String} {fragment : Fragment}

theorem nestingBelow_mono {less more : Nat} (grows : less ≤ more) :
    nestingBelow rank less fragments ≤ nestingBelow rank more fragments := by
  induction fragments with
  | nil => exact Nat.le_refl _
  | cons entry rest ih =>
    unfold nestingBelow
    split
    · next low =>
      rw [if_pos (Nat.lt_of_lt_of_le low grows)]
      omega
    · omega

/-- A fragment counts besides those of lower ranks. -/
theorem nestingBelow_add_le {bound : Nat} (member : (name, fragment) ∈ fragments)
    (below : rank name < bound) :
    nestingBelow rank (rank name) fragments + Selection.depths fragment.selections ≤
      nestingBelow rank bound fragments := by
  induction fragments with
  | nil => cases member
  | cons entry rest ih =>
    obtain ⟨other, body⟩ := entry
    unfold nestingBelow
    rcases List.mem_cons.mp member with same | member
    · cases same
      have others : nestingBelow rank (rank name) rest ≤ nestingBelow rank bound rest :=
        nestingBelow_mono (Nat.le_of_lt below)
      rw [if_neg (Nat.lt_irrefl _), if_pos below]
      omega
    · have others := ih member
      split
      · next low =>
        rw [if_pos (Nat.lt_trans low below)]
        omega
      · omega

/-- Fields are nested in fragments of low ranks no deeper than in all of them. -/
theorem nestingBelow_le (bound extra : Nat) :
    nestingBelow rank bound fragments + extra ≤
      fragments.foldl (fun total entry => total + Selection.depths entry.2.selections) extra := by
  induction fragments generalizing extra with
  | nil => exact Nat.le_of_eq (Nat.zero_add extra)
  | cons entry rest ih =>
    rw [List.foldl_cons]
    have others := ih (extra + Selection.depths entry.2.selections)
    unfold nestingBelow
    split
    · omega
    · omega

end Nesting

namespace Environment

variable (env : Environment σ)

/-- Fragments have ranks, and spread only fragments of lower ranks. -/
def Ranked (rank : String → Nat) : Prop :=
  ∀ name fragment, Entries.get? env.request.fragments name = some fragment →
    ∀ other ∈ Selection.spreadsOf fragment.selections, rank other < rank name

/-- Fragments do not lead back into themselves. -/
def Acyclic : Prop :=
  ∃ rank, env.Ranked rank

/-- Fields are nested below some selections no deeper than a number says, fragments followed. -/
def NestedWithin (rank : String → Nat) (selections : List Selection) (deep : Nat) : Prop :=
  ∃ bound, (∀ name ∈ Selection.spreadsOf selections, rank name < bound) ∧
    Selection.depths selections + nestingBelow rank bound env.request.fragments ≤ deep

variable {env} {rank : String → Nat} {root object : ObjectType}

/-- The selections below a field selection are nested less deeply. -/
theorem NestedWithin.collectable (ranked : env.Ranked rank) {world : World σ}
    {selections : List Selection} {node : FieldNode}
    (collectable : (env.collection world object).Collectable selections node) {deep : Nat}
    (nested : env.NestedWithin rank selections deep) :
    ∃ less, less < deep ∧ env.NestedWithin rank node.selections less := by
  induction collectable generalizing deep with
  | @field _ _ _ _ _ selections inner member =>
    obtain ⟨bound, low, within⟩ := nested
    have deeper : Selection.depths inner + 1 ≤ Selection.depths selections :=
      Selection.depth_le_depths member
    refine ⟨deep - 1, by omega, bound, fun name spread => ?_, ?_⟩
    · exact low name (Selection.spreads_subset member name spread)
    · dsimp only
      omega
  | @inline _ _ selections inner _ member _ _ ih =>
    obtain ⟨bound, low, within⟩ := nested
    have shallower : Selection.depths inner ≤ Selection.depths selections :=
      Selection.depth_le_depths member
    refine ih ⟨bound, fun name spread => ?_, by omega⟩
    exact low name (Selection.spreads_subset member name spread)
  | @spread name _ fragment _ _ member found _ _ ih =>
    obtain ⟨bound, low, within⟩ := nested
    have below : rank name < bound :=
      low name (Selection.spreads_subset member name (List.mem_singleton_self name))
    have listed : (name, fragment) ∈ env.request.fragments := Entries.mem_of_get? found
    have counted := nestingBelow_add_le listed below
    exact ih ⟨rank name, ranked name fragment found, by omega⟩

/-- The selections on an object that an execution comes to are nested less deeply, the more objects
there are around it. -/
theorem Encounters.nested (ranked : env.Ranked rank) {deep level : Nat}
    (nested : env.NestedWithin rank env.request.operation.selections deep)
    {selections : List (List Selection)}
    (encountered : env.Encounters root level object selections) :
    ∀ inner ∈ selections, ∃ less, level + less ≤ deep ∧ env.NestedWithin rank inner less := by
  induction encountered with
  | root =>
    intro inner given
    cases List.mem_singleton.mp given
    exact ⟨deep, by omega, nested⟩
  | inside above collected member _ _ ih =>
    intro inner given
    obtain ⟨node, present, rfl⟩ := List.mem_map.mp given
    obtain ⟨world, grouped⟩ := collected.grouped
    obtain ⟨⟨list, listed, collectable⟩, _⟩ := grouped.nodes _ member node present
    obtain ⟨deeper, within, nestedList⟩ := ih list listed
    obtain ⟨less, fewer, nestedNode⟩ := nestedList.collectable ranked collectable
    exact ⟨less, by omega, nestedNode⟩

/-- Some number is above the ranks of all names of a list. -/
theorem exists_rank_bound (rank : String → Nat) (names : List String) :
    ∃ bound, ∀ name ∈ names, rank name < bound := by
  induction names with
  | nil => exact ⟨0, fun _ none => absurd none List.not_mem_nil⟩
  | cons first rest ih =>
    obtain ⟨bound, above⟩ := ih
    refine ⟨max bound (rank first + 1), fun name member => ?_⟩
    rcases List.mem_cons.mp member with rfl | member
    · omega
    · have := above name member
      omega

variable (env) in
/-- The bound on the nesting of objects is beyond the nesting of fields. -/
theorem nestedWithin_depthBound (rank : String → Nat) :
    env.NestedWithin rank env.request.operation.selections env.request.depthBound := by
  obtain ⟨bound, low⟩ :=
    exists_rank_bound rank (Selection.spreadsOf env.request.operation.selections)
  have total : nestingBelow rank bound env.request.fragments + extraDepth ≤ _ :=
    nestingBelow_le bound extraDepth
  refine ⟨bound, low, ?_⟩
  unfold Request.depthBound
  omega

/-- Where fragments do not lead back into themselves, no object is nested too deeply. -/
theorem Encounters.level_le (acyclic : env.Acyclic) {level : Nat}
    {selections : List (List Selection)}
    (encountered : env.Encounters root level object selections) :
    level ≤ env.request.depthBound := by
  obtain ⟨rank, ranked⟩ := acyclic
  have nested := env.nestedWithin_depthBound rank
  cases encountered with
  | root => exact Nat.zero_le _
  | inside above collected member found admitted =>
    have inside : env.Encounters root _ object _ := .inside above collected member found admitted
    obtain ⟨less, within, _⟩ := inside.nested ranked nested _
      (List.mem_map.mpr ⟨_, List.mem_cons_self, rfl⟩)
    omega

end Environment

end GraphQL
