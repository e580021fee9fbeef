import GraphQL.Proofs.Conditions
import GraphQL.Proofs.Gathering
import GraphQL.Proofs.Reading

/-!
# Expanding fragments

The selections of an operation can be expanded: those that their directives exclude are deleted, and
a fragment is written out wherever it is spread. The expanded selections ask for the same fields of
every object, in groups that resemble those of the selections as they were.
-/

namespace GraphQL

variable {σ : Type}

/-- How selections are expanded. A selection that its directives exclude is deleted, as is a spread
of a fragment that is not defined; another spread becomes an inline fragment with the condition and
the expanded selections of the fragment. -/
inductive Selection.Expands (includes : List DirectiveUse → Except CoercionStop Bool)
    (fragments : Entries Fragment) : List Selection → List Selection → Prop
  | nil : Expands includes fragments [] []
  | excluded {selection : Selection} {rest others : List Selection}
      (left : includes selection.directives = .ok false)
      (after : Expands includes fragments rest others) :
      Expands includes fragments (selection :: rest) others
  | field {name : String} {otherKey : Option String} {arguments : Entries Value}
      {directives : List DirectiveUse} {location : Option Location}
      {inner expanded rest others : List Selection} (taken : includes directives = .ok true)
      (inside : Expands includes fragments inner expanded)
      (after : Expands includes fragments rest others) :
      Expands includes fragments
        (.field name otherKey arguments directives location inner :: rest)
        (.field name otherKey arguments directives location expanded :: others)
  | inline {condition : Option String} {directives : List DirectiveUse}
      {inner expanded rest others : List Selection} (taken : includes directives = .ok true)
      (inside : Expands includes fragments inner expanded)
      (after : Expands includes fragments rest others) :
      Expands includes fragments (.inline condition directives inner :: rest)
        (.inline condition directives expanded :: others)
  | undefined {name : String} {directives : List DirectiveUse} {rest others : List Selection}
      (taken : includes directives = .ok true) (missing : Entries.get? fragments name = none)
      (after : Expands includes fragments rest others) :
      Expands includes fragments (.spread name directives :: rest) others
  | spread {name : String} {directives : List DirectiveUse} {fragment : Fragment}
      {expanded rest others : List Selection} (taken : includes directives = .ok true)
      (defined : Entries.get? fragments name = some fragment)
      (inside : Expands includes fragments fragment.selections expanded)
      (after : Expands includes fragments rest others) :
      Expands includes fragments (.spread name directives :: rest)
        (.inline (some fragment.condition) [] expanded :: others)

variable {includes : List DirectiveUse → Except CoercionStop Bool} {fragments : Entries Fragment}
  {admitted : DirectiveUse → Prop} {selections expanded : List Selection}

/-- Nothing is spread in expanded selections. -/
theorem Selection.Expands.spreadsOf_eq_nil
    (expands : Selection.Expands includes fragments selections expanded) :
    Selection.spreadsOf expanded = [] := by
  induction expands with
  | nil => rfl
  | excluded _ _ ih | undefined _ _ _ ih => exact ih
  | field _ _ _ ihInside ihAfter
  | inline _ _ _ ihInside ihAfter
  | spread _ _ _ _ ihInside ihAfter =>
    unfold Selection.spreadsOf Selection.spreads
    rw [ihInside, ihAfter]
    rfl

/-! ## Existence -/

mutual

/-- The directives at a selection and below it. -/
def Selection.uses : Selection → List DirectiveUse
  | field _ _ _ directives _ selections => directives ++ Selection.usesOf selections
  | inline _ directives selections => directives ++ Selection.usesOf selections
  | spread _ directives => directives

/-- The directives at some selections and below them. -/
def Selection.usesOf : List Selection → List DirectiveUse
  | [] => []
  | selection :: rest => selection.uses ++ Selection.usesOf rest

end

/-- Where fragments do not lead back into themselves and all conditions can be decided, selections
can be expanded. The recursion follows the ranks of fragments and, in each, its selections. -/
theorem Selection.exists_expands {rank : String → Nat}
    (ranked : ∀ name fragment, Entries.get? fragments name = some fragment →
      ∀ other ∈ Selection.spreadsOf fragment.selections, rank other < rank name)
    (decided : ∀ directives, (∀ use ∈ directives, admitted use) →
      ∃ taken, includes directives = .ok taken)
    (inFragments : ∀ name fragment, Entries.get? fragments name = some fragment →
      ∀ use ∈ Selection.usesOf fragment.selections, admitted use) (bound : Nat) :
    ∀ selections : List Selection, (∀ name ∈ Selection.spreadsOf selections, rank name < bound) →
      (∀ use ∈ Selection.usesOf selections, admitted use) →
        ∃ expanded, Selection.Expands includes fragments selections expanded
  | [], _, _ => ⟨[], .nil⟩
  | selection :: rest, low, uses => by
    obtain ⟨others, after⟩ := exists_expands ranked decided inFragments bound rest
      (fun name spread => low name (List.mem_append_right _ spread))
      (fun use there => uses use (List.mem_append_right _ there))
    have own : ∀ use ∈ selection.directives, admitted use := by
      intro use there
      refine uses use (List.mem_append_left _ ?_)
      cases selection with
      | field _ _ _ _ _ _ | inline _ _ _ => exact List.mem_append_left _ there
      | spread _ _ => exact there
    obtain ⟨taken, decision⟩ := decided _ own
    cases taken with
    | false => exact ⟨others, .excluded decision after⟩
    | true =>
      cases selection with
      | field name otherKey arguments directives location inner =>
        obtain ⟨expanded, inside⟩ := exists_expands ranked decided inFragments bound inner
          (fun name spread => low name (List.mem_append_left _ spread))
          (fun use there => uses use (List.mem_append_left _ (List.mem_append_right _ there)))
        exact ⟨_, .field decision inside after⟩
      | inline condition directives inner =>
        obtain ⟨expanded, inside⟩ := exists_expands ranked decided inFragments bound inner
          (fun name spread => low name (List.mem_append_left _ spread))
          (fun use there => uses use (List.mem_append_left _ (List.mem_append_right _ there)))
        exact ⟨_, .inline decision inside after⟩
      | spread name directives =>
        cases defined : Entries.get? fragments name with
        | none => exact ⟨_, .undefined decision defined after⟩
        | some fragment =>
          have below : rank name < bound :=
            low name (List.mem_append_left _ (List.mem_singleton_self name))
          obtain ⟨expanded, inside⟩ := exists_expands ranked decided inFragments (rank name)
            fragment.selections (ranked name fragment defined) (inFragments name fragment defined)
          exact ⟨_, .spread decision defined inside after⟩
termination_by selections => (bound, sizeOf selections)

/-- A field selection with expanded selections. -/
structure FieldNode.Expands (includes : List DirectiveUse → Except CoercionStop Bool)
    (fragments : Entries Fragment) (node other : FieldNode) : Prop where
  name : node.name = other.name
  responseKey : node.responseKey = other.responseKey
  arguments : node.arguments = other.arguments
  selections : Selection.Expands includes fragments node.selections other.selections

namespace CollectionContext

variable {context other : CollectionContext} {nodes : List FieldNode}

/-- Two contexts read the same objects under the same conditions. -/
structure Follows (other context : CollectionContext) : Prop where
  includes : other.includes = context.includes
  covers : other.covers = context.covers

/-- Expanded selections lead to the same field selections, which are expanded in their turn. -/
theorem reads_of_expands (follows : other.Follows context)
    (expands : Selection.Expands context.includes context.fragments selections expanded) :
    ∃ nodes others, context.Reads selections nodes ∧ other.Reads expanded others ∧
      List.Forall₂ (FieldNode.Expands context.includes context.fragments) nodes others := by
  induction expands with
  | nil => exact ⟨[], [], .nil, .nil, .nil⟩
  | @excluded selection _ _ left _ ih =>
    obtain ⟨nodes, others, reads, readsOther, related⟩ := ih
    have opens : context.opens? selection = some [] := by
      unfold opens?
      rw [left]
    exact ⟨nodes, others, .opened opens .nil reads, readsOther, related⟩
  | field taken inside _ _ ih =>
    obtain ⟨nodes, others, reads, readsOther, related⟩ := ih
    refine ⟨_, _, .field taken reads, .field (follows.includes ▸ taken) readsOther, ?_⟩
    exact .cons ⟨rfl, rfl, rfl, inside⟩ related
  | @inline condition directives inner below _ _ taken _ _ ihInside ihAfter =>
    obtain ⟨here, hereOther, readsHere, readsHereOther, relatedHere⟩ := ihInside
    obtain ⟨later, laterOther, readsLater, readsLaterOther, relatedLater⟩ := ihAfter
    have opens : context.opens? (.inline condition directives inner) =
        some (if context.covers condition then inner else []) := by
      unfold opens? Selection.directives
      rw [taken]
    have opensOther : other.opens? (.inline condition directives below) =
        some (if context.covers condition then below else []) := by
      unfold opens? Selection.directives
      rw [follows.includes, taken, follows.covers]
    cases covered : context.covers condition with
    | true =>
      rw [covered] at opens opensOther
      exact ⟨_, _, .opened opens readsHere readsLater,
        .opened opensOther readsHereOther readsLaterOther, List.rel_append relatedHere relatedLater⟩
    | false =>
      rw [covered] at opens opensOther
      exact ⟨_, _, .opened opens .nil readsLater, .opened opensOther .nil readsLaterOther,
        relatedLater⟩
  | @undefined name directives _ _ taken missing _ ih =>
    obtain ⟨nodes, others, reads, readsOther, related⟩ := ih
    have opens : context.opens? (.spread name directives) = some [] := by
      unfold opens? Selection.directives
      rw [taken]
      dsimp only
      rw [missing]
    exact ⟨nodes, others, .opened opens .nil reads, readsOther, related⟩
  | @spread name directives fragment below _ _ taken defined _ _ ihInside ihAfter =>
    obtain ⟨here, hereOther, readsHere, readsHereOther, relatedHere⟩ := ihInside
    obtain ⟨later, laterOther, readsLater, readsLaterOther, relatedLater⟩ := ihAfter
    have opens : context.opens? (.spread name directives) =
        some (if context.covers (some fragment.condition) then fragment.selections else []) := by
      unfold opens? Selection.directives
      rw [taken]
      dsimp only
      rw [defined]
    have opensOther : other.opens? (.inline (some fragment.condition) [] below) =
        some (if context.covers (some fragment.condition) then below else []) := by
      unfold opens? Selection.directives
      rw [show other.includes [] = .ok true from rfl, follows.covers]
    cases covered : context.covers (some fragment.condition) with
    | true =>
      rw [covered] at opens opensOther
      exact ⟨_, _, .opened opens readsHere readsLater,
        .opened opensOther readsHereOther readsLaterOther, List.rel_append relatedHere relatedLater⟩
    | false =>
      rw [covered] at opens opensOther
      exact ⟨_, _, .opened opens .nil readsLater, .opened opensOther .nil readsLaterOther,
        relatedLater⟩

/-- Selections without spreads lead to field selections that are nested less deeply. -/
theorem Reads.shallow (reads : context.Reads selections nodes)
    (spreadless : Selection.spreadsOf selections = []) :
    ∀ node ∈ nodes, Selection.spreadsOf node.selections = [] ∧
      Selection.depths node.selections < Selection.depths selections := by
  induction reads with
  | nil => exact fun _ none => absurd none List.not_mem_nil
  | @field name otherKey arguments directives location inner rest _ _ _ ih =>
    obtain ⟨here, later⟩ := List.append_eq_nil_iff.mp spreadless
    have deep :
        Selection.depths (.field name otherKey arguments directives location inner :: rest) =
          max (Selection.depths inner + 1) (Selection.depths rest) := rfl
    rw [deep]
    intro node among
    rcases List.mem_cons.mp among with rfl | among
    · exact ⟨here, Nat.le_max_left _ _⟩
    · exact (ih later node among).imp_right fun less =>
        Nat.lt_of_lt_of_le less (Nat.le_max_right _ _)
  | @opened selection inner rest here later opens _ _ ihInside ihAfter =>
    obtain ⟨first, others⟩ := List.append_eq_nil_iff.mp spreadless
    have within : Selection.spreadsOf inner = [] ∧
        Selection.depths inner ≤ selection.depth := by
      unfold opens? at opens
      split at opens
      · cases opens
      · cases opens
        exact ⟨rfl, Nat.zero_le _⟩
      · cases selection with
        | field _ _ _ _ _ _ => cases opens
        | spread _ _ => cases first
        | inline condition directives below =>
          dsimp only at opens
          split at opens
          · cases opens
            exact ⟨first, Nat.le_refl _⟩
          · cases opens
            exact ⟨rfl, Nat.zero_le _⟩
    have deep : Selection.depths (selection :: rest) =
        max selection.depth (Selection.depths rest) := rfl
    rw [deep]
    intro node among
    rcases List.mem_append.mp among with among | among
    · refine (ihInside within.1 node among).imp_right fun less => ?_
      exact Nat.lt_of_lt_of_le less (Nat.le_trans within.2 (Nat.le_max_left _ _))
    · exact (ihAfter others node among).imp_right fun less =>
        Nat.lt_of_lt_of_le less (Nat.le_max_right _ _)

/-- Lists of selections that agree but for repetitions lead to field selections that do. -/
theorem exists_reads_of_sameFirsts {chosen all : List (List Selection)}
    {found : List (List FieldNode)} (same : SameFirsts chosen all)
    (reads : List.Forall₂ context.Reads all found) :
    ∃ own, List.Forall₂ context.Reads chosen own ∧ SameFirsts own.flatten found.flatten := by
  classical
  let read (selections : List Selection) : List FieldNode :=
    if readable : ∃ nodes, context.Reads selections nodes then readable.choose else []
  have reading : ∀ selections nodes, context.Reads selections nodes →
      context.Reads selections (read selections) := by
    intro selections nodes reads
    have readable : ∃ nodes, context.Reads selections nodes := ⟨nodes, reads⟩
    show context.Reads selections (if _ : _ then _ else _)
    rw [dif_pos readable]
    exact readable.choose_spec
  have foundEq : found = all.map read := by
    clear same
    induction reads with
    | nil => rfl
    | cons first _ ih => rw [List.map_cons, ← ih, first.unique (reading _ _ first)]
  have readable : ∀ selections ∈ chosen, context.Reads selections (read selections) := by
    intro selections among
    obtain ⟨nodes, first⟩ : ∃ nodes, context.Reads selections nodes := by
      have there := (same.mem_iff selections).mp among
      clear same foundEq
      induction reads with
      | nil => cases there
      | cons first _ ih =>
        rcases List.mem_cons.mp there with rfl | later
        · exact ⟨_, first⟩
        · exact ih later
    exact reading selections nodes first
  refine ⟨chosen.map read, ?_, ?_⟩
  · rw [List.forall₂_map_right_iff, List.forall₂_same]
    exact readable
  · rw [foundEq, ← List.flatMap_def, ← List.flatMap_def]
    exact same.flatMap read

/-- A field selection of a list of readings belongs to one of them. -/
theorem exists_reads_of_mem {chosen : List (List Selection)} {found : List (List FieldNode)}
    (reads : List.Forall₂ context.Reads chosen found) {node : FieldNode}
    (among : node ∈ found.flatten) :
    ∃ selections ∈ chosen, ∃ nodes, context.Reads selections nodes ∧ node ∈ nodes := by
  induction reads with
  | nil => cases among
  | cons first _ ih =>
    rw [List.flatten_cons] at among
    rcases List.mem_append.mp among with here | later
    · exact ⟨_, List.mem_cons_self, _, first, here⟩
    · obtain ⟨selections, inside, nodes, held⟩ := ih later
      exact ⟨selections, List.mem_cons_of_mem _ inside, nodes, held⟩

/-- Selections and expanded ones, of which either may repeat some, give groups that resemble each
other. Those of the expanded selections are nested less deeply than these, without spreads. -/
theorem collectAll_of_expands (follows : other.Follows context) {rank : String → Nat} {bound : Nat}
    (ranked : context.RankedBelow rank bound) {chosen others : List (List Selection)}
    (low : ∀ selections ∈ chosen, ∀ name ∈ Selection.spreadsOf selections, rank name < bound)
    (matched : MatchFirsts (Selection.Expands context.includes context.fragments) chosen others) :
    ∃ collected likewise, context.collectAll chosen = (.ok (), collected) ∧
      other.collectAll others = (.ok (), likewise) ∧
      List.Forall₂
        (FieldGroup.Resembles (FieldNode.Expands context.includes context.fragments))
        collected.groups likewise.groups ∧
      ∀ group ∈ likewise.groups, ∀ node ∈ group.nodes, ∃ selections ∈ others,
        Selection.depths node.selections < Selection.depths selections := by
  obtain ⟨all, expanded, same, held, sameToo⟩ := matched
  obtain ⟨found, foundToo, reads, readsToo, related⟩ : ∃ found foundToo,
      List.Forall₂ context.Reads all found ∧ List.Forall₂ other.Reads expanded foundToo ∧
        List.Forall₂ (FieldNode.Expands context.includes context.fragments) found.flatten
          foundToo.flatten := by
    clear same sameToo
    induction held with
    | nil => exact ⟨[], [], .nil, .nil, .nil⟩
    | cons first _ ih =>
      obtain ⟨nodes, likewise, reads, readsToo, related⟩ := reads_of_expands follows first
      obtain ⟨found, foundToo, later, laterToo, relatedLater⟩ := ih
      exact ⟨nodes :: found, likewise :: foundToo, .cons reads later, .cons readsToo laterToo,
        List.rel_append related relatedLater⟩
  have spreadless : ∀ selections ∈ others, Selection.spreadsOf selections = [] := by
    intro selections among
    obtain ⟨_, _, expands⟩ := exists_mem_of_forall₂ held ((sameToo.mem_iff selections).mp among)
    exact expands.spreadsOf_eq_nil
  obtain ⟨own, readsOwn, sameOwn⟩ := exists_reads_of_sameFirsts same reads
  obtain ⟨ownToo, readsOwnToo, sameOwnToo⟩ := exists_reads_of_sameFirsts sameToo readsToo
  obtain ⟨nodes, collected, ran, groups, sameNodes⟩ := collectAll_of_reads readsOwn ranked low
  have nothingSpread : other.RankedBelow rank 0 := fun _ _ _ none => absurd none (Nat.not_lt_zero _)
  have noneLow : ∀ selections ∈ others, ∀ name ∈ Selection.spreadsOf selections,
      rank name < 0 := by
    intro selections among name spread
    rw [spreadless selections among] at spread
    cases spread
  obtain ⟨nodesToo, likewise, ranToo, groupsToo, sameNodesToo⟩ :=
    collectAll_of_reads readsOwnToo nothingSpread noneLow
  refine ⟨collected, likewise, ran, ranToo, ?_, fun group among node inside => ?_⟩
  · rw [groups, groupsToo]
    exact FieldGroup.ofNodes_resemble (fun _ _ expands => expands.responseKey)
      ⟨_, _, sameNodes.trans sameOwn, related, sameNodesToo.trans sameOwnToo⟩
  · rw [groupsToo] at among
    rw [FieldGroup.nodes_of_mem_ofNodes among] at inside
    have there := (sameNodesToo.mem_iff node).mp (List.mem_of_mem_filter inside)
    obtain ⟨selections, listed, found, reads, member⟩ := exists_reads_of_mem readsOwnToo there
    exact ⟨selections, listed, (reads.shallow (spreadless selections listed) node member).2⟩

end CollectionContext

end GraphQL
