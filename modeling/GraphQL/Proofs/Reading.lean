import GraphQL.Proofs.Grouping
import GraphQL.Proofs.Nesting

/-!
# Reading each fragment once

The fields of an object are collected by reading each fragment once. Where fragments do not lead
back into themselves, a reading that follows each spread anew finds the same field selections and
repeats some of them later; so the groups begin with the same field selections and have the same
ones but for repetitions.
-/

namespace GraphQL

variable {context : CollectionContext} {rank : String → Nat} {bound budget : Nat}
  {nodes others : List FieldNode} {selection : Selection} {selections rest : List Selection}
  {name : String} {fragment : Fragment}

namespace CollectionContext

variable (context) in
/-- The selections that stand for one which is no field, or which is excluded. -/
def opens? (selection : Selection) : Option (List Selection) :=
  match context.includes selection.directives with
  | .error _ => none
  | .ok false => some []
  | .ok true =>
    match selection with
    | .field .. => none
    | .inline condition _ inner => some (if context.covers condition then inner else [])
    | .spread name _ =>
      match Entries.get? context.fragments name with
      | none => some []
      | some fragment =>
        some (if context.covers (some fragment.condition) then fragment.selections else [])

variable (context) in
/-- The field selections to which some selections lead, every spread followed. -/
inductive Reads : List Selection → List FieldNode → Prop
  | nil : Reads [] []
  | field {name : String} {otherKey : Option String} {arguments : Entries Value}
      {directives : List DirectiveUse} {location : Option Location} {inner rest : List Selection}
      {later : List FieldNode} (included : context.includes directives = .ok true)
      (after : Reads rest later) :
      Reads (.field name otherKey arguments directives location inner :: rest)
        ({ name, responseKey := responseKey name otherKey, arguments, selections := inner,
           location } :: later)
  | opened {selection : Selection} {inner rest : List Selection} {here later : List FieldNode}
      (opens : context.opens? selection = some inner) (inside : Reads inner here)
      (after : Reads rest later) : Reads (selection :: rest) (here ++ later)

theorem opens?_field {name : String} {otherKey : Option String} {arguments : Entries Value}
    {directives : List DirectiveUse} {location : Option Location} {inner : List Selection}
    (included : context.includes directives = .ok true) :
    context.opens? (.field name otherKey arguments directives location inner) = none := by
  unfold opens? Selection.directives
  rw [included]

/-- Selections lead to no other field selections than these. -/
theorem Reads.unique (first : context.Reads selections nodes)
    (second : context.Reads selections others) : nodes = others := by
  induction first generalizing others with
  | nil =>
    cases second
    rfl
  | field included _ ih =>
    cases second with
    | field _ after => rw [ih after]
    | opened opens _ _ =>
      rw [opens?_field included] at opens
      cases opens
  | opened opens _ _ ihInside ihAfter =>
    cases second with
    | field included _ =>
      rw [opens?_field included] at opens
      cases opens
    | opened opensToo inside after =>
      rw [opens] at opensToo
      cases opensToo
      rw [ihInside inside, ihAfter after]

/-! ## Steps of collecting -/

variable (context) in
/-- How many fragments have not been spread. -/
def unread (spread : List String) : Nat :=
  context.fragments.countP fun entry => !spread.contains entry.1

theorem unread_anti {fewer more : List String} (grows : fewer ⊆ more) :
    context.unread more ≤ context.unread fewer := by
  refine List.countP_mono_left fun entry _ => ?_
  simp only [Bool.not_eq_true', List.contains_eq_mem, decide_eq_false_iff_not]
  exact fun unread read => unread (grows read)

theorem unread_append_lt {spread : List String} (fresh : spread.contains name = false)
    (defined : Entries.get? context.fragments name = some fragment) :
    context.unread (spread ++ [name]) < context.unread spread := by
  refine countP_lt_countP_of_mem ?_ (Entries.mem_of_get? defined) ?_ ?_
  · intro other unread
    simp only [Bool.not_eq_true', List.contains_eq_mem, decide_eq_false_iff_not] at unread ⊢
    exact fun read => unread (List.mem_append_left _ read)
  · rw [fresh]
    rfl
  · simp

variable (context rank bound) in
/-- What has been collected when some field selections were read: a fragment of a low rank that was
spread leads to nothing else. -/
structure Holds (nodes : List FieldNode) (collected : Collected) : Prop where
  groups : collected.groups = FieldGroup.ofNodes nodes
  complete : ∀ name ∈ collected.spread, rank name < bound → ∀ fragment inner,
    Entries.get? context.fragments name = some fragment →
      context.covers (some fragment.condition) = true →
        context.Reads fragment.selections inner → inner ⊆ nodes

variable (context rank bound budget) in
/-- A step of collecting adds certain field selections, or leaves out those that it repeats. Only
fragments of low ranks are spread on the way. -/
def Adds (part : Collector Unit) (nodes : List FieldNode) : Prop :=
  ∀ before found, context.unread before.spread ≤ budget → context.Holds rank bound found before →
    ∃ more after, part.runFrom before = (.ok (), after) ∧
      SameFirsts (found ++ more) (found ++ nodes) ∧
      context.Holds rank bound (found ++ more) after ∧ before.spread ⊆ after.spread ∧
      ∀ name ∈ after.spread, name ∈ before.spread ∨ rank name < bound

namespace Adds

protected theorem pure : context.Adds rank bound budget (pure ()) [] := by
  intro before found _ holds
  refine ⟨[], before, rfl, .refl _, ?_, List.Subset.refl _, fun _ => Or.inl⟩
  rwa [List.append_nil]

protected theorem bind {part : Collector Unit} {next : Unit → Collector Unit}
    (first : context.Adds rank bound budget part nodes)
    (second : context.Adds rank bound budget (next ()) others) :
    context.Adds rank bound budget (part >>= next) (nodes ++ others) := by
  intro before found enough holds
  obtain ⟨here, middle, ran, same, kept, grows, low⟩ := first before found enough holds
  have fewer := Nat.le_trans (unread_anti grows) enough
  obtain ⟨later, after, ranOn, sameOn, keptOn, growsOn, lowOn⟩ := second middle _ fewer kept
  refine ⟨here ++ later, after, ?_, ?_, ?_, List.Subset.trans grows growsOn, fun name spread => ?_⟩
  · rw [Collector.runFrom_bind, ran]
    exact ranOn
  · rw [← List.append_assoc, ← List.append_assoc]
    exact sameOn.trans (same.append (.refl others))
  · rwa [← List.append_assoc]
  · rcases lowOn name spread with spread | low'
    · exact low name spread
    · exact Or.inr low'

/-- A part is run where directives include it. -/
theorem included {directives : List DirectiveUse} {part : Collector Unit}
    (taken : context.includes directives = .ok true)
    (adds : context.Adds rank bound budget part nodes) :
    context.Adds rank bound budget (do
      if ← ExceptT.mk (pure (context.includes directives)) then part else pure ()) nodes := by
  rw [taken]
  exact adds

/-- Nothing is added where directives exclude a part. -/
theorem excluded {directives : List DirectiveUse} {part : Collector Unit}
    (left : context.includes directives = .ok false) :
    context.Adds rank bound budget (do
      if ← ExceptT.mk (pure (context.includes directives)) then part else pure ()) [] := by
  rw [left]
  exact .pure

protected theorem put (node : FieldNode) :
    context.Adds rank bound budget (modify fun collected =>
      { collected with groups := FieldGroup.put node collected.groups }) [node] := by
  intro before found _ holds
  refine ⟨[node], _, rfl, .refl _, ⟨?_, ?_⟩, List.Subset.refl _, fun _ => Or.inl⟩
  · rw [FieldGroup.ofNodes_append_singleton, ← holds.groups]
  · intro name spread low fragment inner defined covered reads
    exact List.subset_append_of_subset_left _
      (holds.complete name spread low fragment inner defined covered reads)

end Adds

theorem runFrom_collectSpread (expand : List Selection → Collector Unit) (name : String)
    (before : Collected) :
    (context.collectSpread expand name).runFrom before =
      if before.spread.contains name then (.ok (), before)
      else
        let middle := { before with spread := before.spread ++ [name] }
        match Entries.get? context.fragments name with
        | none => (.ok (), { middle with undefined := middle.undefined ++ [name] })
        | some fragment =>
          if context.covers (some fragment.condition) then
            (expand fragment.selections).runFrom middle
          else (.ok (), middle) := by
  unfold collectSpread
  rw [Collector.runFrom_bind]
  show Collector.runFrom _ before = _
  split
  · rfl
  · rw [Collector.runFrom_bind]
    show Collector.runFrom _ { before with spread := before.spread ++ [name] } = _
    cases Entries.get? context.fragments name with
    | none => rfl
    | some fragment =>
      dsimp only
      cases context.covers (some fragment.condition) with
      | true => rfl
      | false => rfl

/-- Of a spread nothing is added where its fragment is not defined or does not cover the object. -/
theorem Adds.spread_idle {expand : List Selection → Collector Unit} (low : rank name < bound)
    (idle : ∀ fragment, Entries.get? context.fragments name = some fragment →
      context.covers (some fragment.condition) = false) :
    context.Adds rank bound budget (context.collectSpread expand name) [] := by
  intro before found enough holds
  rw [runFrom_collectSpread]
  have marked : ∀ after : Collected, after.groups = before.groups →
      after.spread = before.spread ++ [name] → context.Holds rank bound (found ++ []) after := by
    intro after groups spread
    rw [List.append_nil]
    refine ⟨groups.trans holds.groups, fun other among ranked fragment inner defined covered => ?_⟩
    rw [spread] at among
    rcases List.mem_append.mp among with old | new
    · exact holds.complete other old ranked fragment inner defined covered
    · rw [List.mem_singleton.mp new] at defined
      rw [idle fragment defined] at covered
      cases covered
  have grown : ∀ other ∈ before.spread ++ [name], other ∈ before.spread ∨ rank other < bound := by
    intro other among
    rcases List.mem_append.mp among with old | new
    · exact Or.inl old
    · exact Or.inr (List.mem_singleton.mp new ▸ low)
  split
  · refine ⟨[], before, rfl, .refl _, ?_, List.Subset.refl _, fun _ => Or.inl⟩
    rwa [List.append_nil]
  · cases defined : Entries.get? context.fragments name with
    | none =>
      exact ⟨[], _, rfl, .refl _, marked _ rfl rfl, List.subset_append_left _ _, grown⟩
    | some fragment =>
      dsimp only
      rw [idle fragment defined]
      exact ⟨[], _, rfl, .refl _, marked _ rfl rfl, List.subset_append_left _ _, grown⟩

/-- Of a spread is added what its fragment leads to, unless it was spread before: then all of that
is there already, as the fragment is not read inside itself. -/
theorem Adds.spread {expand : List Selection → Collector Unit} (low : rank name < bound)
    (defined : Entries.get? context.fragments name = some fragment)
    (covered : context.covers (some fragment.condition) = true)
    (reads : context.Reads fragment.selections nodes)
    (adds : ∀ less, budget = less + 1 →
      context.Adds rank (rank name) less (expand fragment.selections) nodes) :
    context.Adds rank bound budget (context.collectSpread expand name) nodes := by
  intro before found enough holds
  rw [runFrom_collectSpread, defined]
  dsimp only
  rw [covered]
  cases known : before.spread.contains name with
  | true =>
    have there := holds.complete name (List.contains_iff_mem.mp known) low fragment nodes defined
      covered reads
    refine ⟨[], before, rfl, ?_, ?_, List.Subset.refl _, fun _ => Or.inl⟩
    · rw [List.append_nil]
      exact (SameFirsts.append_of_subset there).symm
    · rwa [List.append_nil]
  | false =>
    have fewer := unread_append_lt known defined
    obtain ⟨less, rfl⟩ : ∃ less, budget = less + 1 := ⟨budget - 1, by omega⟩
    have inside : context.Holds rank (rank name) found
        { before with spread := before.spread ++ [name] } := by
      refine ⟨holds.groups, fun other among ranked => ?_⟩
      rcases List.mem_append.mp among with old | new
      · exact holds.complete other old (Nat.lt_trans ranked low)
      · rw [List.mem_singleton.mp new] at ranked
        exact absurd ranked (Nat.lt_irrefl _)
    obtain ⟨more, after, ran, same, kept, grows, lower⟩ :=
      adds less rfl { before with spread := before.spread ++ [name] } found
        (by dsimp only; omega) inside
    refine ⟨more, after, ran, same, ⟨kept.groups, ?_⟩,
      List.Subset.trans (List.subset_append_left _ _) grows, fun other spread => ?_⟩
    · intro other spread ranked body inner isBody covers readsBody
      rcases lower other spread with before | below
      · rcases List.mem_append.mp before with old | new
        · exact List.subset_append_of_subset_left _
            (holds.complete other old ranked body inner isBody covers readsBody)
        · rw [List.mem_singleton.mp new, defined] at isBody
          cases isBody
          rw [readsBody.unique reads]
          exact fun node among => (same.mem_iff node).mpr (List.mem_append_right _ among)
      · exact kept.complete other spread below body inner isBody covers readsBody
    · rcases lower other spread with before | below
      · rcases List.mem_append.mp before with old | new
        · exact Or.inl old
        · exact Or.inr (List.mem_singleton.mp new ▸ low)
      · exact Or.inr (Nat.lt_trans below low)

/-! ## Selections -/

variable (context rank bound) in
/-- Fragments of low ranks spread only fragments of lower ranks. -/
def RankedBelow : Prop :=
  ∀ name fragment, Entries.get? context.fragments name = some fragment → rank name < bound →
    ∀ other ∈ Selection.spreadsOf fragment.selections, rank other < rank name

theorem RankedBelow.mono {less : Nat} (low : less ≤ bound)
    (ranked : context.RankedBelow rank bound) : context.RankedBelow rank less :=
  fun name fragment defined below => ranked name fragment defined (Nat.lt_of_lt_of_le below low)

variable (context) in
/-- How the selections of a fragment are read within a budget. -/
def expandBy : Nat → List Selection → Collector Unit
  | 0 => fun _ => pure ()
  | budget + 1 => context.collectWithin budget

theorem collectWithin_eq (budget : Nat) (selections : List Selection) :
    context.collectWithin budget selections =
      context.collectEach (context.expandBy budget) selections := by
  cases budget <;> rfl

/-- A selection that is no field adds what the selections that stand for it lead to. -/
theorem Adds.opened {inner : List Selection} (opens : context.opens? selection = some inner)
    (inside : context.Reads inner nodes) (ranked : context.RankedBelow rank bound)
    (low : ∀ name ∈ selection.spreads, rank name < bound)
    (adds : ∀ {bound budget}, context.RankedBelow rank bound →
      (∀ name ∈ Selection.spreadsOf inner, rank name < bound) →
        context.Adds rank bound budget (context.collectEach (context.expandBy budget) inner)
          nodes) :
    context.Adds rank bound budget (context.collectOne (context.expandBy budget) selection)
      nodes := by
  unfold opens? at opens
  cases taken : context.includes selection.directives with
  | error stop =>
    rw [taken] at opens
    cases opens
  | ok taking =>
    rw [taken] at opens
    cases taking with
    | false =>
      cases opens
      cases inside.unique .nil
      cases selection <;> exact .excluded taken
    | true =>
      cases selection with
      | field name otherKey arguments directives location below => cases opens
      | inline condition directives below =>
        refine .included taken ?_
        cases covered : context.covers condition with
        | true =>
          dsimp only at opens
          rw [covered] at opens
          cases opens
          exact adds ranked low
        | false =>
          dsimp only at opens
          rw [covered] at opens
          cases opens
          cases inside.unique .nil
          exact .pure
      | spread name directives =>
        have below : rank name < bound := low name (List.mem_singleton_self name)
        refine .included taken ?_
        dsimp only at opens
        cases defined : Entries.get? context.fragments name with
        | none =>
          rw [defined] at opens
          cases opens
          cases inside.unique .nil
          exact .spread_idle below fun fragment found => nomatch defined.symm.trans found
        | some fragment =>
          rw [defined] at opens
          dsimp only at opens
          cases covered : context.covers (some fragment.condition) with
          | true =>
            rw [covered] at opens
            cases opens
            refine .spread below defined covered inside ?_
            rintro less rfl
            show context.Adds rank _ less (context.collectWithin less fragment.selections) nodes
            rw [collectWithin_eq]
            exact adds (ranked.mono (Nat.le_of_lt below)) (ranked name fragment defined below)
          | false =>
            rw [covered] at opens
            cases opens
            cases inside.unique .nil
            refine .spread_idle below fun other found => ?_
            cases defined.symm.trans found
            exact covered

/-- Collecting adds the field selections to which some selections lead. -/
theorem Reads.adds (reads : context.Reads selections nodes)
    (ranked : context.RankedBelow rank bound)
    (low : ∀ name ∈ Selection.spreadsOf selections, rank name < bound) :
    context.Adds rank bound budget (context.collectEach (context.expandBy budget) selections)
      nodes := by
  induction reads generalizing bound budget with
  | nil => exact .pure
  | @field name otherKey arguments directives location inner rest later taken _ ih =>
    unfold collectEach
    have after : context.Adds rank bound budget _ later :=
      ih ranked fun name spread => low name (List.mem_append_right _ spread)
    show context.Adds rank bound budget _ ([_] ++ later)
    exact Adds.bind (.included taken (.put _)) after
  | opened opens inside _ ihInside ihAfter =>
    unfold collectEach
    refine Adds.bind ?_ <|
      ihAfter ranked fun name spread => low name (List.mem_append_right _ spread)
    exact .opened opens inside ranked (fun name spread => low name (List.mem_append_left _ spread))
      ihInside

/-- Collecting for an object gives groups of the field selections to which its selections lead, but
for some that repeat others. -/
theorem collectAll_of_reads {chosen : List (List Selection)} {found : List (List FieldNode)}
    (reads : List.Forall₂ context.Reads chosen found) (ranked : context.RankedBelow rank bound)
    (low : ∀ selections ∈ chosen, ∀ name ∈ Selection.spreadsOf selections, rank name < bound) :
    ∃ nodes collected, context.collectAll chosen = (.ok (), collected) ∧
      collected.groups = FieldGroup.ofNodes nodes ∧ SameFirsts nodes found.flatten := by
  have adds : context.Adds rank bound context.fragments.length (chosen.forM context.collect)
      found.flatten := by
    induction reads with
    | nil => exact .pure
    | cons first _ ih =>
      obtain ⟨here, later⟩ := List.forall_mem_cons.mp low
      refine Adds.bind ?_ (ih later)
      unfold collect
      rw [collectWithin_eq]
      exact first.adds ranked here
  have nothing : context.Holds rank bound [] {} :=
    ⟨rfl, fun name spread => absurd spread List.not_mem_nil⟩
  obtain ⟨more, after, ran, same, holds, _⟩ :=
    adds {} [] List.countP_le_length nothing
  exact ⟨more, after, ran, holds.groups, same⟩

end CollectionContext

end GraphQL
