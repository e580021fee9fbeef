import GraphQL.Proofs.Budgets
import GraphQL.Proofs.Grouping

/-!
# The depth-first reading of selections

What collecting comes upon, and in which order, is told without a budget: the first selection that
is still to be read is replaced by the selections that it opens, if any. Each step takes one of the
fragments that have not been spread, or else leaves fewer selections to be read; so the reading
ends, also where fragments spread one another. Collecting is the only solution of its own recursion,
and it does what the reading comes upon: it spreads a fragment once, adds to the groups that are
there, and has response keys in the order in which the reading comes upon them.
-/

namespace GraphQL

/-- What the reading of selections comes upon: a field that takes part, or a fragment that was not
spread before, which is not defined, does not cover the object, or is read itself. -/
inductive Encounter where
  | field (node : FieldNode)
  | missing (fragment : String)
  | passed (fragment : String)
  | expanded (fragment : String)

namespace Encounter

/-- The field that takes part. -/
def node? : Encounter → Option FieldNode
  | field node => some node
  | _ => none

/-- The fragment that counts as spread from then on. -/
def spread? : Encounter → Option String
  | field _ => none
  | missing fragment | passed fragment | expanded fragment => some fragment

/-- The fragment whose selections are read. -/
def expanded? : Encounter → Option String
  | expanded fragment => some fragment
  | _ => none

end Encounter

/-- All that the depth-first reading of selections comes upon, in order, and whether it is stopped
there. -/
structure Tour where
  met : List Encounter
  outcome : Except CoercionStop Unit

namespace Tour

/-- The fields that take part. -/
def nodes (tour : Tour) : List FieldNode :=
  tour.met.filterMap Encounter.node?

/-- The fragments that are spread for the first time. -/
def spread (tour : Tour) : List String :=
  tour.met.filterMap Encounter.spread?

/-- The fragments whose selections are read. -/
def expanded (tour : Tour) : List String :=
  tour.met.filterMap Encounter.expanded?

/-- A tour that comes upon more before. -/
def after (met : List Encounter) (tour : Tour) : Tour :=
  { tour with met := met ++ tour.met }

theorem spread_after (met : List Encounter) (tour : Tour) :
    (tour.after met).spread = met.filterMap Encounter.spread? ++ tour.spread :=
  List.filterMap_append

/-- The fragments that are read are among those that are spread. -/
theorem expanded_sublist (tour : Tour) : tour.expanded.Sublist tour.spread := by
  unfold expanded spread
  induction tour.met with
  | nil => exact .slnil
  | cons encounter met ih =>
    cases encounter with
    | field node => exact ih
    | missing name => exact ih.cons name
    | passed name => exact ih.cons name
    | expanded name => exact ih.cons_cons name

end Tour

namespace Collected

/-- What has been collected together with what is come upon. -/
def note (collected : Collected) : Encounter → Collected
  | .field node => { collected with groups := FieldGroup.put node collected.groups }
  | .missing fragment =>
    { collected with
      spread := collected.spread ++ [fragment], undefined := collected.undefined ++ [fragment] }
  | .passed fragment | .expanded fragment =>
    { collected with spread := collected.spread ++ [fragment] }

/-- What has been collected together with all that a reading comes upon. -/
def noteAll (collected : Collected) (met : List Encounter) : Collected :=
  met.foldl note collected

theorem noteAll_append (collected : Collected) (met more : List Encounter) :
    collected.noteAll (met ++ more) = (collected.noteAll met).noteAll more :=
  List.foldl_append

theorem groups_noteAll (collected : Collected) (met : List Encounter) :
    (collected.noteAll met).groups =
      (met.filterMap Encounter.node?).foldl (fun groups node => FieldGroup.put node groups)
        collected.groups := by
  induction met generalizing collected with
  | nil => rfl
  | cons encounter met ih =>
    refine (ih (collected.note encounter)).trans ?_
    cases encounter <;> rfl

theorem spread_noteAll (collected : Collected) (met : List Encounter) :
    (collected.noteAll met).spread = collected.spread ++ met.filterMap Encounter.spread? := by
  induction met generalizing collected with
  | nil => exact (List.append_nil _).symm
  | cons encounter met ih =>
    refine (ih (collected.note encounter)).trans ?_
    cases encounter <;> simp [note, Encounter.spread?, List.filterMap_cons]

end Collected

namespace Selection

mutual

/-- How many selections are read for one if nothing is spread. -/
def size : Selection → Nat
  | field .. | spread .. => 1
  | inline _ _ selections => sizes selections + 1

/-- How many selections are read if nothing is spread. -/
def sizes : List Selection → Nat
  | [] => 0
  | selection :: rest => selection.size + sizes rest

end

theorem size_pos (selection : Selection) : 0 < selection.size := by
  cases selection with
  | inline condition directives selections => exact Nat.succ_pos _
  | _ => exact Nat.one_pos

theorem sizes_append (selections rest : List Selection) :
    sizes (selections ++ rest) = sizes selections + sizes rest := by
  induction selections with
  | nil => exact (Nat.zero_add _).symm
  | cons selection selections ih =>
    rw [List.cons_append, sizes, sizes, ih, Nat.add_assoc]

end Selection

namespace CollectionContext

variable (context : CollectionContext)

/-- What a selection comes upon where some fragments have been spread, and the selections that it
opens. -/
def meet (visited : List String) (selection : Selection) :
    Except CoercionStop (List Encounter × List Selection) :=
  match context.includes selection.directives with
  | .error stop => .error stop
  | .ok false => .ok ([], [])
  | .ok true =>
    match selection with
    | .field name otherKey arguments _ location selections =>
      .ok ([.field
        { name, responseKey := responseKey name otherKey, arguments, selections, location }], [])
    | .inline condition _ inner => .ok ([], if context.covers condition then inner else [])
    | .spread name _ =>
      if visited.contains name then .ok ([], [])
      else
        match Entries.get? context.fragments name with
        | none => .ok ([.missing name], [])
        | some fragment =>
          if context.covers (some fragment.condition) then
            .ok ([.expanded name], fragment.selections)
          else .ok ([.passed name], [])

variable {context} {visited : List String} {selection : Selection} {met : List Encounter}
  {inner rest : List Selection}

/-- What a selection can come upon: nothing but what it opens, a field, or a fragment that was not
spread before, which opens its selections if it is read. -/
theorem cases_of_meet (opens : context.meet visited selection = .ok (met, inner)) :
    (met = [] ∧ Selection.sizes inner < selection.size) ∨
      (∃ node, met = [.field node] ∧ inner = []) ∨
      ∃ name, visited.contains name = false ∧
        ((met = [.missing name] ∧ inner = []) ∨ (met = [.passed name] ∧ inner = []) ∨
          met = [.expanded name] ∧ ∃ fragment,
            Entries.get? context.fragments name = some fragment ∧ inner = fragment.selections) := by
  unfold meet at opens
  cases taken : context.includes selection.directives with
  | error stop =>
    rw [taken] at opens
    cases opens
  | ok admitted =>
    rw [taken] at opens
    cases admitted with
    | false =>
      cases opens
      exact Or.inl ⟨rfl, selection.size_pos⟩
    | true =>
      cases selection with
      | field name otherKey arguments directives location selections =>
        cases opens
        exact Or.inr (Or.inl ⟨_, rfl, rfl⟩)
      | inline condition directives selections =>
        cases opens
        refine Or.inl ⟨rfl, ?_⟩
        split
        · exact Nat.lt_succ_self _
        · exact Nat.succ_pos _
      | spread name directives =>
        dsimp only at opens
        cases known : visited.contains name with
        | true =>
          rw [known] at opens
          cases opens
          exact Or.inl ⟨rfl, Nat.one_pos⟩
        | false =>
          rw [known] at opens
          refine Or.inr (Or.inr ⟨name, known, ?_⟩)
          cases defined : Entries.get? context.fragments name with
          | none =>
            rw [defined] at opens
            cases opens
            exact Or.inl ⟨rfl, rfl⟩
          | some fragment =>
            rw [defined] at opens
            dsimp only at opens
            cases covered : context.covers (some fragment.condition) with
            | true =>
              rw [covered] at opens
              cases opens
              exact Or.inr (Or.inr ⟨rfl, fragment, rfl, rfl⟩)
            | false =>
              rw [covered] at opens
              cases opens
              exact Or.inr (Or.inl ⟨rfl, rfl⟩)

/-- A step of the reading takes one of the fragments that have not been spread, or else leaves less
to be read. -/
theorem meet_decreases (opens : context.meet visited selection = .ok (met, inner)) :
    Prod.Lex (· < ·) (· < ·)
      (context.unread (visited ++ met.filterMap Encounter.spread?),
        Selection.sizes (inner ++ rest))
      (context.unread visited, Selection.sizes (selection :: rest)) := by
  have fewer :
      context.unread (visited ++ met.filterMap Encounter.spread?) ≤ context.unread visited :=
    unread_anti (List.subset_append_left _ _)
  refine (Nat.lt_or_eq_of_le fewer).elim (Prod.Lex.left _ _) fun same => ?_
  rw [same]
  refine Prod.Lex.right _ ?_
  rw [Selection.sizes_append, Selection.sizes]
  refine Nat.add_lt_add_right ?_ _
  rcases cases_of_meet opens with
    ⟨-, less⟩ | ⟨_, -, rfl⟩ | ⟨name, fresh, ⟨-, rfl⟩ | ⟨-, rfl⟩ | read⟩
  · exact less
  · exact selection.size_pos
  · exact selection.size_pos
  · exact selection.size_pos
  · obtain ⟨rfl, fragment, defined, -⟩ := read
    exact absurd same (Nat.ne_of_lt (unread_append_lt fresh defined))

variable (context) in
/-- The tour of some selections where some fragments have been spread. -/
def tour (visited : List String) : List Selection → Tour
  | [] => ⟨[], .ok ()⟩
  | selection :: rest =>
    match _ : context.meet visited selection with
    | .error stop => ⟨[], .error stop⟩
    | .ok (met, inner) =>
      (tour (visited ++ met.filterMap Encounter.spread?) (inner ++ rest)).after met
termination_by selections => (context.unread visited, Selection.sizes selections)
decreasing_by exact meet_decreases ‹_›

/-! ## What a tour comes upon -/

/-- A step of the reading spreads fragments that have not been spread, each once. -/
theorem nodup_of_meet (opens : context.meet visited selection = .ok (met, inner)) :
    (met.filterMap Encounter.spread?).Nodup ∧
      ∀ name ∈ met.filterMap Encounter.spread?, name ∉ visited := by
  rcases cases_of_meet opens with ⟨rfl, -⟩ | ⟨_, rfl, -⟩ | ⟨name, fresh, held⟩
  · exact ⟨List.nodup_nil, nofun⟩
  · exact ⟨List.nodup_nil, nofun⟩
  · have single : met.filterMap Encounter.spread? = [name] := by
      rcases held with ⟨rfl, -⟩ | ⟨rfl, -⟩ | ⟨rfl, -⟩ <;> rfl
    rw [single]
    refine ⟨List.nodup_singleton name, fun other among => ?_⟩
    rw [List.mem_singleton.mp among]
    simpa using fresh

variable (context) in
/-- A tour spreads fragments that have not been spread, each once. -/
theorem nodup_spread_tour (visited : List String) (selections : List Selection) :
    (context.tour visited selections).spread.Nodup ∧
      ∀ name ∈ (context.tour visited selections).spread, name ∉ visited := by
  fun_induction tour context visited selections with
  | case1 => exact ⟨List.nodup_nil, nofun⟩
  | case2 => exact ⟨List.nodup_nil, nofun⟩
  | case3 visited selection rest met inner opens ih =>
    obtain ⟨distinct, fresh⟩ := nodup_of_meet opens
    obtain ⟨later, others⟩ := ih
    rw [Tour.spread_after]
    refine ⟨distinct.append later fun name here there => ?_, fun name among => ?_⟩
    · exact others name there (List.mem_append_right _ here)
    · rcases List.mem_append.mp among with here | there
      · exact fresh name here
      · exact fun known => others name there (List.mem_append_left _ known)

/-! ## Collecting goes on a tour -/

variable (context) in
/-- Reading selections is reading each of them, fragments being read in the same way. -/
def Recurs (collect : List Selection → Collector Unit) : Prop :=
  ∀ selections, collect selections = context.collectEach collect selections

/-- No budget shows in what collecting does. -/
theorem recurs_collect : context.Recurs context.collect := fun selections => by
  rw [← collectWithin_eq_collect (Nat.le_succ _) selections]
  rfl

/-- What a step of collecting goes on to is what the next one begins with. -/
theorem runFrom_collectEach_append (expand : List Selection → Collector Unit)
    (selections rest : List Selection) (before : Collected) :
    (context.collectEach expand (selections ++ rest)).runFrom before =
      Collector.runFrom (do
        context.collectEach expand selections
        context.collectEach expand rest) before := by
  rw [Collector.runFrom_bind]
  induction selections generalizing before with
  | nil => rfl
  | cons selection selections ih =>
    rw [List.cons_append, collectEach, collectEach, Collector.runFrom_bind, Collector.runFrom_bind]
    rcases (context.collectOne expand selection).runFrom before with ⟨stop | _, middle⟩
    · rfl
    · rw [← ih middle]

section Collecting

variable {collect : List Selection → Collector Unit} (recurs : context.Recurs collect)
include recurs

/-- A selection is collected as it is met, and what it opens is collected after that. -/
theorem runFrom_collectOne (selection : Selection) (before : Collected) :
    (context.collectOne collect selection).runFrom before =
      match context.meet before.spread selection with
      | .error stop => (.error stop, before)
      | .ok (met, inner) => (context.collectEach collect inner).runFrom (before.noteAll met) := by
  unfold collectOne meet
  cases selection with
  | field name otherKey arguments directives location selections =>
    rw [Collector.runFrom_bind]
    dsimp only [Selection.directives]
    cases context.includes directives with
    | error stop => rfl
    | ok admitted => cases admitted <;> rfl
  | inline condition directives selections =>
    rw [Collector.runFrom_bind]
    dsimp only [Selection.directives]
    cases context.includes directives with
    | error stop => rfl
    | ok admitted =>
      cases admitted with
      | false => rfl
      | true => cases covered : context.covers condition <;> rfl
  | spread name directives =>
    rw [Collector.runFrom_bind]
    dsimp only [Selection.directives]
    cases context.includes directives with
    | error stop => rfl
    | ok admitted =>
      cases admitted with
      | false => rfl
      | true =>
        show (context.collectSpread collect name).runFrom before = _
        rw [runFrom_collectSpread]
        cases before.spread.contains name with
        | true => rfl
        | false =>
          cases Entries.get? context.fragments name with
          | none => rfl
          | some fragment =>
            dsimp only
            rw [recurs fragment.selections]
            cases context.covers (some fragment.condition) <;> rfl

/-- Whatever recurs like collecting goes on a tour and notes what it comes upon. -/
theorem runFrom_eq_tour (visited : List String) (selections : List Selection) :
    ∀ before : Collected, before.spread = visited →
      (collect selections).runFrom before =
        ((context.tour visited selections).outcome,
          before.noteAll (context.tour visited selections).met) := by
  fun_induction tour context visited selections with
  | case1 visited =>
    rintro before rfl
    rw [recurs]
    rfl
  | case2 visited selection rest stop stops =>
    rintro before rfl
    rw [recurs, collectEach, Collector.runFrom_bind, runFrom_collectOne recurs, stops]
    rfl
  | case3 visited selection rest met inner opens ih =>
    rintro before rfl
    -- the tour goes on with one list, the collecting with what the selection opens and then the rest
    have later := ih (before.noteAll met) (Collected.spread_noteAll before met)
    rw [recurs, runFrom_collectEach_append, Collector.runFrom_bind] at later
    rw [recurs, collectEach, Collector.runFrom_bind, runFrom_collectOne recurs, opens]
    dsimp only [Tour.after]
    rw [Collected.noteAll_append]
    exact later

end Collecting

end CollectionContext

/-! ## What a tour adds -/

/-- What is collected on a tour: each fragment is spread and read at most once, and the field
selections on the tour join what was collected before, which stays as it is. -/
structure Tour.Extends (tour : Tour) (before after : Collected) : Prop where
  spread : after.spread = before.spread ++ tour.spread
  spreadOnce : tour.spread.Nodup
  unspread : ∀ name ∈ tour.spread, name ∉ before.spread
  readOnce : tour.expanded.Nodup
  readSpread : tour.expanded ⊆ tour.spread
  kept : FieldGroup.Grow before.groups after.groups
  nodes : ∀ responseKey, FieldGroup.nodesUnder responseKey after.groups =
    FieldGroup.nodesUnder responseKey before.groups ++
      tour.nodes.filter (·.responseKey == responseKey)
  keys : after.groups.map FieldGroup.key = before.groups.map FieldGroup.key ++
    (tour.nodes.map FieldNode.responseKey).eraseDups.filter (· ∉ before.groups.map FieldGroup.key)

namespace CollectionContext

variable {context : CollectionContext}

theorem extends_tour (before : Collected) (selections : List Selection) :
    (context.tour before.spread selections).Extends before
      (before.noteAll (context.tour before.spread selections).met) := by
  obtain ⟨distinct, fresh⟩ := context.nodup_spread_tour before.spread selections
  have read := (context.tour before.spread selections).expanded_sublist
  have groups := Collected.groups_noteAll before (context.tour before.spread selections).met
  exact
    { spread := Collected.spread_noteAll before _
      spreadOnce := distinct
      unspread := fresh
      readOnce := distinct.sublist read
      readSpread := read.subset
      kept := groups ▸ FieldGroup.grow_foldl_put _ _
      nodes := fun responseKey => groups ▸ FieldGroup.nodesUnder_foldl_put responseKey _ _
      keys := groups ▸ FieldGroup.keys_foldl_put _ _ }

theorem runFrom_forM_collect (chosen : List (List Selection)) (before : Collected) :
    Collector.runFrom (chosen.forM context.collect) before =
      (context.collect chosen.flatten).runFrom before := by
  induction chosen generalizing before with
  | nil =>
    rw [recurs_collect]
    rfl
  | cons selections chosen ih =>
    rw [List.flatten_cons, recurs_collect, runFrom_collectEach_append, ← recurs_collect,
      ← recurs_collect]
    show Collector.runFrom (do context.collect selections; chosen.forM context.collect) before = _
    rw [Collector.runFrom_bind, Collector.runFrom_bind]
    rcases (context.collect selections).runFrom before with ⟨stop | _, middle⟩
    · rfl
    · exact ih middle

variable (context) in
/-- Collecting ends: it is the only solution of its own recursion, and it goes on the tour of its
selections, whatever was collected before. For one object the tour goes through all selections in
turn, and what is collected has the response keys that it comes upon, in order of first
occurrence. -/
theorem collect_goes_on_tour :
    context.Recurs context.collect ∧
    (∀ collect, context.Recurs collect → collect = context.collect) ∧
    (∀ (before : Collected) selections,
      let tour := context.tour before.spread selections
      (context.collect selections).runFrom before = (tour.outcome, before.noteAll tour.met) ∧
        tour.Extends before (before.noteAll tour.met)) ∧
    ∀ chosen : List (List Selection),
      let tour := context.tour [] chosen.flatten
      context.collectAll chosen = (tour.outcome, Collected.noteAll {} tour.met) ∧
        tour.Extends {} (Collected.noteAll {} tour.met) ∧
        (context.collectAll chosen).2.groups.map FieldGroup.key =
          (tour.nodes.map FieldNode.responseKey).eraseDups := by
  have runs : ∀ (before : Collected) selections, (context.collect selections).runFrom before = _ :=
    fun before selections => runFrom_eq_tour recurs_collect before.spread selections before rfl
  have whole : ∀ chosen : List (List Selection), context.collectAll chosen = _ := fun chosen =>
    (runFrom_forM_collect chosen {}).trans (runs {} chosen.flatten)
  refine ⟨recurs_collect, fun collect recurs => ?_, fun before selections => ?_, fun chosen => ?_⟩
  · refine funext fun selections => funext fun before => ?_
    exact (runFrom_eq_tour recurs before.spread selections before rfl).trans
      (runs before selections).symm
  · exact ⟨runs before selections, extends_tour before selections⟩
  · refine ⟨whole chosen, extends_tour {} chosen.flatten, ?_⟩
    rw [whole, Collected.groups_noteAll]
    exact FieldGroup.keys_ofNodes _

/-- Two fragments that spread each other, the first of them twice. -/
def circularContext : CollectionContext where
  registry := { types := [], query := "Query" }
  convert := fun _ value => .ok value
  variableValues := []
  fragments :=
    [("Left", ⟨"Left", "Query", [.field "a" none [] [] none [], .spread "Right" [],
      .spread "Right" []]⟩),
      ("Right", ⟨"Right", "Query", [.field "b" none [] [] none [], .spread "Left" [],
        .field "a" none [] [] none []]⟩)]
  object := { name := "Query" }

/-- Each of them is read once. -/
example :
    let collected := (circularContext.collectAll [[.spread "Right" []], [.spread "Left" []]]).2
    collected.spread = ["Right", "Left"] ∧ collected.groups.map FieldGroup.key = ["b", "a"] := by
  decide

end CollectionContext

end GraphQL
