import GraphQL.Proofs.Layout
import Mathlib.Data.List.Nodup

/-!
# What is collected

The field selections that are collected for an object stand in its selections, or in fragments that
cover it and that the selections lead to. They are grouped by response key, and no key occurs twice.
-/

namespace GraphQL

variable {α β : Type}

namespace Collector

/-- The outcome of a step of collecting, and what has been collected after it. -/
def runFrom (part : Collector α) (before : Collected) : Except CoercionStop α × Collected :=
  Id.run (part.run.run before)

theorem runFrom_bind (part : Collector α) (next : α → Collector β) (before : Collected) :
    Collector.runFrom (part >>= next) before =
      match part.runFrom before with
      | (.ok result, after) => (next result).runFrom after
      | (.error stop, after) => (.error stop, after) := by
  unfold runFrom
  show Id.run ((ExceptT.bind part next).run.run before) = _
  cases ran : Id.run (part.run.run before) with
  | mk outcome after =>
    cases outcome with
    | error stop =>
      simp_all [ExceptT.bind, ExceptT.bindCont, ExceptT.mk, ExceptT.run, StateT.run, bind,
        StateT.bind, Id.run]
      rfl
    | ok result =>
      simp_all [ExceptT.bind, ExceptT.bindCont, ExceptT.mk, ExceptT.run, StateT.run, bind,
        StateT.bind, Id.run]

/-- A step of collecting keeps an invariant, also where it stops. -/
def Preserves (invariant : Collected → Prop) (part : Collector α) : Prop :=
  ∀ before, invariant before → invariant (part.runFrom before).2

namespace Preserves

variable {invariant : Collected → Prop} {part : Collector α} {next : α → Collector β}

protected theorem pure (result : α) : Preserves invariant (pure result : Collector α) :=
  fun _ held => held

protected theorem bind (first : Preserves invariant part)
    (goesOn : ∀ result, Preserves invariant (next result)) :
    Preserves invariant (part >>= next) := by
  intro before held
  have kept := first before held
  rw [runFrom_bind]
  rcases ran : part.runFrom before with ⟨stop | result, after⟩
  · rw [ran] at kept
    exact kept
  · rw [ran] at kept
    exact goesOn result after kept

/-- A look at what has been collected. -/
protected theorem get : Preserves invariant (get : Collector Collected) :=
  fun _ held => held

protected theorem modify {change : Collected → Collected}
    (keeps : ∀ collected, invariant collected → invariant (change collected)) :
    Preserves invariant (modify change : Collector PUnit) :=
  fun before held => keeps before held

/-- An outcome that was computed aside. -/
theorem of_outcome (outcome : Except CoercionStop α) :
    Preserves invariant (ExceptT.mk (pure outcome) : Collector α) :=
  fun _ held => held

end Preserves

end Collector

namespace CollectionContext

variable (context : CollectionContext)

/-- A field selection takes part in an object: it stands among the selections, or in a fragment that
covers the object and that they lead to. -/
inductive Collectable : List Selection → FieldNode → Prop where
  | field {name : String} {otherKey : Option String} {arguments : Entries Value}
      {directives : List DirectiveUse} {location : Option Location}
      {selections inner : List Selection} :
      .field name otherKey arguments directives location inner ∈ selections →
      Collectable selections
        { name, responseKey := responseKey name otherKey, arguments, selections := inner, location }
  | inline {condition : Option String} {directives : List DirectiveUse}
      {selections inner : List Selection} {node : FieldNode} :
      .inline condition directives inner ∈ selections → context.covers condition = true →
      Collectable inner node → Collectable selections node
  | spread {name : String} {directives : List DirectiveUse} {fragment : Fragment}
      {selections : List Selection} {node : FieldNode} :
      .spread name directives ∈ selections →
      Entries.get? context.fragments name = some fragment →
      context.covers (some fragment.condition) = true →
      Collectable fragment.selections node → Collectable selections node

variable {context : CollectionContext}

/-- More selections lead to more field selections. -/
theorem Collectable.mono {fewer more : List Selection} {node : FieldNode}
    (among : ∀ selection ∈ fewer, selection ∈ more) (collectable : context.Collectable fewer node) :
    context.Collectable more node := by
  cases collectable with
  | field member => exact .field (among _ member)
  | inline member covered inner => exact .inline (among _ member) covered inner
  | spread member found covered inner => exact .spread (among _ member) found covered inner

end CollectionContext

/-- Some groups are made of certain field selections, each under its response key, and no key occurs
twice. -/
structure Grouped (takesPart : FieldNode → Prop) (groups : List FieldGroup) : Prop where
  distinct : (groups.map FieldGroup.key).Nodup
  nodes : ∀ group ∈ groups, ∀ node ∈ group.nodes, takesPart node ∧ node.responseKey = group.key

namespace Grouped

variable {takesPart : FieldNode → Prop} {groups : List FieldGroup} {node : FieldNode}

theorem nil : Grouped takesPart [] :=
  ⟨List.nodup_nil, fun _ member => nomatch member⟩

/-- A key that is there after a field selection is put was there before, or is its own. -/
theorem mem_keys_put {key : String}
    (member : key ∈ (FieldGroup.put node groups).map FieldGroup.key) :
    key ∈ groups.map FieldGroup.key ∨ key = node.responseKey := by
  induction groups with
  | nil => exact Or.inr (List.mem_singleton.mp member)
  | cons group rest ih =>
    unfold FieldGroup.put at member
    split at member
    · exact Or.inl member
    · rcases List.mem_cons.mp member with rfl | member
      · exact Or.inl List.mem_cons_self
      · exact (ih member).imp_left (List.mem_cons_of_mem _)

/-- Putting a field selection that takes part keeps groups in order. -/
theorem put (grouped : Grouped takesPart groups) (part : takesPart node) :
    Grouped takesPart (FieldGroup.put node groups) := by
  induction groups with
  | nil =>
    refine ⟨List.nodup_singleton _, fun group member other inside => ?_⟩
    cases List.mem_singleton.mp member
    cases List.mem_singleton.mp inside
    exact ⟨part, rfl⟩
  | cons group rest ih =>
    have restGrouped : Grouped takesPart rest :=
      ⟨(List.nodup_cons.mp grouped.distinct).2,
        fun other member => grouped.nodes other (List.mem_cons_of_mem _ member)⟩
    unfold FieldGroup.put
    split
    · next same =>
      refine ⟨grouped.distinct, fun other member inner inside => ?_⟩
      rcases List.mem_cons.mp member with rfl | member
      · have appended : inner ∈ group.nodes ++ [node] := inside
        rcases List.mem_append.mp appended with old | new
        · exact grouped.nodes group List.mem_cons_self inner old
        · cases List.mem_singleton.mp new
          exact ⟨part, same.symm⟩
      · exact restGrouped.nodes other member inner inside
    · next different =>
      obtain ⟨distinct, nodes⟩ := ih restGrouped
      refine ⟨List.nodup_cons.mpr ⟨fun repeated => ?_, distinct⟩, fun other member => ?_⟩
      · rcases mem_keys_put repeated with old | own
        · exact (List.nodup_cons.mp grouped.distinct).1 old
        · exact different own
      · rcases List.mem_cons.mp member with rfl | member
        · exact grouped.nodes _ List.mem_cons_self
        · exact nodes other member

end Grouped

namespace CollectionContext

variable {context : CollectionContext} {takesPart : FieldNode → Prop}
  {expand : List Selection → Collector Unit}

variable (takesPart) in
/-- Reading some selections keeps the groups in order. -/
abbrev KeepsGroups (part : Collector Unit) : Prop :=
  Collector.Preserves (fun collected => Grouped takesPart collected.groups) part

/-- A selection is read if its directives let it take part. -/
theorem keepsGroups_ifIncluded {directives : List DirectiveUse} {part : Collector Unit}
    (kept : KeepsGroups takesPart part) :
    KeepsGroups takesPart (do
      if ← ExceptT.mk (pure (context.includes directives)) then part else pure ()) := by
  refine (Collector.Preserves.of_outcome _).bind ?_
  intro included
  cases included with
  | true => exact kept
  | false => exact .pure ()

/-- Reading a fragment that was not spread before keeps the groups in order. -/
theorem keepsGroups_collectSpread {name : String}
    (kept : ∀ fragment, Entries.get? context.fragments name = some fragment →
      context.covers (some fragment.condition) = true →
      KeepsGroups takesPart (expand fragment.selections)) :
    KeepsGroups takesPart (context.collectSpread expand name) := by
  unfold collectSpread
  refine Collector.Preserves.get.bind fun collected => ?_
  split
  · exact .pure ()
  · refine Collector.Preserves.bind (.modify fun _ held => held) fun _ => ?_
    split
    · exact .modify fun _ held => held
    · next fragment found =>
      split
      · next covered => exact kept fragment found covered
      · exact .pure ()

mutual

/-- Reading a selection keeps the groups in order, if the field selections that it leads to take
part. -/
theorem keepsGroups_collectOne
    (expands : ∀ inner, (∀ node, context.Collectable inner node → takesPart node) →
      KeepsGroups takesPart (expand inner))
    (selection : Selection) (part : ∀ node, context.Collectable [selection] node → takesPart node) :
    KeepsGroups takesPart (context.collectOne expand selection) := by
  cases selection with
  | field name otherKey arguments directives location inner =>
    unfold collectOne
    refine keepsGroups_ifIncluded (.modify fun collected grouped => ?_)
    exact grouped.put (part _ (.field List.mem_cons_self))
  | inline condition directives inner =>
    unfold collectOne
    refine keepsGroups_ifIncluded ?_
    split
    · next covered =>
      exact keepsGroups_collectEach expands inner fun node inside =>
        part node (.inline List.mem_cons_self covered inside)
    · exact .pure ()
  | spread name directives =>
    unfold collectOne
    refine keepsGroups_ifIncluded (keepsGroups_collectSpread fun fragment found covered => ?_)
    exact expands fragment.selections fun node inside =>
      part node (.spread List.mem_cons_self found covered inside)

/-- Reading selections in order keeps the groups in order. -/
theorem keepsGroups_collectEach
    (expands : ∀ inner, (∀ node, context.Collectable inner node → takesPart node) →
      KeepsGroups takesPart (expand inner))
    (selections : List Selection)
    (part : ∀ node, context.Collectable selections node → takesPart node) :
    KeepsGroups takesPart (context.collectEach expand selections) := by
  cases selections with
  | nil => exact .pure ()
  | cons selection rest =>
    unfold collectEach
    refine (keepsGroups_collectOne expands selection fun node inside => ?_).bind fun _ =>
      keepsGroups_collectEach expands rest fun node inside => ?_
    · refine part node (inside.mono fun other member => ?_)
      exact List.mem_cons.mpr (Or.inl (List.mem_singleton.mp member))
    · exact part node (inside.mono fun other member => List.mem_cons_of_mem _ member)

end

/-- However deep fragments are followed, the groups are kept in order. -/
theorem keepsGroups_collectWithin (budget : Nat) (selections : List Selection)
    (part : ∀ node, context.Collectable selections node → takesPart node) :
    KeepsGroups takesPart (context.collectWithin budget selections) := by
  induction budget generalizing selections with
  | zero => exact keepsGroups_collectEach (fun _ _ => .pure ()) selections part
  | succ budget ih => exact keepsGroups_collectEach ih selections part

/-- What is collected for an object is grouped, and consists of field selections that the given
selections lead to. -/
theorem collectAll_grouped (selections : List (List Selection)) :
    Grouped (fun node => ∃ inner ∈ selections, context.Collectable inner node)
      (context.collectAll selections).2.groups := by
  have kept : ∀ chosen : List (List Selection), (∀ inner ∈ chosen, inner ∈ selections) →
      KeepsGroups (fun node => ∃ inner ∈ selections, context.Collectable inner node)
        (chosen.forM context.collect) := by
    intro chosen among
    induction chosen with
    | nil => exact .pure ()
    | cons inner rest ih =>
      refine Collector.Preserves.bind (keepsGroups_collectWithin _ inner fun node inside => ?_)
        fun _ => ih fun other member => among other (List.mem_cons_of_mem _ member)
      exact ⟨inner, among inner List.mem_cons_self, inside⟩
  exact kept selections (fun _ member => member) {} Grouped.nil

end CollectionContext

/-- The groups that are collected for an object consist of field selections that take part in it,
and have distinct keys. -/
theorem Environment.Collects.grouped {σ : Type} {env : Environment σ} {object : ObjectType}
    {selections : List (List Selection)} {groups : List FieldGroup}
    (collected : env.Collects object selections groups) :
    ∃ world, Grouped (fun node => ∃ inner ∈ selections,
      (env.collection world object).Collectable inner node) groups := by
  obtain ⟨world, _, rfl⟩ := collected
  exact ⟨world, CollectionContext.collectAll_grouped selections⟩

end GraphQL
