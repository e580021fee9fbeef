import GraphQL.Execution.Collection
import Mathlib.Data.List.Forall2
import Mathlib.Data.List.Induction
import Mathlib.Data.List.Nodup

/-!
# Grouping and repetition

A list that repeats items which stand earlier in it gives nothing new to whoever looks for a first
item. Lists that agree in this are made of the same items in the same order of first occurrence, and
grouped by response key they give the same keys, with groups that agree in the same way.
-/

namespace GraphQL

variable {α β : Type} {xs ys zs more others : List α}

/-- Whatever is looked for, its first occurrence in both lists is the same item. -/
def SameFirsts (xs ys : List α) : Prop :=
  ∀ accepts : α → Bool, xs.find? accepts = ys.find? accepts

namespace SameFirsts

protected theorem refl (xs : List α) : SameFirsts xs xs :=
  fun _ => rfl

theorem symm (same : SameFirsts xs ys) : SameFirsts ys xs :=
  fun accepts => (same accepts).symm

theorem trans (same : SameFirsts xs ys) (next : SameFirsts ys zs) : SameFirsts xs zs :=
  fun accepts => (same accepts).trans (next accepts)

theorem append (same : SameFirsts xs ys) (after : SameFirsts more others) :
    SameFirsts (xs ++ more) (ys ++ others) := by
  intro accepts
  rw [List.find?_append, List.find?_append, same, after]

/-- Items that stand earlier in a list may be left out at its end. -/
theorem append_of_subset (repeated : more ⊆ xs) : SameFirsts (xs ++ more) xs := by
  intro accepts
  rw [List.find?_append]
  cases found : xs.find? accepts with
  | some x => rfl
  | none =>
    exact List.find?_eq_none.mpr fun x among => List.find?_eq_none.mp found x (repeated among)

theorem filter (same : SameFirsts xs ys) (keeps : α → Bool) :
    SameFirsts (xs.filter keeps) (ys.filter keeps) := by
  intro accepts
  rw [List.find?_filter, List.find?_filter]
  exact same _

theorem map (same : SameFirsts xs ys) (change : α → β) :
    SameFirsts (xs.map change) (ys.map change) := by
  intro accepts
  rw [List.find?_map, List.find?_map]
  exact congrArg _ (same _)

theorem flatMap (same : SameFirsts xs ys) (expand : α → List β) :
    SameFirsts (xs.flatMap expand) (ys.flatMap expand) := by
  -- The item in which something is found is the first in which anything is.
  have found : ∀ (accepts : β → Bool) (items : List α), (items.flatMap expand).find? accepts =
      (items.find? fun item => ((expand item).find? accepts).isSome).bind
        fun item => (expand item).find? accepts := by
    intro accepts items
    induction items with
    | nil => rfl
    | cons item rest ih =>
      rw [List.flatMap_cons, List.find?_append, List.find?_cons]
      cases here : (expand item).find? accepts with
      | some result =>
        rw [Option.isSome_some]
        exact here.symm
      | none =>
        rw [Option.isSome_none, ih]
        rfl
  intro accepts
  rw [found, found, same]

theorem mem_iff (same : SameFirsts xs ys) (x : α) : x ∈ xs ↔ x ∈ ys := by
  classical
  have looked : ∀ items : List α, x ∈ items ↔ (items.find? (· == x)).isSome = true := by
    intro items
    rw [List.find?_isSome]
    exact ⟨fun among => ⟨x, among, beq_self_eq_true x⟩, fun ⟨y, among, equal⟩ =>
      eq_of_beq equal ▸ among⟩
  rw [looked, looked, same]

/-- The items without repetitions are the same. -/
theorem eraseDups_eq [DecidableEq α] (same : SameFirsts xs ys) : xs.eraseDups = ys.eraseDups := by
  induction size : xs.length using Nat.strongRecOn generalizing xs ys with
  | ind size ih =>
    have first := same fun _ => true
    cases xs with
    | nil =>
      cases ys with
      | nil => rfl
      | cons y ys => cases first
    | cons x xs =>
      cases ys with
      | nil => cases first
      | cons y ys =>
        have head : x = y := Option.some.inj first
        subst head
        rw [List.eraseDups_cons, List.eraseDups_cons]
        refine congrArg (x :: ·) ?_
        have others : SameFirsts (xs.filter (!· == x)) (ys.filter (!· == x)) := by
          have filtered := same.filter (!· == x)
          rwa [List.filter_cons_of_neg (by simp), List.filter_cons_of_neg (by simp)] at filtered
        refine ih _ ?_ others rfl
        rw [← size]
        exact Nat.lt_succ_of_le (List.length_filter_le _ _)

end SameFirsts

/-- Lists whose items are related one by one, but for repetitions. -/
def MatchFirsts (related : α → β → Prop) (xs : List α) (ys : List β) : Prop :=
  ∃ all others, SameFirsts xs all ∧ List.Forall₂ related all others ∧ SameFirsts ys others

namespace MatchFirsts

variable {related : α → β → Prop} {x : α} {y : β} {ys : List β}

theorem mono {weaker : α → β → Prop} (matched : MatchFirsts related xs ys)
    (implies : ∀ x y, related x y → weaker x y) : MatchFirsts weaker xs ys := by
  obtain ⟨all, others, same, held, sameToo⟩ := matched
  exact ⟨all, others, same, held.imp implies, sameToo⟩

/-- The first items are related. -/
theorem head (matched : MatchFirsts related (x :: xs) (y :: ys)) : related x y := by
  obtain ⟨all, others, same, held, sameToo⟩ := matched
  have first := same fun _ => true
  have firstToo := sameToo fun _ => true
  cases held with
  | nil => cases first
  | cons here _ =>
    cases (Option.some.inj first : x = _)
    cases (Option.some.inj firstToo : y = _)
    exact here

theorem map {γ δ : Type} {change : α → γ} {otherChange : β → δ} {later : γ → δ → Prop}
    (matched : MatchFirsts related xs ys)
    (goesOn : ∀ x y, related x y → later (change x) (otherChange y)) :
    MatchFirsts later (xs.map change) (ys.map otherChange) := by
  obtain ⟨all, others, same, held, sameToo⟩ := matched
  refine ⟨_, _, same.map change, ?_, sameToo.map otherChange⟩
  rw [List.forall₂_map_left_iff, List.forall₂_map_right_iff]
  exact held.imp goesOn

end MatchFirsts

/-! ## Groups -/

namespace FieldGroup

/-- The groups of some field selections. -/
def ofNodes (nodes : List FieldNode) : List FieldGroup :=
  nodes.foldl (fun groups node => put node groups) []

theorem ofNodes_append_singleton (nodes : List FieldNode) (node : FieldNode) :
    ofNodes (nodes ++ [node]) = put node (ofNodes nodes) := by
  unfold ofNodes
  rw [List.foldl_append]
  rfl

variable {node : FieldNode} {groups later : List FieldGroup}

theorem keys_put : (put node groups).map key =
    if node.responseKey ∈ groups.map key then groups.map key
    else groups.map key ++ [node.responseKey] := by
  induction groups with
  | nil => rfl
  | cons group rest ih =>
    unfold put
    rw [List.map_cons]
    by_cases here : group.key = node.responseKey
    · rw [if_pos here, if_pos (List.mem_cons.mpr (Or.inl here.symm))]
      rfl
    · rw [if_neg here, List.map_cons, ih]
      by_cases later : node.responseKey ∈ rest.map key
      · rw [if_pos later, if_pos (List.mem_cons_of_mem _ later)]
      · rw [if_neg later, if_neg (by simp [later, Ne.symm here])]
        rfl

/-- A group after a field selection was put is an old one, the one that the selection went to, or a
new one. -/
theorem nodes_of_mem_put (distinct : (groups.map key).Nodup) {group : FieldGroup}
    (among : group ∈ put node groups) :
    (group ∈ groups ∧ group.key ≠ node.responseKey) ∨
      (∃ old ∈ groups, group.key = node.responseKey ∧ old.key = group.key ∧
        group.nodes = old.nodes ++ [node]) ∨
      (node.responseKey ∉ groups.map key ∧ group = { first := node }) := by
  induction groups with
  | nil => exact Or.inr (Or.inr ⟨List.not_mem_nil, List.mem_singleton.mp among⟩)
  | cons first rest ih =>
    obtain ⟨own, others⟩ := List.nodup_cons.mp distinct
    unfold put at among
    split at among
    · next here =>
      rcases List.mem_cons.mp among with rfl | later
      · exact Or.inr (Or.inl ⟨first, List.mem_cons_self, here, rfl, rfl⟩)
      · refine Or.inl ⟨List.mem_cons_of_mem _ later, fun same => own ?_⟩
        exact List.mem_map.mpr ⟨group, later, same.trans here.symm⟩
    · next different =>
      rcases List.mem_cons.mp among with rfl | later
      · exact Or.inl ⟨List.mem_cons_self, different⟩
      · rcases ih others later with ⟨there, other⟩ | ⟨old, there, held⟩ | ⟨fresh, new⟩
        · exact Or.inl ⟨List.mem_cons_of_mem _ there, other⟩
        · exact Or.inr (Or.inl ⟨old, List.mem_cons_of_mem _ there, held⟩)
        · refine Or.inr (Or.inr ⟨fun known => ?_, new⟩)
          rcases List.mem_cons.mp known with same | known
          · exact different same.symm
          · exact fresh known

/-- Where field selections are put, their keys come after those that are there already, in order of
first occurrence. -/
theorem keys_foldl_put (nodes : List FieldNode) (groups : List FieldGroup) :
    (nodes.foldl (fun groups node => put node groups) groups).map key =
      groups.map key ++
        (nodes.map FieldNode.responseKey).eraseDups.filter (· ∉ groups.map key) := by
  induction nodes using List.reverseRecOn with
  | nil => exact (List.append_nil _).symm
  | append_singleton nodes node ih =>
    rw [List.foldl_append, List.foldl_cons, List.foldl_nil, keys_put, ih, List.map_append,
      List.eraseDups_append, List.filter_append, ← List.append_assoc, List.map_singleton,
      List.removeAll]
    generalize groups.map key = old
    by_cases known : node.responseKey ∈ nodes.map FieldNode.responseKey
    · rw [List.filter_cons_of_neg (by simpa using known)]
      by_cases there : node.responseKey ∈ old <;> simp [known, there]
    · rw [List.filter_cons_of_pos (by simpa using known)]
      by_cases there : node.responseKey ∈ old <;> simp [known, there, List.eraseDups_cons]

/-- The keys of groups are those of their field selections, in order of first occurrence. -/
theorem keys_ofNodes (nodes : List FieldNode) :
    (ofNodes nodes).map key = (nodes.map FieldNode.responseKey).eraseDups := by
  refine (keys_foldl_put nodes []).trans ?_
  rw [List.map_nil, List.nil_append]
  exact List.filter_eq_self.mpr fun _ _ => decide_eq_true List.not_mem_nil

theorem nodup_keys_ofNodes (nodes : List FieldNode) : ((ofNodes nodes).map key).Nodup := by
  induction nodes using List.reverseRecOn with
  | nil => exact List.nodup_nil
  | append_singleton nodes node ih =>
    rw [ofNodes_append_singleton, keys_put]
    split
    · exact ih
    · next fresh => exact ih.append (List.nodup_singleton _) (by simpa using fresh)

/-- A group has the field selections of its key, in order. -/
theorem nodes_of_mem_ofNodes {nodes : List FieldNode} {group : FieldGroup}
    (among : group ∈ ofNodes nodes) :
    group.nodes = nodes.filter (·.responseKey == group.key) := by
  induction nodes using List.reverseRecOn generalizing group with
  | nil => cases among
  | append_singleton nodes node ih =>
    rw [ofNodes_append_singleton] at among
    rw [List.filter_append]
    rcases nodes_of_mem_put (nodup_keys_ofNodes nodes) among with
      ⟨there, other⟩ | ⟨old, there, own, same, put⟩ | ⟨fresh, rfl⟩
    · rw [ih there, List.filter_cons_of_neg (by simpa using Ne.symm other), List.filter_nil,
        List.append_nil]
    · rw [put, ih there, same, List.filter_cons_of_pos (by simp [own]), List.filter_nil]
    · have none : nodes.filter (·.responseKey == node.responseKey) = [] := by
        refine List.filter_eq_nil_iff.mpr fun other inside equal => fresh ?_
        rw [keys_ofNodes, List.mem_eraseDups]
        exact List.mem_map.mpr ⟨other, inside, eq_of_beq equal⟩
      show [node] = _
      rw [show FieldGroup.key { first := node } = node.responseKey from rfl, none,
        List.filter_cons_of_pos (by simp)]
      rfl

/-- The field selections under a response key. -/
def nodesUnder (responseKey : String) : List FieldGroup → List FieldNode
  | [] => []
  | group :: rest => if group.key = responseKey then group.nodes else nodesUnder responseKey rest

/-- The groups that are there stay in place, and so do the field selections in each; what is added
comes after them. -/
inductive Grow : List FieldGroup → List FieldGroup → Prop
  | nil (added : List FieldGroup) : Grow [] added
  | cons (group : FieldGroup) (more : List FieldNode) {groups later : List FieldGroup}
      (rest : Grow groups later) :
      Grow (group :: groups) ({ group with others := group.others ++ more } :: later)

theorem Grow.keep (group : FieldGroup) (rest : Grow groups later) :
    Grow (group :: groups) (group :: later) := by
  have grown := Grow.cons group [] rest
  rwa [List.append_nil] at grown

theorem Grow.refl (groups : List FieldGroup) : Grow groups groups := by
  induction groups with
  | nil => exact .nil []
  | cons group groups ih => exact .keep group ih

theorem Grow.trans {middle : List FieldGroup} (first : Grow groups middle)
    (second : Grow middle later) : Grow groups later := by
  induction first generalizing later with
  | nil added => exact .nil later
  | cons group more _ ih =>
    cases second with
    | cons _ further rest =>
      rw [List.append_assoc]
      exact .cons group (more ++ further) (ih rest)

theorem grow_put (node : FieldNode) (groups : List FieldGroup) : Grow groups (put node groups) := by
  induction groups with
  | nil => exact .nil _
  | cons group rest ih =>
    unfold put
    split
    · exact .cons group [node] (.refl rest)
    · exact .keep group ih

theorem grow_foldl_put (nodes : List FieldNode) (groups : List FieldGroup) :
    Grow groups (nodes.foldl (fun groups node => put node groups) groups) := by
  induction nodes generalizing groups with
  | nil => exact .refl groups
  | cons node nodes ih => exact (grow_put node groups).trans (ih _)

theorem nodesUnder_put (responseKey : String) :
    nodesUnder responseKey (put node groups) =
      nodesUnder responseKey groups ++ [node].filter (·.responseKey == responseKey) := by
  induction groups with
  | nil =>
    by_cases here : node.responseKey = responseKey <;> simp [put, nodesUnder, key, nodes, here]
  | cons group rest ih =>
    unfold put
    split
    · next goes =>
      rw [nodesUnder, nodesUnder]
      show (if group.key = responseKey then group.nodes ++ [node] else _) = _
      split
      · next here => rw [List.filter_cons_of_pos (by simp [← goes, here]), List.filter_nil]
      · next other =>
        rw [List.filter_cons_of_neg (by simp [← goes, other]), List.filter_nil, List.append_nil]
    · next other =>
      rw [nodesUnder, nodesUnder]
      split
      · next here =>
        rw [List.filter_cons_of_neg (by simp [Ne.symm (here ▸ other)]), List.filter_nil,
          List.append_nil]
      · exact ih

theorem nodesUnder_foldl_put (responseKey : String) (nodes : List FieldNode)
    (groups : List FieldGroup) :
    nodesUnder responseKey (nodes.foldl (fun groups node => put node groups) groups) =
      nodesUnder responseKey groups ++ nodes.filter (·.responseKey == responseKey) := by
  induction nodes generalizing groups with
  | nil => exact (List.append_nil _).symm
  | cons node nodes ih =>
    rw [List.foldl_cons, ih, nodesUnder_put, List.append_assoc, ← List.filter_append,
      List.singleton_append]

/-- Two groups begin with related field selections, and the selections of the one are related to
those of the other but for repetitions. -/
structure Resembles (related : FieldNode → FieldNode → Prop) (group other : FieldGroup) :
    Prop where
  first : related group.first other.first
  nodes : MatchFirsts related group.nodes other.nodes

theorem Resembles.mono {related weaker : FieldNode → FieldNode → Prop} {group other : FieldGroup}
    (resembles : group.Resembles related other)
    (implies : ∀ node other, related node other → weaker node other) :
    group.Resembles weaker other :=
  ⟨implies _ _ resembles.first, resembles.nodes.mono implies⟩

/-- Lists with the same keys are related if their items under each key are. -/
theorem forall₂_of_map_eq {γ : Type} {key : α → γ} {otherKey : β → γ} {related : α → β → Prop}
    {xs : List α} {ys : List β} (same : xs.map key = ys.map otherKey)
    (held : ∀ x ∈ xs, ∀ y ∈ ys, key x = otherKey y → related x y) : List.Forall₂ related xs ys := by
  induction xs generalizing ys with
  | nil =>
    cases ys with
    | nil => exact .nil
    | cons y ys => cases same
  | cons x xs ih =>
    cases ys with
    | nil => cases same
    | cons y ys =>
      obtain ⟨here, later⟩ := List.cons.inj same
      refine .cons (held x List.mem_cons_self y List.mem_cons_self here) (ih later ?_)
      intro x' among y' there
      exact held x' (List.mem_cons_of_mem _ among) y' (List.mem_cons_of_mem _ there)

theorem forall₂_filter {related : α → β → Prop} {accepts : α → Bool} {admits : β → Bool}
    (agree : ∀ x y, related x y → accepts x = admits y) {xs : List α} {ys : List β}
    (held : List.Forall₂ related xs ys) :
    List.Forall₂ related (xs.filter accepts) (ys.filter admits) := by
  induction held with
  | nil => exact .nil
  | @cons x y xs ys first _ ih =>
    rw [List.filter_cons, List.filter_cons, agree x y first]
    split
    · exact .cons first ih
    · exact ih

/-- Field selections that are related but for repetitions form groups that resemble each other. -/
theorem ofNodes_resemble {related : FieldNode → FieldNode → Prop}
    (keyed : ∀ node other, related node other → node.responseKey = other.responseKey)
    {nodes others : List FieldNode} (matched : MatchFirsts related nodes others) :
    List.Forall₂ (Resembles related) (ofNodes nodes) (ofNodes others) := by
  obtain ⟨all, likewise, same, held, sameToo⟩ := matched
  have keys : all.map FieldNode.responseKey = likewise.map FieldNode.responseKey :=
    List.forall₂_eq_eq_eq ▸ List.forall₂_map_left_iff.mpr
      (List.forall₂_map_right_iff.mpr (held.imp keyed))
  have matched : (ofNodes nodes).map key = (ofNodes others).map key := by
    rw [keys_ofNodes, keys_ofNodes, (same.map _).eraseDups_eq, (sameToo.map _).eraseDups_eq, keys]
  refine forall₂_of_map_eq matched fun group among other there sameKey => ?_
  have parts : MatchFirsts related group.nodes other.nodes := by
    rw [nodes_of_mem_ofNodes among, nodes_of_mem_ofNodes there, sameKey]
    exact ⟨_, _, same.filter _, forall₂_filter (fun x y held => by rw [keyed x y held]) held,
      sameToo.filter _⟩
  exact ⟨parts.head, parts⟩

end FieldGroup

end GraphQL
