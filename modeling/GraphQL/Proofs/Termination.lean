import GraphQL.Proofs.Depth
import GraphQL.Proofs.Variables
import GraphQL.Proofs.Verdicts
import Mathlib.Algebra.GroupWithZero.Nat
import Mathlib.Algebra.Order.BigOperators.Group.List
import Mathlib.Algebra.Order.Group.Nat
import Mathlib.Order.Lattice.Nat

/-!
# Termination of coercion

A literal shrinks as its parts are coerced, but a member that is left out starts anew with its
default. So coercion comes to an end for all input where no default leads back to itself, and a
deeper coercion gives nothing else. Where a default does lead back, coercion need not end.
-/

namespace GraphQL

namespace Value

mutual

/-- How many lists, tuples, mappings and variables a value is made of, where variables count for
what is `known` of them besides. -/
def weight (known : String → Nat) : Value → Nat
  | list items => itemsWeight known items + 1
  | tuple items => itemsWeight known items + 1
  | map entries => entriesWeight known entries + 1
  | var name => known name + 1
  | _ => 0

/-- The weight of all items together. -/
def itemsWeight (known : String → Nat) : List Value → Nat
  | [] => 0
  | item :: rest => weight known item + itemsWeight known rest

/-- The weight of all entries together. -/
def entriesWeight (known : String → Nat) : List (String × Value) → Nat
  | [] => 0
  | entry :: rest => weight known entry.2 + entriesWeight known rest

end

variable {known : String → Nat}

theorem itemsWeight_eq (items : List Value) :
    itemsWeight known items = (items.map (weight known)).sum := by
  induction items with
  | nil => rfl
  | cons item rest ih => rw [itemsWeight, List.map_cons, List.sum_cons, ih]

theorem entriesWeight_eq (entries : Entries Value) :
    entriesWeight known entries = (entries.map fun entry => entry.2.weight known).sum := by
  induction entries with
  | nil => rfl
  | cons entry rest ih => rw [entriesWeight, List.map_cons, List.sum_cons, ih]

theorem weight_entry_lt {entries : Entries Value} {entry : String × Value}
    (among : entry ∈ entries) : entry.2.weight known < (map entries).weight known := by
  have counted : entry.2.weight known ∈ entries.map fun entry => entry.2.weight known :=
    List.mem_map.mpr ⟨entry, among, rfl⟩
  have one := List.le_sum_of_mem counted
  rw [weight, entriesWeight_eq]
  omega

/-- Items weigh no more than what they are given by. -/
theorem weight_item_le {value part : Value} (among : part ∈ CoercionContext.items value) :
    part.weight known ≤ value.weight known := by
  have inside : ∀ items : List Value, part ∈ items →
      part.weight known ≤ itemsWeight known items + 1 := by
    intro items among
    have counted : part.weight known ∈ items.map (weight known) :=
      List.mem_map.mpr ⟨part, among, rfl⟩
    have one := List.le_sum_of_mem counted
    rw [itemsWeight_eq]
    omega
  unfold CoercionContext.items at among
  split at among
  · exact inside _ among
  · exact inside _ among
  · rw [List.mem_singleton.mp among]

/-- What is known of variables does not count in a closed value. -/
theorem weight_of_isClosed {value : Value} (closed : value.isClosed = true)
    (known other : String → Nat) : value.weight known = value.weight other := by
  induction value using parts_induction with
  | list items ih =>
    rw [isClosed_list] at closed
    have same := List.map_congr_left fun item among => ih item among (closed item among)
    simp only [weight, itemsWeight_eq, same]
  | tuple items ih =>
    rw [isClosed_tuple] at closed
    have same := List.map_congr_left fun item among => ih item among (closed item among)
    simp only [weight, itemsWeight_eq, same]
  | map entries ih =>
    rw [isClosed_map] at closed
    have same := List.map_congr_left fun entry among => ih entry among (closed entry among)
    simp only [weight, entriesWeight_eq, same]
  | simple value simple =>
    cases value with
    | var name => cases closed
    | list _ | tuple _ | map _ => cases simple
    | _ => rfl

theorem weight_mapFaults (change : Fault → Fault) (value : Value) :
    (value.mapFaults change).weight known = value.weight known := by
  induction value using parts_induction with
  | list items ih =>
    have same := List.map_congr_left ih
    simp only [mapFaults, mapFaultsItems_eq, weight, itemsWeight_eq, List.map_map]
    exact congrArg (·.sum + 1) same
  | tuple items ih =>
    have same := List.map_congr_left ih
    simp only [mapFaults, mapFaultsItems_eq, weight, itemsWeight_eq, List.map_map]
    exact congrArg (·.sum + 1) same
  | map entries ih =>
    have same := List.map_congr_left ih
    simp only [mapFaults, mapFaultsEntries_eq, weight, entriesWeight_eq, List.map_map]
    exact congrArg (·.sum + 1) same
  | simple value simple =>
    cases value with
    | list _ | tuple _ | map _ => cases simple
    | _ => rfl

end Value

namespace CoercionContext

open Coercion (Avoids)

variable {context : CoercionContext} {ref other : TypeRef} {raw part : Value} {field : Argument}

/-- A raw value is looked into: it was supplied, and it is neither null nor refused as null. -/
structure Opens (context : CoercionContext) (ref : TypeRef) (raw : Value) : Prop where
  supplied : context.isUnsupplied raw = false
  given : context.substitute raw ≠ .null
  admitted : ref.isNonNull = true → (context.substitute raw).isNull = false

/-- Coercing a raw value asks for the coercion of a part: an item of a list, or a supplied field of
an input object. -/
inductive Asks (context : CoercionContext) : TypeRef → Value → TypeRef → Value → Prop where
  | item {item : TypeRef} {nonNull : Bool} {raw part : Value} :
      context.Opens (.list item nonNull) raw → part ∈ items (context.substitute raw) →
      Asks context (.list item nonNull) raw item part
  | field {name : String} {nonNull : Bool} {raw : Value} {type : InputType}
      {entries : Entries Value} {field : Argument} :
      context.registry.type? name = some (.input type) →
      context.settle (context.substitute raw) = .map entries → field ∈ type.fields →
      (context.rawField entries field).isUndefined = false →
      Asks context (.named name nonNull) raw field.type (context.rawField entries field)

/-- A raw value leaves a field of an input object to its default. -/
inductive Omits (context : CoercionContext) : TypeRef → Value → Argument → Prop where
  | field {name : String} {nonNull : Bool} {raw : Value} {type : InputType}
      {entries : Entries Value} {field : Argument} :
      context.registry.type? name = some (.input type) →
      context.settle (context.substitute raw) = .map entries → field ∈ type.fields →
      field.hasDefault = true → (context.rawField entries field).isUndefined = true →
      Omits context (.named name nonNull) raw field

/-- A raw value leaves a field to its default, itself or somewhere inside. -/
inductive Fills (context : CoercionContext) : TypeRef → Value → Argument → Prop where
  | here {ref : TypeRef} {raw : Value} {field : Argument} :
      context.Omits ref raw field → Fills context ref raw field
  | inside {ref other : TypeRef} {raw part : Value} {field : Argument} :
      context.Asks ref raw other part → Fills context other part field → Fills context ref raw field

/-- No default leads back to itself: defaults have ranks, and what is filled in for a field inside a
default is of a lower rank. -/
def DefaultsAcyclic (context : CoercionContext) : Prop :=
  ∃ rank : Argument → Nat, ∀ name type, context.registry.type? name = some (.input type) →
    ∀ field ∈ type.fields, field.hasDefault = true →
    ∀ other, context.Fills field.type field.default other → rank other < rank field

/-- A coercion comes to an end: from some depth on, the bound on the depth is not met. -/
def Halts (context : CoercionContext) (ref : TypeRef) (raw : Value) : Prop :=
  ∃ bound, ∀ depth, bound ≤ depth → ∀ path, Avoids .tooDeep (context.coerce depth ref raw path)

/-- A field that is filled in belongs to a registered type. -/
theorem Fills.declared (fills : context.Fills ref raw field) :
    ∃ name type, context.registry.type? name = some (.input type) ∧ field ∈ type.fields ∧
      field.hasDefault = true := by
  induction fills with
  | here omits =>
    obtain ⟨found, _, among, has, _⟩ := omits
    exact ⟨_, _, found, among, has⟩
  | inside _ _ ih => exact ih

section Leaves

/-- A reference to anything but an input object. -/
def IsLeaf (context : CoercionContext) (ref : TypeRef) : Prop :=
  ∃ name nonNull, ref = .named name nonNull ∧
    ∀ type, context.registry.type? name ≠ some (.input type)

/-- Nothing is asked for at a leaf. -/
theorem IsLeaf.avoids (leaf : context.IsLeaf ref) (depth : Nat) (raw : Value) (path : Path) :
    Avoids .tooDeep (context.coerce (depth + 1) ref raw path) := by
  obtain ⟨name, nonNull, rfl, simple⟩ := leaf
  apply avoids_coerceWith spares_tooDeep
  intro shown _
  apply avoids_coerceNullable
  intro _ _
  apply avoids_parseNamed spares_tooDeep
  · intro same
    cases same
  · intro type _ found
    exact absurd found (simple type)

variable {recur : TypeRef → Value → Path → Coercion Value} {path : Path}

theorem isLeaf_of_coerceNullable (supplied : context.isUnsupplied raw = false)
    (coerced : (context.coerceNullable recur ref raw path).outcome = .ok .undefined) :
    context.IsLeaf ref := by
  unfold coerceNullable at coerced
  rw [supplied, if_neg Bool.false_ne_true] at coerced
  split at coerced
  · cases coerced
  · obtain ⟨items, _, same⟩ := Coercion.exists_of_outcome_map coerced
    cases same
  · next name nonNull _ =>
    refine ⟨name, nonNull, rfl, fun type found => ?_⟩
    unfold parseNamed at coerced
    rw [found] at coerced
    dsimp only at coerced
    unfold parseObject at coerced
    split at coerced
    · obtain ⟨parts, _, same⟩ := Coercion.exists_of_outcome_bind coerced
      cases same
    · cases coerced

/-- Nothing comes of supplied input at a leaf only. -/
theorem isLeaf_of_coerceWith (closed : context.HasClosedVariables)
    (supplied : context.isUnsupplied raw = false)
    (coerced : (context.coerceWith recur ref raw path).outcome = .ok .undefined) :
    context.IsLeaf ref := by
  have required : ∀ shown, context.isUnsupplied shown = false →
      (coerceWith.required context recur ref path shown).outcome = .ok .undefined →
      context.IsLeaf ref := by
    intro shown given coerced
    unfold coerceWith.required at coerced
    split at coerced
    · cases coerced
    · exact isLeaf_of_coerceNullable given coerced
  unfold coerceWith at coerced
  split at coerced
  · split at coerced
    · split at coerced
      · cases coerced
      · exact required _ (closed.isUnsupplied_substitute _) coerced
    · exact required _ supplied coerced
  · exact isLeaf_of_coerceNullable supplied coerced

end Leaves

/-- Finitely many things that hold from some number on hold together from some number on. -/
theorem exists_bound {α : Type} {Holds : Nat → α → Prop} {things : List α}
    (each : ∀ thing ∈ things, ∃ bound, ∀ number, bound ≤ number → Holds number thing) :
    ∃ bound, ∀ number, bound ≤ number → ∀ thing ∈ things, Holds number thing := by
  induction things with
  | nil => exact ⟨0, fun _ _ _ among => absurd among List.not_mem_nil⟩
  | cons first rest ih =>
    obtain ⟨one, held⟩ := each first List.mem_cons_self
    obtain ⟨more, others⟩ := ih fun thing among => each thing (List.mem_cons_of_mem _ among)
    refine ⟨max one more, fun number above => List.forall_mem_cons.mpr ⟨?_, ?_⟩⟩
    · exact held number (Nat.le_trans (Nat.le_max_left _ _) above)
    · exact others number (Nat.le_trans (Nat.le_max_right _ _) above)

section Closed

variable (closed : context.HasClosedVariables)

include closed

omit closed in
/-- A raw value that stands for a mapping is looked into. -/
theorem opens_of_map (settles : context.Settles) {entries : Entries Value}
    (shown : context.settle (context.substitute raw) = .map entries) : context.Opens ref raw := by
  obtain ⟨own, same, _⟩ := settles.eq_map_iff.mp shown
  refine ⟨?_, ?_, fun _ => ?_⟩
  · by_contra supplied
    rw [substitute_of_isUnsupplied (eq_true_of_ne_false supplied)] at same
    cases same
  · rw [same]
    exact nofun
  · rw [same]
    rfl

/-- What a raw value that is looked into stands for is coerced without further ado. -/
theorem coerceWith_of_opens {recur : TypeRef → Value → Path → Coercion Value} {path : Path}
    (opens : context.Opens ref raw) :
    context.coerceWith recur ref raw path =
      context.coerceInside recur ref (context.substitute raw) path := by
  have inside : ∀ shown, context.isUnsupplied shown = false →
      context.substitute shown = context.substitute raw →
      context.coerceNullable recur ref shown path =
        context.coerceInside recur ref (context.substitute raw) path := by
    intro shown supplied same
    rw [← same]
    apply coerceNullable_of_supplied supplied
    rw [same]
    exact opens.given
  unfold coerceWith
  split
  · next excluded =>
    have something := opens.admitted excluded
    split
    · next name =>
      rw [if_neg (by simp [opens.supplied]), coerceWith.required, if_neg (by simp [something])]
      exact inside _ (closed.isUnsupplied_substitute _) (closed.substitute_substitute _)
    · next constant =>
      have same : context.substitute raw = raw := by
        unfold substitute
        split
        · exact absurd rfl (constant _)
        · rfl
      rw [same] at something
      rw [coerceWith.required, if_neg (by simp [something])]
      exact inside raw opens.supplied rfl
  · exact inside raw opens.supplied rfl

/-- One level of a coercion stops for a reason only if what it looks into does. -/
theorem avoids_coerce_succ {why : CoercionStop} (spares : context.Spares why) {depth : Nat}
    {path : Path} (inside : context.Opens ref raw →
      Avoids why (context.coerceInside (context.coerce depth) ref (context.substitute raw) path)) :
    Avoids why (context.coerce (depth + 1) ref raw path) := by
  by_cases opens : context.Opens ref raw
  · rw [coerce, coerceWith_of_opens closed opens]
    exact inside opens
  · apply avoids_coerceWith spares
    rintro shown (admitted | ⟨supplied, something⟩)
    · apply avoids_coerceNullable
      intro supplied given
      refine absurd ⟨supplied, given, fun excluded => ?_⟩ opens
      obtain ⟨constant, something⟩ := admitted excluded
      unfold substitute
      split
      · exact absurd rfl (constant _)
      · exact something
    · apply avoids_coerceNullable
      intro _ given
      rw [closed.substitute_substitute] at given
      exact absurd ⟨supplied, given, fun _ => something⟩ opens

theorem halts_list {item : TypeRef} {nonNull : Bool}
    (parts : context.Opens (.list item nonNull) raw →
      ∀ part ∈ items (context.substitute raw), context.Halts item part) :
    context.Halts (.list item nonNull) raw := by
  by_cases opens : context.Opens (.list item nonNull) raw
  · obtain ⟨bound, avoids⟩ := exists_bound (parts opens)
    refine ⟨bound + 1, fun depth above path => ?_⟩
    obtain ⟨less, rfl⟩ := Nat.exists_eq_add_of_le' (Nat.le_of_add_left_le above)
    have spares : context.Spares .tooDeep := spares_tooDeep
    apply avoids_coerce_succ closed spares
    intro _
    have each := avoids_itemParts path (avoids less (by omega))
    exact .map _ (Avoids.gather spares.sudden each path)
  · refine ⟨1, fun depth above path => ?_⟩
    obtain ⟨less, rfl⟩ := Nat.exists_eq_add_of_le' above
    apply avoids_coerce_succ closed spares_tooDeep
    intro opened
    exact absurd opened opens

/-- The coercion of a field of an input object comes to an end with those of its raw value and of
its default. -/
theorem exists_bound_field {entries : Entries Value}
    (parts : (context.rawField entries field).isUndefined = false →
      context.Halts field.type (context.rawField entries field))
    (default : field.hasDefault = true → (context.rawField entries field).isUndefined = true →
      context.Halts field.type field.default) :
    ∃ bound, ∀ depth, bound ≤ depth → ∀ path,
      MemberAvoids (context.coerce depth) .tooDeep field (context.rawField entries field) path := by
  cases omitted : (context.rawField entries field).isUndefined with
  | true =>
    by_cases has : field.hasDefault = true
    · obtain ⟨bound, avoids⟩ := default has omitted
      refine ⟨bound, fun depth above path => ⟨fun given => ?_, fun _ _ => avoids depth above path⟩⟩
      rw [omitted] at given
      cases given
    · refine ⟨0, fun depth _ path => ⟨fun given => ?_, fun there => absurd there has⟩⟩
      rw [omitted] at given
      cases given
  | false =>
    obtain ⟨bound, avoids⟩ := parts omitted
    refine ⟨bound + 1, fun depth above path => ⟨fun _ => avoids depth (by omega) path, ?_⟩⟩
    obtain ⟨less, rfl⟩ := Nat.exists_eq_add_of_le' (Nat.le_of_add_left_le above)
    rintro _ (nothing | coerced)
    · rw [omitted] at nothing
      cases nothing
    · exact (isLeaf_of_coerceWith closed (isUnsupplied_rawField entries field) coerced).avoids _ _ _

theorem halts_named {name : String} {nonNull : Bool} (bound : Nat)
    (avoids : ∀ depth, bound ≤ depth → ∀ type entries,
      context.registry.type? name = some (.input type) →
      context.settle (context.substitute raw) = .map entries → ∀ field ∈ type.fields, ∀ path,
      MemberAvoids (context.coerce depth) .tooDeep field (context.rawField entries field) path) :
    context.Halts (.named name nonNull) raw := by
  refine ⟨bound + 1, fun depth above path => ?_⟩
  obtain ⟨less, rfl⟩ := Nat.exists_eq_add_of_le' (Nat.le_of_add_left_le above)
  apply avoids_coerce_succ closed spares_tooDeep
  intro _
  apply avoids_parseNamed spares_tooDeep
  · intro unknown
    cases unknown
  · exact avoids less (by omega)

/-- A coercion comes to an end if those do that it asks for and those of the defaults that it fills
in. -/
theorem halts_of_parts
    (parts : ∀ other part, context.Asks ref raw other part → context.Halts other part)
    (defaults : ∀ field, context.Omits ref raw field → context.Halts field.type field.default) :
    context.Halts ref raw := by
  cases ref with
  | list item nonNull =>
    exact halts_list closed fun opens part among => parts item part (.item opens among)
  | named name nonNull =>
    by_cases object : ∃ type entries, context.registry.type? name = some (.input type) ∧
        context.settle (context.substitute raw) = .map entries
    · obtain ⟨type, entries, found, shown⟩ := object
      obtain ⟨bound, avoids⟩ := exists_bound fun field among =>
        exists_bound_field closed (fun given => parts _ _ (.field found shown among given))
          (fun has omitted => defaults _ (.field found shown among has omitted))
      apply halts_named closed bound
      intro depth above type' entries' found' shown' field among path
      rw [found] at found'
      rw [shown] at shown'
      cases found'
      cases shown'
      exact avoids depth above field among path
    · apply halts_named closed 0
      intro _ _ type entries found shown
      exact absurd ⟨type, entries, found, shown⟩ object

variable (settles : context.Settles)

/-- How much of a raw value there is to coerce, with the values of the variables in it. -/
def rawWeight (context : CoercionContext) (raw : Value) : Nat :=
  raw.weight fun name => (context.substitute (.var name)).weight fun _ => 0

theorem rawWeight_substitute_le (raw : Value) :
    context.rawWeight (context.substitute raw) ≤ context.rawWeight raw := by
  cases constant : raw.isVariable with
  | false => rw [substitute_of_not_isVariable constant]
  | true =>
    cases raw with
    | var name =>
      have same := Value.weight_of_isClosed (closed.substitute_var name)
        (fun name => (context.substitute (.var name)).weight fun _ => 0) fun _ => 0
      rw [rawWeight, rawWeight, same, Value.weight]
      omega
    | _ => cases constant

include settles

/-- A part of a raw value is less of it, or as much at a reference with fewer lists in it. -/
theorem Asks.decreases (asks : context.Asks ref raw other part) :
    Prod.Lex (· < ·) (· < ·) (context.rawWeight part, other.depth)
      (context.rawWeight raw, ref.depth) := by
  have looked := rawWeight_substitute_le closed raw
  cases asks with
  | item _ among =>
    have inside : context.rawWeight part ≤ context.rawWeight (context.substitute raw) :=
      Value.weight_item_le among
    apply Prod.Lex.right'
    · omega
    · exact Nat.lt_succ_self _
  | @field _ _ _ _ entries field _ shown _ given =>
    apply Prod.Lex.left
    obtain ⟨entry, among, same⟩ := mem_of_rawField given
    have inside : context.rawWeight entry.2 < context.rawWeight (.map entries) :=
      Value.weight_entry_lt among
    have still : context.rawWeight (.map entries) =
        context.rawWeight (context.substitute raw) := by
      obtain ⟨change, _, shows⟩ := settles
      rw [← shown, shows]
      exact Value.weight_mapFaults change _
    rw [same, still] at inside
    omega

/-- A coercion comes to an end if those of the defaults do that are filled in anywhere inside. -/
theorem halts_of_fills (ref : TypeRef) (raw : Value)
    (defaults : ∀ field, context.Fills ref raw field → context.Halts field.type field.default) :
    context.Halts ref raw := by
  have ordered : WellFounded fun less more : Value × TypeRef => Prod.Lex (· < ·) (· < ·)
      (context.rawWeight less.1, less.2.depth) (context.rawWeight more.1, more.2.depth) :=
    InvImage.wf (fun input : Value × TypeRef => (context.rawWeight input.1, input.2.depth))
      (Prod.lex Nat.lt_wfRel Nat.lt_wfRel).wf
  induction input : (raw, ref) using ordered.induction generalizing raw ref with
  | h _ ih =>
    subst input
    apply halts_of_parts closed
    · intro other part asks
      have smaller := asks.decreases closed settles
      exact ih (part, other) smaller other part
        (fun field fills => defaults field (.inside asks fills)) rfl
    · intro field omits
      exact defaults field (.here omits)

variable (acyclic : context.DefaultsAcyclic)

include acyclic

/-- Where no default leads back to itself, every coercion comes to an end. -/
theorem halts (ref : TypeRef) (raw : Value) : context.Halts ref raw := by
  obtain ⟨rank, descends⟩ := acyclic
  have defaults : ∀ bound field, rank field < bound →
      (∃ name type, context.registry.type? name = some (.input type) ∧ field ∈ type.fields ∧
        field.hasDefault = true) → context.Halts field.type field.default := by
    intro bound
    induction bound with
    | zero => exact fun _ below => absurd below (Nat.not_lt_zero _)
    | succ bound ih =>
      rintro field below ⟨name, type, found, among, has⟩
      apply halts_of_fills closed settles
      intro other fills
      have lower := descends name type found field among has other fills
      exact ih other (by omega) fills.declared
  apply halts_of_fills closed settles
  intro field fills
  exact defaults _ field (Nat.lt_succ_self _) fills.declared

end Closed

section Converse

variable (accepted : context.registry.Accepted) (closed : context.HasClosedVariables)
  (settles : context.Settles) (uninterrupted : ∀ fault, context.Spares (.interrupted fault))

/-- A coercion that stops at once stops for the bound on its depth. -/
def OnlyTooDeep {α : Type} (part : Coercion α) : Prop :=
  ∀ why, (∀ failure, .failed failure ≠ why) → why ≠ .tooDeep → Avoids why part

/-- Parts that are gathered meet the bound if one of them does. -/
theorem avoids_of_gather {α : Type} {parts : List (Coercion α)} {path : Path}
    (only : ∀ part ∈ parts, OnlyTooDeep part)
    (avoids : Avoids .tooDeep (Coercion.gather path parts)) :
    ∀ part ∈ parts, Avoids .tooDeep part := by
  intro part among stopped
  apply avoids
  rw [← Coercion.verdict_eq_fatal_iff rfl, Coercion.verdict_gather]
  apply Coercion.joined_eq_fatal_of_mem
  · rw [← (Coercion.verdict_eq_fatal_iff rfl).mpr stopped]
    exact List.mem_map_of_mem among
  · intro why fatal
    obtain ⟨other, member, same⟩ := List.mem_map.mp fatal
    obtain ⟨ended, sudden⟩ := Coercion.outcome_of_verdict same
    by_contra differs
    exact only other member why sudden differs ended

include accepted uninterrupted

theorem onlyTooDeep_coerce (depth : Nat) (leads : context.Leads ref) (raw : Value) (path : Path) :
    OnlyTooDeep (context.coerce depth ref raw path) := by
  intro why sudden shallow
  cases why with
  | failed failure => exact absurd rfl (sudden failure)
  | unknownType name => exact knowsTypes_coerce accepted depth leads raw path name
  | interrupted fault =>
    exact avoids_coerce accepted (uninterrupted fault) shallow depth leads raw path
  | tooDeep => exact absurd rfl shallow

omit uninterrupted in
theorem leads_field {name : String} {type : InputType}
    (found : context.registry.type? name = some (.input type)) (among : field ∈ type.fields) :
    context.Leads field.type := by
  have refers : ⟨.inputField field.name, field.type⟩ ∈ (TypeDefinition.input type).references :=
    List.mem_map.mpr ⟨field, among, rfl⟩
  exact accepted.closed (mem_of_lookupType? found) refers

/-- The fields of an input object do not meet the bound if the object does not. -/
theorem avoids_of_parseNamed {name : String} {type : InputType} {entries : Entries Value}
    {depth : Nat} {path : Path} (found : context.registry.type? name = some (.input type))
    (shown : context.settle raw = .map entries)
    (avoids : Avoids .tooDeep (context.parseNamed (context.coerce depth) name raw path)) :
    ∀ field ∈ type.fields,
      Avoids .tooDeep (context.fieldPart (context.coerce depth) type entries path field) := by
  intro field among
  unfold parseNamed at avoids
  rw [found, shown] at avoids
  have gathered := avoids.of_bind
  refine avoids_of_gather ?_ gathered _
    (List.mem_append_left _ (List.mem_map.mpr ⟨field, among, rfl⟩))
  intro part given why sudden shallow
  have spares : context.Spares why := by
    refine ⟨sudden, fun type raw path => ?_⟩
    cases why with
    | failed failure => exact absurd rfl (sudden failure)
    | unknownType missing => exact (spares_unknownType missing).scalars type raw path
    | interrupted fault => exact (uninterrupted fault).scalars type raw path
    | tooDeep => exact absurd rfl shallow
  refine avoids_objectParts spares path (fun other member path => ?_) part given
  have each := fun raw => onlyTooDeep_coerce accepted uninterrupted depth
    (leads_field accepted found member) raw path why sudden shallow
  exact ⟨fun _ => each _, fun _ _ => each _⟩

include closed settles

/-- What a raw value that is looked into asks for does not meet the bound one level below. -/
theorem avoids_of_asks (leads : context.Leads ref) (asks : context.Asks ref raw other part)
    {depth : Nat} {path : Path}
    (avoids : Avoids .tooDeep (context.coerce (depth + 1) ref raw path)) :
    context.Leads other ∧ ∃ path, Avoids .tooDeep (context.coerce depth other part path) := by
  cases asks with
  | @item item nonNull _ _ opens among =>
    have known : context.Leads other := leads
    refine ⟨known, ?_⟩
    rw [coerce, coerceWith_of_opens closed opens] at avoids
    have gathered : Avoids .tooDeep (Coercion.gather path
      (itemParts (context.coerce depth) other path (items (context.substitute raw)))) :=
      avoids.of_bind
    obtain ⟨index, inside, rfl⟩ := List.getElem_of_mem among
    refine ⟨path ++ [.index index], ?_⟩
    have single := avoids_of_gather ?_ gathered _ (List.mem_mapIdx.mpr ⟨index, inside, rfl⟩)
    · exact single.of_bind
    · intro part given why sudden shallow
      refine avoids_itemParts path (fun value _ path => ?_) part given
      exact onlyTooDeep_coerce accepted uninterrupted depth known value path why sudden shallow
  | @field name nonNull _ type entries field found shown among given =>
    refine ⟨leads_field accepted found among, path ++ [.key field.name], ?_⟩
    rw [coerce, coerceWith_of_opens closed (opens_of_map settles shown)] at avoids
    have single := avoids_of_parseNamed accepted uninterrupted found shown avoids field among
    unfold fieldPart member at single
    rw [given, if_neg Bool.false_ne_true] at single
    exact single.of_bind

/-- Nor does a default that it leaves a field to. -/
theorem avoids_of_omits (omits : context.Omits ref raw field) {depth : Nat} {path : Path}
    (avoids : Avoids .tooDeep (context.coerce (depth + 1) ref raw path)) :
    ∃ path, Avoids .tooDeep (context.coerce depth field.type field.default path) := by
  obtain ⟨found, shown, among, has, omitted⟩ := omits
  rw [coerce, coerceWith_of_opens closed (opens_of_map settles shown)] at avoids
  have single := avoids_of_parseNamed accepted uninterrupted found shown avoids field among
  unfold fieldPart member absent at single
  rw [omitted, if_pos rfl, if_pos has] at single
  exact ⟨_, single.of_bind⟩

/-- The default of a field that is filled in goes less deep than the raw value. -/
theorem exists_shallower (fills : context.Fills ref raw field) (leads : context.Leads ref)
    {depth : Nat} {path : Path} (avoids : Avoids .tooDeep (context.coerce depth ref raw path)) :
    ∃ less, less < depth ∧
      ∃ path, Avoids .tooDeep (context.coerce less field.type field.default path) := by
  induction fills generalizing depth path with
  | here omits =>
    cases depth with
    | zero => exact absurd rfl avoids
    | succ less =>
      exact ⟨less, Nat.lt_succ_self _,
        avoids_of_omits accepted closed settles uninterrupted omits avoids⟩
  | inside asks _ ih =>
    cases depth with
    | zero => exact absurd rfl avoids
    | succ depth =>
      obtain ⟨known, path, avoids⟩ :=
        avoids_of_asks accepted closed settles uninterrupted leads asks avoids
      obtain ⟨less, below, found⟩ := ih known avoids
      exact ⟨less, Nat.lt_succ_of_lt below, found⟩

/-- Where every coercion comes to an end, no default leads back to itself. -/
theorem defaultsAcyclic_of_halts
    (ends : ∀ ref, context.Leads ref → ∀ raw, context.Halts ref raw) : context.DefaultsAcyclic := by
  refine ⟨fun field => sInf {depth | ∃ path,
    Avoids .tooDeep (context.coerce depth field.type field.default path)}, ?_⟩
  intro name type found field among _ other fills
  have leads := leads_field accepted found among
  obtain ⟨bound, avoids⟩ := ends field.type leads field.default
  have least : sInf {depth | ∃ path,
      Avoids .tooDeep (context.coerce depth field.type field.default path)} ∈ {depth | ∃ path,
      Avoids .tooDeep (context.coerce depth field.type field.default path)} :=
    Nat.sInf_mem ⟨bound, [], avoids bound (Nat.le_refl _) []⟩
  obtain ⟨path, shallow⟩ := least
  obtain ⟨less, below, there⟩ :=
    exists_shallower accepted closed settles uninterrupted fills leads shallow
  exact Nat.lt_of_le_of_lt (Nat.sInf_le there) below

end Converse

/-- Where no default leads back to itself, every coercion comes to an end: there is a bound on its
depth that it does not meet, and a greater bound changes nothing. -/
theorem coerce_terminates (settles : context.Settles) (closed : context.HasClosedVariables)
    (acyclic : context.DefaultsAcyclic) (ref : TypeRef) (raw : Value) :
    ∃ bound, ∀ path, (context.coerce bound ref raw path).outcome ≠ .error .tooDeep ∧
      ∀ depth, bound ≤ depth →
        context.coerce depth ref raw path = context.coerce bound ref raw path := by
  obtain ⟨bound, avoids⟩ := halts closed settles acyclic ref raw
  refine ⟨bound, fun path => ?_⟩
  have ended := avoids bound (Nat.le_refl bound) path
  exact ⟨ended, fun depth above => coerce_deeper above ref raw path ended⟩

/-- Only what stands for a mapping leaves fields to their defaults, where there is no list. -/
theorem not_fills_of_not_map {name : String} {nonNull : Bool}
    (simple : ∀ entries, context.settle (context.substitute raw) ≠ .map entries) :
    ¬ context.Fills (.named name nonNull) raw field := by
  intro fills
  cases fills with
  | here omits =>
    obtain ⟨_, shown, _⟩ := omits
    exact simple _ shown
  | inside asks =>
    cases asks with
    | field _ shown => exact simple _ shown

/-- Filters of pages, with pages below them. -/
def filterInput : InputType where
  name := "Filter"
  fields := [
    { name := "any", type := .list (.named "Filter" true) },
    { name := "limit", type := .named "Limit", default := .map [] }]

/-- Limits of pages, with filters below them. -/
def limitInput : InputType where
  name := "Limit"
  fields := [
    { name := "count", type := .named "Int", default := .int 5 },
    { name := "within", type := .named "Filter", default := .map [("limit", .null)] }]

/-- A schema with types that refer to each other, where no default leads back to itself. -/
def pageSchema : Schema where
  query := some (.definition (.object {
    name := "Query"
    fields := [{
      name := "pages"
      type := .named "Int"
      args := [{ name := "filter", type := .named "Filter" true }] }] }))
  types := [.definition (.input filterInput), .definition (.input limitInput)]

/-- Coercion in its registry, where one variable is supplied. -/
def pageContext : CoercionContext where
  registry := pageSchema.tableWithin 100
  convert := fun _ value => .ok value
  variableValues := [("l", .map [("count", .int 2)])]

/-- A filter with filters in it that leave out what they may. -/
def rawFilter : Value :=
  .map [("any", .list [.map [], .map [("limit", .var "l")]])]

example : (pageContext.coerce 8 (.named "Filter" true) rawFilter []).outcome = .ok (.map [
    ("any", .list [
      .map [("limit", .map [("count", .int 5), ("within", .map [("limit", .null)])])],
      .map [("limit", .map [("count", .int 2), ("within", .map [("limit", .null)])])]]),
    ("limit", .map [("count", .int 5), ("within", .map [("limit", .null)])])]) := rfl

theorem input_pageContext {name : String} {type : InputType}
    (found : pageContext.registry.type? name = some (.input type)) :
    type = filterInput ∨ type = limitInput := by
  have inputs : pageContext.registry.inputs = [filterInput, limitInput] := rfl
  have among := Registry.mem_inputs found
  rw [inputs] at among
  exact List.mem_pair.mp among

/-- An empty limit leaves its own fields to their defaults, and nothing else. -/
theorem name_of_fills_limit (fills : pageContext.Fills (.named "Limit") (.map []) field) :
    field.name ≠ "limit" := by
  have limit : pageContext.registry.type? "Limit" = some (.input limitInput) := rfl
  cases fills with
  | here omits =>
    obtain ⟨found, _, among, _⟩ := omits
    rw [limit] at found
    cases found
    simp only [limitInput, List.mem_cons, List.not_mem_nil, or_false] at among
    rcases among with rfl | rfl
    · exact nofun
    · exact nofun
  | inside asks =>
    cases asks with
    | field _ shown _ given =>
      cases shown
      cases given

/-- A filter without a limit leaves nothing to a default. -/
theorem not_fills_filter :
    ¬ pageContext.Fills (.named "Filter") (.map [("limit", .null)]) field := by
  have filter : pageContext.registry.type? "Filter" = some (.input filterInput) := rfl
  intro fills
  cases fills with
  | here omits =>
    obtain ⟨found, shown, among, has, omitted⟩ := omits
    rw [filter] at found
    cases found
    cases shown
    simp only [filterInput, List.mem_cons, List.not_mem_nil, or_false] at among
    rcases among with rfl | rfl
    · cases has
    · cases omitted
  | inside asks fills =>
    cases asks with
    | field found shown among given =>
      rw [filter] at found
      cases found
      cases shown
      simp only [filterInput, List.mem_cons, List.not_mem_nil, or_false] at among
      rcases among with rfl | rfl
      · cases given
      · refine not_fills_of_not_map (fun entries shown => ?_) fills
        cases shown

/-- The default of a limit comes before that of a filter, which comes before that of a count. -/
theorem defaultsAcyclic_pageContext : pageContext.DefaultsAcyclic := by
  refine ⟨fun field =>
    if field.name = "limit" then 2 else if field.name = "within" then 1 else 0, ?_⟩
  intro name type found field among has other fills
  rcases input_pageContext found with rfl | rfl
  · simp only [filterInput, List.mem_cons, List.not_mem_nil, or_false] at among
    rcases among with rfl | rfl
    · cases has
    · have differs := name_of_fills_limit fills
      simp only [differs, ↓reduceIte]
      split <;> omega
  · simp only [limitInput, List.mem_cons, List.not_mem_nil, or_false] at among
    rcases among with rfl | rfl
    · exact absurd fills (not_fills_of_not_map fun _ => nofun)
    · exact absurd fills not_fills_filter

/-- A filter that leaves out most of what it may, also in filters inside, is coerced to the end. -/
theorem coerce_terminates_page :
    pageContext.registry.Accepted ∧
      ∃ bound, ∀ path,
        (pageContext.coerce bound (.named "Filter" true) rawFilter path).outcome ≠
          .error .tooDeep ∧
        ∀ depth, bound ≤ depth → pageContext.coerce depth (.named "Filter" true) rawFilter path =
          pageContext.coerce bound (.named "Filter" true) rawFilter path := by
  have closed : ∀ entry ∈ pageContext.variableValues, entry.2.isClosed = true := by decide
  have settles : pageContext.Settles := settles_of_id rfl
  refine ⟨Schema.accepted_of_soundWithin (by decide +kernel), ?_⟩
  exact coerce_terminates settles closed defaultsAcyclic_pageContext (.named "Filter" true)
    rawFilter

/-- An input object with a field of its own type, for which nothing is filled in as an empty object
of that type. -/
def loopInput : InputType where
  name := "Loop"
  fields := [{ name := "again", type := .named "Loop", default := .map [] }]

/-- A schema whose only default leads back to itself. -/
def loopSchema : Schema where
  query := some (.definition (.object {
    name := "Query"
    fields := [{
      name := "first"
      type := .named "Int"
      args := [{ name := "loop", type := .named "Loop" }] }] }))
  types := [.definition (.input loopInput)]

/-- Coercion in its registry. -/
def loopContext : CoercionContext where
  registry := loopSchema.tableWithin 100
  convert := fun _ value => .ok value

/-- An empty object of that type is never coerced to the end. -/
theorem coerce_never_ends :
    loopContext.registry.Accepted ∧ loopContext.Settles ∧ loopContext.HasClosedVariables ∧
      ∀ depth path,
        (loopContext.coerce depth (.named "Loop") (.map []) path).outcome = .error .tooDeep := by
  refine ⟨Schema.accepted_of_soundWithin (by decide +kernel), settles_of_id rfl, nofun, ?_⟩
  intro depth
  induction depth with
  | zero => exact fun _ => rfl
  | succ depth ih =>
    intro path
    have again := (Coercion.verdict_eq_fatal_iff rfl).mpr (ih (path ++ [.key "again"]))
    have field : (loopInput.fields.map (loopContext.fieldPart (loopContext.coerce depth) loopInput
        [] path)).map Coercion.verdict = [.error (some .tooDeep)] := by
      show [(keyed _ <$> loopContext.coerce depth (.named "Loop") (.map [])
        (path ++ [.key "again"])).verdict] = _
      rw [Coercion.verdict_map, again]
      rfl
    have whole : loopContext.coerce (depth + 1) (.named "Loop") (.map []) path =
        Coercion.gather path (loopInput.fields.map
          (loopContext.fieldPart (loopContext.coerce depth) loopInput [] path)) >>= fun parts =>
            pure (.map (Entries.ofList (parts.filterMap id))) := rfl
    rw [← Coercion.verdict_eq_fatal_iff rfl, whole, Coercion.verdict_bind, Coercion.verdict_gather,
      field]
    rfl

end CoercionContext

end GraphQL
