import GraphQL.Execution.Position
import Mathlib.Data.List.Nodup

/-!
# Null propagation

Which positions of a response are null follows from its failing positions alone: each of them makes
the nearest position null, at it or above it, whose type admits null. Where there is none, the whole
response has no data. That rule looks at one failing position at a time, whereas the data of a
position is computed from the inside out; here both are shown to agree.
-/

namespace GraphQL

namespace Position

/-- Whether null may stand in place of a position that may lose its value. -/
def admitsNull : Position → Bool
  | null => true
  | leaf _ => false
  | failed required _ | list required _ | object required _ => !required

/-- The positions right inside a position, under the steps that lead to them. -/
def parts : Position → List (PathKey × Position)
  | list _ items => items.mapIdx fun index item => (.index index, item)
  | object _ fields => fields.map fun (key, field) => (.key key, field)
  | _ => []

/-- The position right inside a position that a step leads to. -/
def child? (position : Position) (step : PathKey) : Option Position :=
  (position.parts.find? (·.1 == step)).map (·.2)

/-- The position at a path inside a position. -/
def at? (position : Position) : Path → Option Position
  | [] => some position
  | step :: rest => (position.child? step).bind fun child => child.at? rest

mutual

/-- The paths of the positions that failed. -/
def failures : Position → List Path
  | null | leaf _ => []
  | failed .. => [[]]
  | list _ items => itemFailures 0 items
  | object _ fields => fieldFailures fields

/-- The paths of the positions that failed, in the items of a list from an index on. -/
def itemFailures (index : Nat) : List Position → List Path
  | [] => []
  | item :: rest =>
    (failures item).map (PathKey.index index :: ·) ++ itemFailures (index + 1) rest

/-- The paths of the positions that failed, in the fields of an object. -/
def fieldFailures : List (String × Position) → List Path
  | [] => []
  | (key, field) :: rest => (failures field).map (PathKey.key key :: ·) ++ fieldFailures rest

end

/-- The path of the nearest position that admits null, at a path or above it. -/
def nearestNullable? (position : Position) : Path → Option Path
  | [] => if position.admitsNull then some [] else none
  | step :: rest =>
    match (position.child? step).bind fun child => child.nearestNullable? rest with
    | some above => some (step :: above)
    | none => if position.admitsNull then some [] else none

/-- Whether the position at a path is made null by a failing position. -/
def absorbs (position : Position) (path : Path) : Bool :=
  position.failures.any fun failure => position.nearestNullable? failure == some path

/-- Whether some failing position has none at it or above it that admits null. -/
def collapses (position : Position) : Bool :=
  position.failures.any fun failure => position.nearestNullable? failure == none

mutual

/-- The data of a position in which the positions at some paths are replaced by null. -/
def withNulls (nulled : Path → Bool) : Position → Response
  | null | failed .. => .null
  | leaf value => .leaf value
  | list _ items => if nulled [] then .null else .list (itemsWithNulls nulled 0 items)
  | object _ fields => if nulled [] then .null else .object (fieldsWithNulls nulled fields)

/-- The data of the items of a list from an index on. -/
def itemsWithNulls (nulled : Path → Bool) (index : Nat) : List Position → List Response
  | [] => []
  | item :: rest =>
    withNulls (fun path => nulled (.index index :: path)) item ::
      itemsWithNulls nulled (index + 1) rest

/-- The data of the fields of an object. -/
def fieldsWithNulls (nulled : Path → Bool) : List (String × Position) → List (String × Response)
  | [] => []
  | (key, field) :: rest =>
    (key, withNulls (fun path => nulled (.key key :: path)) field) :: fieldsWithNulls nulled rest

end

mutual

/-- Every object inside a position has each key once. -/
def KeysDistinct : Position → Prop
  | null | leaf _ | failed .. => True
  | list _ items => ItemKeysDistinct items
  | object _ fields => (fields.map Prod.fst).Nodup ∧ FieldKeysDistinct fields

/-- Every object inside the items of a list has each key once. -/
def ItemKeysDistinct : List Position → Prop
  | [] => True
  | item :: rest => KeysDistinct item ∧ ItemKeysDistinct rest

/-- Every object inside the fields of an object has each key once. -/
def FieldKeysDistinct : List (String × Position) → Prop
  | [] => True
  | (_, field) :: rest => KeysDistinct field ∧ FieldKeysDistinct rest

end

variable {position child : Position} {required : Bool} {items : List Position}
  {fields : List (String × Position)} {step : PathKey} {path failure : Path}
  {part : PathKey × Position}

/-- The steps into a list are its indices. -/
theorem steps_list (required : Bool) (items : List Position) :
    (list required items).parts.map Prod.fst =
      (List.range items.length).map fun index : Nat => PathKey.index index := by
  show (items.mapIdx fun index item => (PathKey.index index, item)).map Prod.fst = _
  apply List.ext_getElem
  · simp
  · intro index _ _
    simp

/-- The steps into an object are its keys. -/
theorem steps_object (required : Bool) (fields : List (String × Position)) :
    (object required fields).parts.map Prod.fst = (fields.map Prod.fst).map PathKey.key := by
  show (fields.map fun entry => (PathKey.key entry.1, entry.2)).map Prod.fst = _
  rw [List.map_map, List.map_map]
  rfl

/-- No step leads to two positions. -/
theorem nodup_steps (distinct : position.KeysDistinct) : (position.parts.map Prod.fst).Nodup := by
  cases position with
  | null | leaf _ | failed _ _ => exact List.nodup_nil
  | list required items =>
    rw [steps_list]
    refine List.nodup_range.map fun first second same => ?_
    injection same with same
    exact Int.ofNat.inj same
  | object required fields =>
    rw [steps_object]
    exact distinct.1.map fun first second same => PathKey.key.inj same

/-- A step leads to the position that stands under it. -/
theorem child?_of_mem (distinct : position.KeysDistinct) (member : part ∈ position.parts) :
    position.child? part.1 = some part.2 := by
  have nodup := nodup_steps distinct
  unfold child?
  generalize position.parts = parts at member nodup
  induction parts with
  | nil => cases member
  | cons first rest ih =>
    rw [List.map_cons, List.nodup_cons] at nodup
    rcases List.mem_cons.mp member with rfl | member
    · rw [List.find?_cons_of_pos (by simp)]
      rfl
    · have other : first.1 ≠ part.1 := fun same =>
        nodup.1 (same ▸ List.mem_map_of_mem member)
      rw [List.find?_cons_of_neg (by simpa using other)]
      exact ih member nodup.2

/-- The failing positions below a position are those of its parts. -/
def FailsInParts (position : Position) : Prop :=
  position.failures = position.parts.flatMap fun part => part.2.failures.map (part.1 :: ·)

theorem itemFailures_eq (index : Nat) (items : List Position) :
    itemFailures index items =
      (items.mapIdx fun offset item => (PathKey.index (index + offset : Nat), item)).flatMap
        fun part => part.2.failures.map (part.1 :: ·) := by
  induction items generalizing index with
  | nil => rfl
  | cons item rest ih =>
    rw [List.mapIdx_cons, List.flatMap_cons, itemFailures, ih (index + 1)]
    simp only [Nat.add_zero, Nat.add_assoc, Nat.add_comm 1]

theorem failsInParts_list (required : Bool) (items : List Position) :
    (list required items).FailsInParts := by
  unfold FailsInParts
  rw [failures, itemFailures_eq]
  simp only [Nat.zero_add]
  rfl

theorem failsInParts_object (required : Bool) (fields : List (String × Position)) :
    (object required fields).FailsInParts := by
  show fieldFailures fields =
    (fields.map fun entry => (PathKey.key entry.1, entry.2)).flatMap
      fun part => part.2.failures.map (part.1 :: ·)
  induction fields with
  | nil => rfl
  | cons entry rest ih =>
    rw [List.map_cons, List.flatMap_cons, ← ih]
    rfl

theorem collapses_iff :
    position.collapses = true ↔
      ∃ failure ∈ position.failures, position.nearestNullable? failure = none := by
  unfold collapses
  simp only [List.any_eq_true, beq_iff_eq]

theorem absorbs_iff :
    position.absorbs path = true ↔
      ∃ failure ∈ position.failures, position.nearestNullable? failure = some path := by
  unfold absorbs
  simp only [List.any_eq_true, beq_iff_eq]

/-- The nearest position that admits null, from inside a part: there, or around all parts. -/
theorem nearestNullable?_part (distinct : position.KeysDistinct) (member : part ∈ position.parts)
    (path : Path) :
    position.nearestNullable? (part.1 :: path) =
      match part.2.nearestNullable? path with
      | some above => some (part.1 :: above)
      | none => if position.admitsNull then some [] else none := by
  rw [nearestNullable?, child?_of_mem distinct member]
  rfl

theorem mem_failures_iff (inParts : position.FailsInParts) :
    path ∈ position.failures ↔
      ∃ part ∈ position.parts, ∃ failure ∈ part.2.failures, part.1 :: failure = path := by
  rw [inParts, List.mem_flatMap]
  simp only [List.mem_map]

/-- A failing position inside parts that is not absorbed in its part reaches the position around
them, and only that. -/
theorem reaches_parts (distinct : position.KeysDistinct) (inParts : position.FailsInParts)
    {nearest : Option Path} (outside : ∀ step rest, nearest ≠ some (step :: rest)) :
    (∃ failure ∈ position.failures, position.nearestNullable? failure = nearest) ↔
      nearest = (if position.admitsNull then some [] else none) ∧
        ∃ part ∈ position.parts, part.2.collapses = true := by
  constructor
  · rintro ⟨path, failing, rfl⟩
    obtain ⟨part, member, failure, inside, rfl⟩ := (mem_failures_iff inParts).mp failing
    rw [nearestNullable?_part distinct member] at outside ⊢
    cases inner : part.2.nearestNullable? failure with
    | some above =>
      rw [inner] at outside
      exact absurd rfl (outside part.1 above)
    | none => exact ⟨rfl, part, member, collapses_iff.mpr ⟨failure, inside, inner⟩⟩
  · rintro ⟨rfl, part, member, collapsed⟩
    obtain ⟨failure, inside, inner⟩ := collapses_iff.mp collapsed
    refine ⟨part.1 :: failure, (mem_failures_iff inParts).mpr
      ⟨part, member, failure, inside, rfl⟩, ?_⟩
    rw [nearestNullable?_part distinct member, inner]

/-- A position around parts has no data if it excludes null and one of its parts has none. -/
theorem collapses_eq_parts (distinct : position.KeysDistinct) (inParts : position.FailsInParts) :
    position.collapses = (!position.admitsNull && position.parts.any (·.2.collapses)) := by
  rw [Bool.eq_iff_iff, collapses_iff,
    reaches_parts distinct inParts fun step rest => (Option.some_ne_none _).symm]
  cases position.admitsNull with
  | false => simp
  | true => simp

/-- A position around parts is made null if it admits null and one of its parts has no data. -/
theorem absorbs_nil_eq_parts (distinct : position.KeysDistinct)
    (inParts : position.FailsInParts) :
    position.absorbs [] = (position.admitsNull && position.parts.any (·.2.collapses)) := by
  rw [Bool.eq_iff_iff, absorbs_iff, reaches_parts distinct inParts fun step rest => by simp]
  cases position.admitsNull with
  | false => simp
  | true => simp

/-- Some part of a list has no data if some item has none. -/
theorem any_parts_list (required : Bool) (items : List Position) :
    (list required items).parts.any (·.2.collapses) = items.any collapses := by
  rw [Bool.eq_iff_iff, List.any_eq_true, List.any_eq_true]
  constructor
  · rintro ⟨part, member, collapsed⟩
    obtain ⟨index, within, rfl⟩ := List.mem_mapIdx.mp member
    exact ⟨items[index], List.getElem_mem within, collapsed⟩
  · rintro ⟨item, member, collapsed⟩
    obtain ⟨index, within, rfl⟩ := List.getElem_of_mem member
    exact ⟨_, List.mem_mapIdx.mpr ⟨index, within, rfl⟩, collapsed⟩

/-- Some part of an object has no data if some field has none. -/
theorem any_parts_object (required : Bool) (fields : List (String × Position)) :
    (object required fields).parts.any (·.2.collapses) = fields.any (·.2.collapses) := by
  show (fields.map fun entry => (PathKey.key entry.1, entry.2)).any (·.2.collapses) = _
  rw [List.any_map]
  rfl

/-- What is made null inside a part is what the failing positions in it make null. -/
theorem absorbs_cons_parts (distinct : position.KeysDistinct) (inParts : position.FailsInParts)
    (member : part ∈ position.parts) (path : Path) :
    position.absorbs (part.1 :: path) = part.2.absorbs path := by
  rw [Bool.eq_iff_iff, absorbs_iff, absorbs_iff]
  constructor
  · rintro ⟨inner, failing, absorbed⟩
    obtain ⟨other, present, failure, inside, rfl⟩ := (mem_failures_iff inParts).mp failing
    rw [nearestNullable?_part distinct present] at absorbed
    cases nearest : other.2.nearestNullable? failure with
    | some above =>
      rw [nearest] at absorbed
      obtain ⟨step, rfl⟩ := List.cons.inj (Option.some.inj absorbed)
      have same : other.2 = part.2 := by
        have found := child?_of_mem distinct present
        rw [step, child?_of_mem distinct member] at found
        exact (Option.some.inj found).symm
      rw [same] at inside nearest
      exact ⟨failure, inside, nearest⟩
    | none =>
      rw [nearest] at absorbed
      cases admits : position.admitsNull with
      | true =>
        rw [admits] at absorbed
        cases absorbed
      | false =>
        rw [admits] at absorbed
        cases absorbed
  · rintro ⟨failure, inside, nearest⟩
    refine ⟨part.1 :: failure, (mem_failures_iff inParts).mpr
      ⟨part, member, failure, inside, rfl⟩, ?_⟩
    rw [nearestNullable?_part distinct member, nearest]

/-- Items in which the failing positions are made null are shown each on its own. -/
theorem itemsWithNulls_eq {nulled : Path → Bool} {index : Nat}
    (same : ∀ offset item, items[offset]? = some item →
      ∀ path, nulled (.index (index + offset : Nat) :: path) = item.absorbs path) :
    itemsWithNulls nulled index items = items.map fun item => item.withNulls item.absorbs := by
  induction items generalizing index with
  | nil => rfl
  | cons item rest ih =>
    have first : (fun path => nulled (.index index :: path)) = item.absorbs :=
      funext fun path => same 0 item rfl path
    rw [itemsWithNulls, first, ih]
    · rfl
    · intro offset other found path
      rw [Nat.add_assoc, Nat.add_comm 1]
      exact same (offset + 1) other found path

/-- Fields in which the failing positions are made null are shown each on its own. -/
theorem fieldsWithNulls_eq {nulled : Path → Bool}
    (same : ∀ entry ∈ fields, ∀ path, nulled (.key entry.1 :: path) = entry.2.absorbs path) :
    fieldsWithNulls nulled fields =
      fields.map fun entry => (entry.1, entry.2.withNulls entry.2.absorbs) := by
  induction fields with
  | nil => rfl
  | cons entry rest ih =>
    have first : (fun path => nulled (.key entry.1 :: path)) = entry.2.absorbs :=
      funext fun path => same entry List.mem_cons_self path
    rw [fieldsWithNulls, first, ih fun other member => same other (List.mem_cons_of_mem _ member)]
    rfl

mutual

/-- The data of a position is what the rule for failing positions makes of it: nothing where one of
them has no position around it that admits null, otherwise the position with those made null that
are nearest to a failing one. -/
theorem response?_eq (position : Position) (distinct : position.KeysDistinct) :
    position.response? =
      if position.collapses then none else some (position.withNulls position.absorbs) := by
  cases position with
  | null => rfl
  | leaf value => rfl
  | failed required error => cases required <;> rfl
  | list required items =>
    have inParts := failsInParts_list required items
    have shown : itemsWithNulls (list required items).absorbs 0 items =
        items.map fun item => item.withNulls item.absorbs := by
      refine itemsWithNulls_eq fun offset item found path => ?_
      rw [Nat.zero_add]
      obtain ⟨within, rfl⟩ := List.getElem?_eq_some_iff.mp found
      exact absorbs_cons_parts distinct inParts
        (List.mem_mapIdx.mpr ⟨offset, within, rfl⟩) path
    rw [response?, itemResponses?_eq items distinct, withNulls, shown,
      collapses_eq_parts distinct inParts, absorbs_nil_eq_parts distinct inParts, any_parts_list]
    cases items.any collapses with
    | true => cases required <;> rfl
    | false => cases required <;> rfl
  | object required fields =>
    have inParts := failsInParts_object required fields
    have shown : fieldsWithNulls (object required fields).absorbs fields =
        fields.map fun entry => (entry.1, entry.2.withNulls entry.2.absorbs) := by
      refine fieldsWithNulls_eq fun entry member path => ?_
      exact absorbs_cons_parts distinct inParts (List.mem_map.mpr ⟨entry, member, rfl⟩) path
    rw [response?, fieldResponses?_eq fields distinct.2, withNulls, shown,
      collapses_eq_parts distinct inParts, absorbs_nil_eq_parts distinct inParts,
      any_parts_object]
    cases fields.any (·.2.collapses) with
    | true => cases required <;> rfl
    | false => cases required <;> rfl

/-- The data of the items of a list, each on its own. -/
theorem itemResponses?_eq (items : List Position) (distinct : ItemKeysDistinct items) :
    itemResponses? items =
      if items.any collapses then none
      else some (items.map fun item => item.withNulls item.absorbs) := by
  cases items with
  | nil => rfl
  | cons item rest =>
    rw [itemResponses?, response?_eq item distinct.1, itemResponses?_eq rest distinct.2,
      List.any_cons]
    cases item.collapses with
    | true => rfl
    | false =>
      cases rest.any collapses with
      | true => rfl
      | false => rfl

/-- The data of the fields of an object, each on its own. -/
theorem fieldResponses?_eq (fields : List (String × Position))
    (distinct : FieldKeysDistinct fields) :
    fieldResponses? fields =
      if fields.any (·.2.collapses) then none
      else some (fields.map fun entry => (entry.1, entry.2.withNulls entry.2.absorbs)) := by
  cases fields with
  | nil => rfl
  | cons entry rest =>
    obtain ⟨key, field⟩ := entry
    rw [fieldResponses?, response?_eq field distinct.1, fieldResponses?_eq rest distinct.2,
      List.any_cons]
    cases field.collapses with
    | true => rfl
    | false =>
      cases rest.any (·.2.collapses) with
      | true => rfl
      | false => rfl

end

theorem itemKeysDistinct_iff :
    ItemKeysDistinct items ↔ ∀ item ∈ items, item.KeysDistinct := by
  induction items with
  | nil => simp [ItemKeysDistinct]
  | cons item rest ih => rw [ItemKeysDistinct, ih, List.forall_mem_cons]

theorem fieldKeysDistinct_iff :
    FieldKeysDistinct fields ↔ ∀ entry ∈ fields, entry.2.KeysDistinct := by
  induction fields with
  | nil => simp [FieldKeysDistinct]
  | cons entry rest ih => rw [FieldKeysDistinct, ih, List.forall_mem_cons]

/-- The keys of objects inside a part are distinct if those inside the whole are. -/
theorem keysDistinct_of_mem (distinct : position.KeysDistinct) (member : part ∈ position.parts) :
    part.2.KeysDistinct := by
  cases position with
  | null | leaf _ | failed _ _ => cases member
  | list required items =>
    obtain ⟨index, within, rfl⟩ := List.mem_mapIdx.mp member
    exact itemKeysDistinct_iff.mp distinct _ (List.getElem_mem within)
  | object required fields =>
    obtain ⟨entry, present, rfl⟩ := List.mem_map.mp member
    exact fieldKeysDistinct_iff.mp distinct.2 entry present

/-- A position that a step leads to stands under it. -/
theorem mem_of_child? (found : position.child? step = some child) :
    (step, child) ∈ position.parts := by
  obtain ⟨part, present, rfl⟩ := Option.map_eq_some_iff.mp found
  have same : part.1 = step := by simpa using List.find?_some present
  rw [← same]
  exact List.mem_of_find?_eq_some present

/-- The failing positions behind a step are those of the position that it leads to. -/
theorem cons_mem_failures_iff (distinct : position.KeysDistinct) :
    step :: path ∈ position.failures ↔
      ∃ child, position.child? step = some child ∧ path ∈ child.failures := by
  have behind : position.FailsInParts → (step :: path ∈ position.failures ↔
      ∃ child, position.child? step = some child ∧ path ∈ child.failures) := by
    intro inParts
    rw [mem_failures_iff inParts]
    constructor
    · rintro ⟨part, member, failure, inside, same⟩
      obtain ⟨rfl, rfl⟩ := List.cons.inj same
      exact ⟨part.2, child?_of_mem distinct member, inside⟩
    · rintro ⟨child, found, inside⟩
      exact ⟨_, mem_of_child? found, path, inside, rfl⟩
  cases position with
  | null | leaf _ => exact behind rfl
  | failed required error => simp [failures, child?, parts]
  | list required items => exact behind (failsInParts_list required items)
  | object required fields => exact behind (failsInParts_object required fields)

theorem nil_mem_failures_iff :
    [] ∈ position.failures ↔ ∃ required error, position = .failed required error := by
  cases position with
  | null | leaf _ => simp [failures]
  | failed required error => simp [failures]
  | list required items => simp [mem_failures_iff (failsInParts_list required items)]
  | object required fields => simp [mem_failures_iff (failsInParts_object required fields)]

/-- A path is one of a failing position exactly if it leads to one. -/
theorem mem_failures_iff_at? (distinct : position.KeysDistinct) :
    path ∈ position.failures ↔
      ∃ required error, position.at? path = some (.failed required error) := by
  induction path generalizing position with
  | nil =>
    rw [nil_mem_failures_iff, at?]
    simp only [Option.some.injEq]
  | cons step rest ih =>
    rw [cons_mem_failures_iff distinct, at?]
    constructor
    · rintro ⟨child, found, inside⟩
      rw [found]
      exact (ih (keysDistinct_of_mem distinct (mem_of_child? found))).mp inside
    · rintro ⟨required, error, reached⟩
      obtain ⟨child, found, reached⟩ := Option.bind_eq_some_iff.mp reached
      exact ⟨child, found,
        (ih (keysDistinct_of_mem distinct (mem_of_child? found))).mpr ⟨required, error, reached⟩⟩

/-- Null may stand in place of the position at a path, which may lose its value. -/
def NullableAt (position : Position) (path : Path) : Prop :=
  ∃ found, position.at? path = some found ∧ found.admitsNull = true

theorem nullableAt_nil : position.NullableAt [] ↔ position.admitsNull = true := by
  unfold NullableAt at?
  simp

theorem nullableAt_cons :
    position.NullableAt (step :: path) ↔
      ∃ child, position.child? step = some child ∧ child.NullableAt path := by
  unfold NullableAt
  rw [at?]
  simp only [Option.bind_eq_some_iff]
  constructor
  · rintro ⟨found, ⟨child, leads, reached⟩, admits⟩
    exact ⟨child, leads, found, reached, admits⟩
  · rintro ⟨child, leads, found, reached, admits⟩
    exact ⟨found, ⟨child, leads, reached⟩, admits⟩

/-- Where no nearest position that admits null is found, none on the way admits null. -/
theorem not_nullableAt_of_nearestNullable? {other : Path}
    (nearest : position.nearestNullable? path = none) (onWay : other <+: path) :
    ¬ position.NullableAt other := by
  induction path generalizing position other with
  | nil =>
    rw [List.prefix_nil.mp onWay, nullableAt_nil]
    intro admits
    rw [nearestNullable?, admits] at nearest
    cases nearest
  | cons step rest ih =>
    rw [nearestNullable?] at nearest
    split at nearest
    · cases nearest
    · next inner =>
      rcases List.prefix_cons_iff.mp onWay with rfl | ⟨shorter, rfl, ahead⟩
      · rw [nullableAt_nil]
        intro admits
        rw [admits] at nearest
        cases nearest
      · rw [nullableAt_cons]
        rintro ⟨child, leads, admits⟩
        rw [leads] at inner
        exact ih inner ahead admits

/-- The nearest position that admits null is the last one on the way to a path. -/
theorem of_nearestNullable?_eq_some {above : Path}
    (nearest : position.nearestNullable? path = some above) :
    above <+: path ∧ position.NullableAt above ∧
      ∀ other, other <+: path → position.NullableAt other → other <+: above := by
  induction path generalizing position above with
  | nil =>
    rw [nearestNullable?] at nearest
    split at nearest
    · next admits =>
      cases nearest
      exact ⟨List.prefix_rfl, nullableAt_nil.mpr admits, fun other onWay _ => onWay⟩
    · cases nearest
  | cons step rest ih =>
    rw [nearestNullable?] at nearest
    split at nearest
    · next deeper inner =>
      cases nearest
      obtain ⟨child, leads, inner⟩ := Option.bind_eq_some_iff.mp inner
      obtain ⟨onWay, admits, last⟩ := ih inner
      refine ⟨(List.prefix_cons_inj step).mpr onWay, nullableAt_cons.mpr ⟨child, leads, admits⟩, ?_⟩
      intro other before nullable
      rcases List.prefix_cons_iff.mp before with rfl | ⟨shorter, rfl, ahead⟩
      · exact List.nil_prefix
      · obtain ⟨same, found, nullable⟩ := nullableAt_cons.mp nullable
        rw [leads] at found
        cases found
        exact (List.prefix_cons_inj step).mpr (last shorter ahead nullable)
    · next inner =>
      split at nearest
      · next admits =>
        cases nearest
        refine ⟨List.nil_prefix, nullableAt_nil.mpr admits, fun other before nullable => ?_⟩
        rcases List.prefix_cons_iff.mp before with rfl | ⟨shorter, rfl, ahead⟩
        · exact List.prefix_rfl
        · obtain ⟨child, leads, nullable⟩ := nullableAt_cons.mp nullable
          rw [leads] at inner
          exact absurd nullable (not_nullableAt_of_nearestNullable? inner ahead)
      · cases nearest

end Position

end GraphQL
