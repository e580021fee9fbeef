import GraphQL.Proofs.Equality
import GraphQL.Proofs.Settling

/-!
# Symbols of internal values

Looking for the symbol of a value goes over an enum twice: an entry whose value is the very object
comes before one whose value is of the same type and equal. Looking for the symbol of the value that
was found leads to the same entry where equal values are the same object. Where they are not, and a
value would lead elsewhere, it remembers its symbol when it is handed on.
-/

namespace GraphQL

/-! ## Identity of values -/

namespace Value

/-- What tells values apart of which two are one object or not, as can be seen. -/
inductive Identity where
  | null
  | undefined
  | schema
  | bool (b : Bool)
  | member (enumeration symbol : String)
  | keyword (family text : String)
  | fault (identity : Nat)
  | stream (identity : Nat)
  | object (identity : Nat)
  | promise (identity : Nat)

/-- The identity of a value, if it can be seen. -/
def identity? : Value → Option Identity
  | null => some .null
  | undefined => some .undefined
  | schema => some .schema
  | bool b => some (.bool b)
  | member enumeration symbol .. => some (.member enumeration symbol)
  | keyword family text => some (.keyword family text)
  | fault f => f.identity.map .fault
  | stream identity .. => some (.stream identity)
  | object identity .. => some (.object identity)
  | promise identity => some (.promise identity)
  | _ => none

theorem identity?_eq_fault_iff {value : Value} {identity : Nat} :
    value.identity? = some (.fault identity) ↔
      ∃ f, value = .fault f ∧ f.identity = some identity := by
  constructor
  · intro found
    cases value with
    | fault f =>
      obtain ⟨_, known, same⟩ := Option.map_eq_some_iff.mp found
      cases same
      exact ⟨f, rfl, known⟩
    | _ => cases found
  · rintro ⟨f, rfl, known⟩
    exact Option.map_eq_some_iff.mpr ⟨identity, known, rfl⟩

/-- Values are one object where they have the same identity. -/
theorem identical_iff {a b : Value} : a.identical b = true ↔
    ∃ identity, a.identity? = some identity ∧ b.identity? = some identity := by
  constructor
  · intro same
    unfold identical at same
    split at same
    case h_7 =>
      unfold sameFault at same
      split at same
      · next left right =>
        cases eq_of_beq same
        exact ⟨.fault _, identity?_eq_fault_iff.mpr ⟨_, rfl, left⟩,
          identity?_eq_fault_iff.mpr ⟨_, rfl, right⟩⟩
      · cases same
    all_goals
      first
      | cases same; done
      | exact ⟨_, rfl, rfl⟩
      | cases eq_of_beq same
        exact ⟨_, rfl, rfl⟩
      | obtain ⟨first, second⟩ := Bool.and_eq_true_iff.mp same
        cases eq_of_beq first
        cases eq_of_beq second
        exact ⟨_, rfl, rfl⟩
  · rintro ⟨identity, left, right⟩
    cases identity with
    | fault identity =>
      obtain ⟨f, rfl, known⟩ := identity?_eq_fault_iff.mp left
      obtain ⟨g, rfl, same⟩ := identity?_eq_fault_iff.mp right
      simp [identical, sameFault, known, same]
    | _ =>
      have fault : ∀ f : Fault, (Value.fault f).identity? = f.identity.map .fault := fun _ => rfl
      cases a <;> first | cases left | simp [fault] at left
      all_goals
        cases b <;> first | cases right | simp [fault] at right
        all_goals simp [identical]

theorem identical_trans {a b c : Value} (first : a.identical b = true)
    (second : b.identical c = true) : a.identical c = true := by
  obtain ⟨identity, left, middle⟩ := identical_iff.mp first
  obtain ⟨again, same, right⟩ := identical_iff.mp second
  rw [middle] at same
  cases same
  exact identical_iff.mpr ⟨identity, left, right⟩

theorem identical_symm {a b : Value} (same : a.identical b = true) : b.identical a = true := by
  obtain ⟨identity, left, right⟩ := identical_iff.mp same
  exact identical_iff.mpr ⟨identity, right, left⟩

/-- Values of one type that are equal are one object where that can be seen. -/
theorem identical_of_equals {a b : Value} {identity : Identity}
    (seen : a.identity? = some identity) (same : a.sameType b = true)
    (equal : a.equals b = true) : a.identical b = true := by
  cases a with
  | null | undefined | schema => cases b <;> first | rfl | cases same
  | bool p =>
    cases b with
    | bool q => cases p <;> cases q <;> first | rfl | cases equal
    | _ => cases same
  | keyword family text =>
    cases b with
    | keyword other otherText => exact Bool.and_eq_true_iff.mpr ⟨same, equal⟩
    | _ => cases same
  | member _ _ _ _ _ | fault _ | stream _ _ _ | object _ _ _ _ | promise _ =>
    cases b <;> exact equal
  | _ => cases seen

theorem sameType_trans {a b c : Value} (first : a.sameType b = true)
    (second : b.sameType c = true) : a.sameType c = true := by
  have trans : ∀ {α : Type} [BEq α] [LawfulBEq α] {x y z : α},
      (x == y) = true → (y == z) = true → (x == z) = true :=
    fun one two => beq_iff_eq.mpr ((eq_of_beq one).trans (eq_of_beq two))
  cases b with
  | member _ _ _ _ _ | keyword _ _ | fault _ | object _ _ _ _ | typeRef _ =>
    cases a <;> first
      | cases first
      | cases c <;> first | exact trans first second | cases second
  | _ =>
    cases a <;> first
      | cases first; done
      | cases c <;> first | rfl | cases second

theorem identity?_ne_none {a b : Value} (same : a.identical b = true) :
    b.identity? ≠ Option.none := by
  obtain ⟨identity, _, seen⟩ := identical_iff.mp same
  exact Option.ne_none_iff_exists'.mpr ⟨identity, seen⟩

/-- Values that are one object, as all equal ones are, are of one type and equal. -/
theorem equals_of_identical {a b : Value} (interned : b.isInterned = true)
    (same : a.identical b = true) : a.sameType b = true ∧ a.equals b = true := by
  cases b with
  | null | undefined | schema => cases a <;> first | exact ⟨rfl, rfl⟩ | cases same
  | bool q =>
    cases a with
    | bool p => cases p <;> cases q <;> first | exact ⟨rfl, rfl⟩ | cases same
    | _ => cases same
  | member _ _ _ _ _ =>
    cases a with
    | member _ _ _ _ _ => exact ⟨(Bool.and_eq_true_iff.mp same).1, same⟩
    | _ => cases same
  | keyword _ _ =>
    cases a with
    | keyword _ _ => exact Bool.and_eq_true_iff.mp same
    | _ => cases same
  | int _ | str _ | bytes _ | tuple _ => cases a <;> cases same
  | _ => cases interned

/-- A value of which all equals are the same object is equal to itself. -/
theorem equals_self_of_isInterned {a : Value} (interned : a.isInterned = true)
    (unseen : a.identity? = Option.none) : a.sameType a = true ∧ a.equals a = true := by
  cases a with
  | int n => exact ⟨rfl, beq_self_eq_true n⟩
  | str text => exact ⟨rfl, beq_self_eq_true text⟩
  | bytes data => exact ⟨rfl, beq_self_eq_true data⟩
  | tuple items =>
    obtain rfl := List.isEmpty_iff.mp interned
    exact ⟨rfl, rfl⟩
  | null | undefined | bool _ | member _ _ _ _ _ | keyword _ _ | schema => cases unseen
  | _ => cases interned

/-! ## Equality with a value of some form -/

theorem forall₂_congr_of_mem {α β : Type} {holds weaker : α → β → Prop} {xs : List α} {ys : List β}
    (same : ∀ y ∈ ys, ∀ x, holds x y ↔ weaker x y) :
    List.Forall₂ holds xs ys ↔ List.Forall₂ weaker xs ys := by
  rw [List.forall₂_iff_zip, List.forall₂_iff_zip]
  refine and_congr_right fun _ => ⟨fun held x y among => ?_, fun held x y among => ?_⟩
  · exact (same y (List.of_mem_zip among).2 x).mp (held among)
  · exact (same y (List.of_mem_zip among).2 x).mpr (held among)

theorem equals_simple_iff {a b : Value} (simple : b.isSimple = true) :
    a.equals b = true ↔ ∃ atom, a.atom? = some atom ∧ b.atom? = some atom := by
  rw [equals_iff_alike]
  constructor
  · rintro (⟨left, right⟩ | _ | _ | _)
    · exact ⟨_, left, right⟩
    all_goals cases simple
  · rintro ⟨atom, left, right⟩
    exact .atoms left right

theorem equals_list_iff {a : Value} {ys : List Value} : a.equals (.list ys) = true ↔
    ∃ xs, a = .list xs ∧ List.Forall₂ (fun x y => x.equals y = true) xs ys := by
  rw [equals_iff_alike]
  constructor
  · rintro (⟨_, ⟨⟩⟩ | same | _ | _)
    exact ⟨_, rfl, equalItems_iff_forall₂.mp same⟩
  · rintro ⟨xs, rfl, same⟩
    exact .lists (equalItems_iff_forall₂.mpr same)

theorem equals_tuple_iff {a : Value} {ys : List Value} : a.equals (.tuple ys) = true ↔
    ∃ xs, a = .tuple xs ∧ List.Forall₂ (fun x y => x.equals y = true) xs ys := by
  rw [equals_iff_alike]
  constructor
  · rintro (⟨_, ⟨⟩⟩ | _ | same | _)
    exact ⟨_, rfl, equalItems_iff_forall₂.mp same⟩
  · rintro ⟨xs, rfl, same⟩
    exact .tuples (equalItems_iff_forall₂.mpr same)

theorem equals_map_iff {a : Value} {ys : Entries Value} : a.equals (.map ys) = true ↔
    ∃ xs : Entries Value, a = .map xs ∧ xs.length = ys.length ∧
      ∀ x ∈ xs, ∃ y, ys.find? (·.1 == x.1) = some y ∧ x.2.equals y.2 = true := by
  rw [equals_iff_alike]
  constructor
  · rintro (⟨_, ⟨⟩⟩ | _ | _ | same)
    exact ⟨_, rfl, agreeByKey_iff.mp same⟩
  · rintro ⟨xs, rfl, same⟩
    exact .maps (agreeByKey_iff.mpr same)

/-! ## Values shown with what has become of error objects -/

section

variable {change : Fault → Fault}
  (keeps : ∀ fault, (change fault).identity = fault.identity ∧ (change fault).kind = fault.kind)

include keeps

theorem identity?_mapFaults (value : Value) :
    (value.mapFaults change).identity? = value.identity? := by
  cases value with
  | fault f => exact congrArg (Option.map Identity.fault) (keeps f).1
  | _ => rfl

theorem identical_mapFaults (a b : Value) : a.identical (b.mapFaults change) = a.identical b := by
  rw [Bool.eq_iff_iff, identical_iff, identical_iff, identity?_mapFaults keeps]

theorem atom?_mapFaults (value : Value) : (value.mapFaults change).atom? = value.atom? := by
  cases value with
  | fault f => exact congrArg (Option.map Atom.fault) (keeps f).1
  | _ => rfl

theorem sameType_mapFaults (a b : Value) : a.sameType (b.mapFaults change) = a.sameType b := by
  cases b with
  | fault f =>
    cases a with
    | fault g => exact congrArg (g.kind == ·) (keeps f).2
    | _ => rfl
  | _ => cases a <;> rfl

/-- What a value is equal to does not depend on what has become of the error objects in that. -/
theorem equals_mapFaults (a b : Value) : a.equals (b.mapFaults change) = a.equals b := by
  rw [Bool.eq_iff_iff]
  induction b using parts_induction generalizing a with
  | list ys ih =>
    rw [mapFaults, mapFaultsItems_eq, equals_list_iff, equals_list_iff]
    refine exists_congr fun xs => and_congr_right fun _ => ?_
    rw [List.forall₂_map_right_iff]
    exact forall₂_congr_of_mem fun y among x => ih y among x
  | tuple ys ih =>
    rw [mapFaults, mapFaultsItems_eq, equals_tuple_iff, equals_tuple_iff]
    refine exists_congr fun xs => and_congr_right fun _ => ?_
    rw [List.forall₂_map_right_iff]
    exact forall₂_congr_of_mem fun y among x => ih y among x
  | map ys ih =>
    rw [mapFaults, mapFaultsEntries_eq, equals_map_iff, equals_map_iff]
    refine exists_congr fun xs => and_congr_right fun _ => ?_
    rw [List.length_map]
    refine and_congr_right fun _ => forall₂_congr fun x _ => ?_
    rw [List.find?_map]
    constructor
    · rintro ⟨_, found, same⟩
      obtain ⟨y, there, rfl⟩ := Option.map_eq_some_iff.mp found
      exact ⟨y, there, (ih y (List.mem_of_find?_eq_some there) x.2).mp same⟩
    · rintro ⟨y, there, same⟩
      exact ⟨_, congrArg (Option.map _) there,
        (ih y (List.mem_of_find?_eq_some there) x.2).mpr same⟩
  | simple value simple =>
    have simpleToo : (value.mapFaults change).isSimple = true := by
      cases value with
      | list _ | tuple _ | map _ => cases simple
      | _ => rfl
    rw [equals_simple_iff simple, equals_simple_iff simpleToo, atom?_mapFaults keeps]

end

/-! ## Values without the memory of a symbol -/

mutual

/-- Forgetting symbols and showing error objects do not depend on each other. -/
theorem plain_mapFaults (change : Fault → Fault) :
    ∀ value : Value, (value.mapFaults change).plain = value.plain.mapFaults change
  | .chosen _ _ value => by simp only [mapFaults, plain, plain_mapFaults change value]
  | .list items => by simp only [mapFaults, plain, plainItems_mapFaultsItems change items]
  | .tuple items => by simp only [mapFaults, plain, plainItems_mapFaultsItems change items]
  | .map entries => by simp only [mapFaults, plain, plainEntries_mapFaultsEntries change entries]
  | .fault _ | .member .. | .object .. | .null | .undefined | .bool _ | .int _ | .float _ | .str _
  | .bytes _ | .var _ | .keyword .. | .stream .. | .pending _ | .failing _ | .promise _
  | .location _ | .typeRef _ | .definition _ | .schema => rfl

theorem plainItems_mapFaultsItems (change : Fault → Fault) : ∀ items : List Value,
    plainItems (mapFaultsItems change items) = mapFaultsItems change (plainItems items)
  | [] => rfl
  | item :: rest => by
    simp only [mapFaultsItems, plainItems, plain_mapFaults change item,
      plainItems_mapFaultsItems change rest]

theorem plainEntries_mapFaultsEntries (change : Fault → Fault) :
    ∀ entries : List (String × Value),
      plainEntries (mapFaultsEntries change entries) =
        mapFaultsEntries change (plainEntries entries)
  | [] => rfl
  | (key, value) :: rest => by
    simp only [mapFaultsEntries, plainEntries, plain_mapFaults change value,
      plainEntries_mapFaultsEntries change rest]

end

theorem mapFaults_eq_chosen {change : Fault → Fault} {value inner : Value}
    {enumName symbol : String} (shows : value.mapFaults change = .chosen enumName symbol inner) :
    ∃ own, value = .chosen enumName symbol own := by
  cases value with
  | chosen _ _ own =>
    cases shows
    exact ⟨own, rfl⟩
  | _ => cases shows

/-- A value that forgets its symbol has none. -/
theorem plain_ne_chosen (value : Value) (enumName symbol : String) (inner : Value) :
    value.plain ≠ .chosen enumName symbol inner := by
  induction value using bare.induct with
  | case1 _ _ value ih =>
    rw [plain]
    exact ih
  | case2 value other =>
    cases value with
    | chosen enumName symbol value => exact absurd rfl (other enumName symbol value)
    | _ => nofun

theorem isNull_plain (value : Value) : value.plain.isNull = value.isNull := by
  induction value using bare.induct with
  | case1 _ _ value ih => exact ih
  | case2 value other =>
    cases value with
    | chosen enumName symbol value => exact absurd rfl (other enumName symbol value)
    | _ => rfl

/-- A value that counts as null and remembers no symbol is null. -/
theorem eq_null_of_isNull {value : Value} (plain : value.plain = value)
    (null : value.isNull = true) : value = .null := by
  cases value with
  | null => rfl
  | chosen enumName symbol inner => exact absurd plain (plain_ne_chosen _ _ _ _)
  | _ => cases null

end Value

/-! ## The symbol of a value -/

theorem find?_eq_of_find? {α : Type} {sought found : α → Bool} {xs : List α} {x : α}
    (first : xs.find? sought = some x) (own : found x = true)
    (implies : ∀ y ∈ xs, found y = true → sought y = true) : xs.find? found = some x := by
  obtain ⟨_, ahead, behind, rfl, misses⟩ := List.find?_eq_some_iff_append.mp first
  refine List.find?_eq_some_iff_append.mpr ⟨own, ahead, behind, rfl, fun y among => ?_⟩
  cases hit : found y with
  | false => rfl
  | true =>
    have missed := misses y among
    rw [implies y (List.mem_append_left _ among) hit] at missed
    cases missed

theorem find?_eq_of_unique {α : Type} {sought : α → Bool} {xs : List α} {x : α} (among : x ∈ xs)
    (own : sought x = true) (unique : ∀ y ∈ xs, sought y = true → y = x) :
    xs.find? sought = some x := by
  cases found : xs.find? sought with
  | none => exact absurd own (List.find?_eq_none.mp found x among)
  | some y =>
    rw [unique y (List.mem_of_find?_eq_some found) (List.find?_some found)]

namespace EnumType

variable {type : EnumType} {entry : EnumValue} {value : Value} {symbol : String}

/-- Looking for the symbol of a value leads to an entry: to the first whose value is the very
object, or, if there is none, to the first whose value is of the same type and equal. -/
inductive LeadsTo (type : EnumType) (value : Value) (entry : EnumValue) : Prop where
  | identical : type.values.find? (fun entry => entry.value.identical value) = some entry →
      LeadsTo type value entry
  | equal : type.values.find? (fun entry => entry.value.identical value) = none →
      type.values.find? (fun entry => entry.value.sameType value && entry.value.equals value) =
        some entry → LeadsTo type value entry

theorem LeadsTo.mem (leads : type.LeadsTo value entry) : entry ∈ type.values := by
  cases leads with
  | identical found => exact List.mem_of_find?_eq_some found
  | equal _ found => exact List.mem_of_find?_eq_some found

theorem symbolOf?_eq_some_iff :
    type.symbolOf? value = some symbol ↔
      ∃ entry, type.LeadsTo value entry ∧ entry.symbol = symbol := by
  unfold symbolOf?
  cases first : type.values.find? fun entry => entry.value.identical value with
  | some entry =>
    constructor
    · intro found
      exact ⟨entry, .identical first, Option.some.inj found⟩
    · rintro ⟨_, same | ⟨none, _⟩, rfl⟩
      · rw [first] at same
        rw [Option.some.inj same]
      · rw [first] at none
        cases none
  | none =>
    constructor
    · intro found
      obtain ⟨entry, second, rfl⟩ := Option.map_eq_some_iff.mp found
      exact ⟨entry, .equal first second, rfl⟩
    · rintro ⟨entry, same | ⟨_, second⟩, rfl⟩
      · rw [first] at same
        cases same
      · exact congrArg (Option.map _) second

/-- The symbol of a value does not depend on what has become of the error objects in it. -/
theorem symbolOf?_mapFaults {change : Fault → Fault}
    (keeps : ∀ fault, (change fault).identity = fault.identity ∧ (change fault).kind = fault.kind)
    (type : EnumType) (value : Value) :
    type.symbolOf? (value.mapFaults change) = type.symbolOf? value := by
  unfold symbolOf?
  simp only [Value.identical_mapFaults keeps, Value.sameType_mapFaults keeps,
    Value.equals_mapFaults keeps]

/-- Only null leads to null. -/
theorem LeadsTo.eq_null (leads : type.LeadsTo value entry) (null : entry.value = .null) :
    value = .null := by
  cases leads with
  | identical found =>
    have own : entry.value.identical value = true := by simpa using List.find?_some found
    rw [null] at own
    cases value <;> first | rfl | cases own
  | equal _ found =>
    obtain ⟨own, _⟩ : entry.value.sameType value = true ∧ entry.value.equals value = true := by
      simpa using List.find?_some found
    rw [null] at own
    cases value <;> first | rfl | cases own

/-- The value of the entry to which a value leads leads there too, where equal values are the same
object. -/
theorem LeadsTo.again (leads : type.LeadsTo value entry)
    (interned : entry.value.isInterned = true) : type.LeadsTo entry.value entry := by
  cases leads with
  | identical found =>
    have own : entry.value.identical value = true := by simpa using List.find?_some found
    refine .identical (find?_eq_of_find? found ?_ fun other _ same => ?_)
    · exact Value.identical_trans own (Value.identical_symm own)
    · exact Value.identical_trans same own
  | equal none found =>
    obtain ⟨own, equal⟩ : entry.value.sameType value = true ∧ entry.value.equals value = true := by
      simpa using List.find?_some found
    -- an equal value of the same type with a visible identity would have been found by it
    have different : entry.value.identical value ≠ true := by
      have among := List.mem_of_find?_eq_some found
      exact List.find?_eq_none.mp none entry among
    have unseen : entry.value.identity? = Option.none := by
      cases seen : entry.value.identity? with
      | none => rfl
      | some identity => exact absurd (Value.identical_of_equals seen own equal) different
    obtain ⟨itself, equalsItself⟩ := Value.equals_self_of_isInterned interned unseen
    refine .equal (List.find?_eq_none.mpr fun other _ same => ?_)
      (find?_eq_of_find? found ?_ fun other _ same => ?_)
    · exact Value.identity?_ne_none same unseen
    · exact Bool.and_eq_true_iff.mpr ⟨itself, equalsItself⟩
    · obtain ⟨typed, equals⟩ := Bool.and_eq_true_iff.mp same
      exact Bool.and_eq_true_iff.mpr
        ⟨Value.sameType_trans typed own, Value.equals_trans equals equal⟩

/-- An entry whose value is of the same type as that of no other entry, and equal to it, is found
from its value, where equal values are the same object. -/
theorem leadsTo_of_unique (among : entry ∈ type.values)
    (interned : entry.value.isInterned = true)
    (unique : ∀ other ∈ type.values, other.value.sameType entry.value = true →
      other.value.equals entry.value = true → other = entry) : type.LeadsTo entry.value entry := by
  cases seen : entry.value.identity? with
  | some identity =>
    refine .identical (find?_eq_of_unique among ?_ fun other member same => ?_)
    · exact Value.identical_iff.mpr ⟨identity, seen, seen⟩
    · obtain ⟨typed, equal⟩ := Value.equals_of_identical interned same
      exact unique other member typed equal
  | none =>
    obtain ⟨itself, equalsItself⟩ := Value.equals_self_of_isInterned interned seen
    refine .equal (List.find?_eq_none.mpr fun other _ same => ?_)
      (find?_eq_of_unique among ?_ fun other member same => ?_)
    · exact Value.identity?_ne_none same seen
    · exact Bool.and_eq_true_iff.mpr ⟨itself, equalsItself⟩
    · obtain ⟨typed, equal⟩ := Bool.and_eq_true_iff.mp same
      exact unique other member typed equal

/-- The internal value of a symbol counts as null where the value that it was given does. -/
theorem isNull_internalValue (type : EnumType) (entry : EnumValue) :
    (type.internalValue entry).isNull = entry.value.isNull := by
  unfold internalValue
  split <;> rfl

/-- A value that remembers no symbol is looked for as it is. -/
theorem symbolFor?_of_plain (plain : value.plain = value) :
    type.symbolFor? value = type.symbolOf? value := by
  unfold symbolFor?
  split
  · next enumName symbol inner => exact absurd plain (Value.plain_ne_chosen _ _ _ _)
  · rw [plain]

/-- The values of an enum as its declaration gives them: one to each symbol, and none that the
engine has handed on. -/
structure IsDeclared (type : EnumType) : Prop where
  distinct : (type.values.map EnumValue.symbol).Nodup
  plain : ∀ entry ∈ type.values, entry.value.plain = entry.value

/-- A value remembers no symbol of an enum unless the engine handed it on as the value of that. -/
def IsGenuine (type : EnumType) (value : Value) : Prop :=
  ∀ symbol inner, value = .chosen type.name symbol inner →
    ∃ entry ∈ type.values, type.internalValue entry = value

namespace IsDeclared

variable (declared : type.IsDeclared)

include declared

theorem valueFor?_symbol (among : entry ∈ type.values) :
    type.valueFor? entry.symbol = some entry :=
  find?_of_distinct declared.distinct among

/-- The internal value of a symbol leads back to it, whatever has become of the error objects in it,
if it does so where equal values are the same object. -/
theorem symbolFor?_internalValue {change : Fault → Fault}
    (keeps : ∀ fault, (change fault).identity = fault.identity ∧ (change fault).kind = fault.kind)
    (among : entry ∈ type.values)
    (leads : entry.value.isInterned = true → type.LeadsTo entry.value entry) :
    type.symbolFor? ((type.internalValue entry).mapFaults change) = some entry.symbol := by
  unfold internalValue
  split
  · next found =>
    have own : type.symbolOf? entry.value = some entry.symbol := by
      rcases Bool.or_eq_true_iff.mp found with interned | itself
      · exact symbolOf?_eq_some_iff.mpr ⟨entry, leads interned, rfl⟩
      · exact eq_of_beq itself
    have plain : (entry.value.mapFaults change).plain = entry.value.mapFaults change := by
      rw [Value.plain_mapFaults, declared.plain entry among]
    rw [symbolFor?_of_plain plain, symbolOf?_mapFaults keeps, own]
  · have known : (type.valueFor? entry.symbol).isSome = true :=
      Option.isSome_of_eq_some (declared.valueFor?_symbol among)
    show (if type.name = type.name && (type.valueFor? entry.symbol).isSome then _ else _) = _
    rw [known]
    simp

theorem of_internalValue_eq_chosen {enumName : String} {inner : Value} (among : entry ∈ type.values)
    (handed : type.internalValue entry = .chosen enumName symbol inner) :
    entry.symbol = symbol ∧ entry.value.isInterned ≠ true := by
  unfold internalValue at handed
  split at handed
  · exact absurd ((declared.plain entry among).trans handed) (Value.plain_ne_chosen _ _ _ _)
  · next apart =>
    cases handed
    exact ⟨rfl, fun interned => apart (Bool.or_eq_true_iff.mpr (Or.inl interned))⟩

/-- The symbol that is found for a value has an internal value from which it is found again. It is
null for null only. -/
theorem exists_of_symbolFor? (genuine : type.IsGenuine value) {shown : Fault → Fault}
    (found : type.symbolFor? (value.mapFaults shown) = some symbol) :
    ∃ entry ∈ type.values, entry.symbol = symbol ∧
      (entry.value.isInterned = true → type.LeadsTo entry.value entry) ∧
      (entry.value.isNull = true → value.isNull = true) := by
  have led : ∀ other : Value, other.plain.isNull = value.isNull →
      type.symbolOf? other.plain = some symbol → ∃ entry ∈ type.values, entry.symbol = symbol ∧
        (entry.value.isInterned = true → type.LeadsTo entry.value entry) ∧
        (entry.value.isNull = true → value.isNull = true) := by
    intro other alike symbolised
    obtain ⟨entry, leads, named⟩ := symbolOf?_eq_some_iff.mp symbolised
    refine ⟨entry, leads.mem, named, leads.again, fun null => ?_⟩
    rw [← alike, leads.eq_null (Value.eq_null_of_isNull (declared.plain entry leads.mem) null)]
    rfl
  unfold symbolFor? at found
  split at found
  · next enumName own inner shows =>
    obtain ⟨kept, rfl⟩ := Value.mapFaults_eq_chosen shows
    cases shows
    split at found
    · next itself =>
      cases found
      -- the value remembers a symbol of this enum, so the engine handed it on for an entry
      obtain rfl := of_decide_eq_true (Bool.and_eq_true_iff.mp itself).1
      obtain ⟨entry, among, handed⟩ := genuine symbol kept rfl
      obtain ⟨named, apart⟩ := declared.of_internalValue_eq_chosen among handed
      refine ⟨entry, among, named, fun interned => absurd interned apart, fun null => ?_⟩
      rw [← handed, isNull_internalValue]
      exact null
    · refine led (kept.mapFaults shown) ?_ found
      rw [Value.isNull_plain, Value.isNull_mapFaults]
      rfl
  · refine led (value.mapFaults shown) ?_ found
    rw [Value.isNull_plain, Value.isNull_mapFaults]

end IsDeclared

end EnumType

end GraphQL
