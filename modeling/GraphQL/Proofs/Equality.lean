import GraphQL.Proofs.Matching
import GraphQL.Proofs.Numbers
import GraphQL.Proofs.Parts
import Mathlib.Data.List.Forall2

/-!
# Equality of values is an equivalence

Equality of values is transitive, and it is symmetric on values whose mappings have distinct keys.
It is not reflexive: what is no number is not equal to itself.
-/

namespace GraphQL

namespace Value

/-- What a value without parts is compared by. -/
inductive Atom where
  | null
  | undefined
  | number (amount : Int ⊕ Bool)
  | text (text : String)
  | bytes (data : List UInt8)
  | var (name : String)
  | member (enumeration symbol : String)
  | fault (identity : Nat)
  | stream (identity : Nat)
  | object (identity : Nat)
  | promise (identity : Nat)
  | location (location : Location)
  | typeRef (ref : TypeRef)
  | definition (name : String)
  | schema

/-- The number that a value is, by its amount. -/
def amount? : Value → Option (Int ⊕ Bool)
  | bool b => some (.inl ((if b then 1 else 0) * Decimal.Binary.unit))
  | int n => some (.inl (n * Decimal.Binary.unit))
  | float x => (Decimal.Binary.ofFloat x).amount?
  | _ => none

/-- What a value is compared by, if it has no parts and is equal to itself. -/
def atom? : Value → Option Atom
  | null => some .null
  | undefined => some .undefined
  | str text | keyword _ text => some (.text text)
  | bytes data => some (.bytes data)
  | var name => some (.var name)
  | member enumeration symbol .. => some (.member enumeration symbol)
  | fault f => f.identity.map .fault
  | stream identity .. => some (.stream identity)
  | object identity .. => some (.object identity)
  | promise identity => some (.promise identity)
  | location place => some (.location place)
  | typeRef ref => some (.typeRef ref)
  | definition name => some (.definition name)
  | schema => some .schema
  | value => value.amount?.map .number

theorem wholeNumber?_eq_some_iff {value : Value} {n : Int} :
    value.wholeNumber? = some n ↔ value.amount? = some (.inl (n * Decimal.Binary.unit)) := by
  have cancel : ∀ m : Int, m * Decimal.Binary.unit = n * Decimal.Binary.unit ↔ m = n :=
    fun m => mul_left_inj' Decimal.Binary.unit_ne_zero
  cases value with
  | bool b => simp only [wholeNumber?, amount?, Option.some_inj, Sum.inl.injEq, cancel]
  | int m => simp only [wholeNumber?, amount?, Option.some_inj, Sum.inl.injEq, cancel]
  | float x => exact Decimal.Binary.toInt?_ofFloat_eq_some_iff
  | _ =>
    constructor
    all_goals
      intro same
      cases same

/-- Numbers of the same amount are equal, whatever their type. -/
theorem equals_of_amount? {a b : Value} {amount : Int ⊕ Bool} (left : a.amount? = some amount)
    (right : b.amount? = some amount) : a.equals b = true := by
  have same : ∀ m, a.wholeNumber? = some m ↔ b.wholeNumber? = some m := by
    intro m
    rw [wholeNumber?_eq_some_iff, wholeNumber?_eq_some_iff, left, right]
  cases a with
  | float x =>
    cases b with
    | float y => exact Decimal.Binary.beq_iff_amount?.mpr ⟨amount, left, right⟩
    | bool _ | int _ =>
      have known := (same _).mpr rfl
      unfold equals
      rw [known]
      exact beq_self_eq_true _
    | _ => cases right
  | bool _ | int _ =>
    cases b with
    | float _ | bool _ | int _ =>
      have known := (same _).mp rfl
      unfold equals
      rw [known]
      exact beq_self_eq_true _
    | _ => cases right
  | _ => cases left

theorem atom?_eq_number_iff {value : Value} {amount : Int ⊕ Bool} :
    value.atom? = some (.number amount) ↔ value.amount? = some amount := by
  have inside : ∀ found : Option (Int ⊕ Bool),
      found.map Atom.number = some (.number amount) ↔ found = some amount := by
    intro found
    cases found <;> simp
  cases value with
  | bool b => exact inside (amount? (.bool b))
  | int n => exact inside (amount? (.int n))
  | float x => exact inside (amount? (.float x))
  | fault f =>
    refine ⟨fun found => ?_, nofun⟩
    obtain ⟨identity, _, same⟩ := Option.map_eq_some_iff.mp found
    cases same
  | _ => exact ⟨nofun, nofun⟩

theorem atom?_eq_fault_iff {value : Value} {identity : Nat} :
    value.atom? = some (.fault identity) ↔
      ∃ f, value = .fault f ∧ f.identity = some identity := by
  constructor
  · intro found
    cases value with
    | fault f =>
      obtain ⟨_, known, same⟩ := Option.map_eq_some_iff.mp found
      cases same
      exact ⟨f, rfl, known⟩
    | float x =>
      obtain ⟨_, _, same⟩ := Option.map_eq_some_iff.mp found
      cases same
    | _ => cases found
  · rintro ⟨f, rfl, known⟩
    exact Option.map_eq_some_iff.mpr ⟨identity, known, rfl⟩

theorem equals_of_atom? {a b : Value} {atom : Atom} (left : a.atom? = some atom)
    (right : b.atom? = some atom) : a.equals b = true := by
  cases atom with
  | number amount =>
    exact equals_of_amount? (atom?_eq_number_iff.mp left) (atom?_eq_number_iff.mp right)
  | fault identity =>
    obtain ⟨f, rfl, known⟩ := atom?_eq_fault_iff.mp left
    obtain ⟨g, rfl, same⟩ := atom?_eq_fault_iff.mp right
    simp [equals, sameFault, known, same]
  | _ =>
    have float : ∀ x, (Value.float x).atom? = (amount? (.float x)).map .number := fun _ => rfl
    have fault : ∀ f : Fault, (Value.fault f).atom? = f.identity.map .fault := fun _ => rfl
    cases a <;> first | cases left | simp [float, fault] at left
    all_goals
      cases b <;> first | cases right | simp [float, fault] at right
      all_goals simp [equals]

/-- Values are equal by what they are compared by, or part by part. -/
inductive Alike : Value → Value → Prop where
  | atoms {a b : Value} {atom : Atom} : a.atom? = some atom → b.atom? = some atom → Alike a b
  | lists {xs ys : List Value} : equalItems xs ys = true → Alike (.list xs) (.list ys)
  | tuples {xs ys : List Value} : equalItems xs ys = true → Alike (.tuple xs) (.tuple ys)
  | maps {xs ys : Entries Value} :
      agreeByKey (·.1) (fun x y => x.2.equals y.2) xs ys = true → Alike (.map xs) (.map ys)

theorem agreeByKey_iff_equalEntries {xs ys : Entries Value} :
    agreeByKey (·.1) (fun x y => x.2.equals y.2) xs ys = true ↔
      (xs.length == ys.length && equalEntries xs ys) = true := by
  have entries : ∀ xs : Entries Value, equalEntries xs ys = true ↔
      ∀ x ∈ xs, ∃ y, ys.find? (·.1 == x.1) = some y ∧ x.2.equals y.2 = true := by
    intro xs
    induction xs with
    | nil => simp [equalEntries]
    | cons x xs ih =>
      rw [equalEntries, Bool.and_eq_true_iff, ih, List.forall_mem_cons, Entries.get?]
      refine and_congr_left fun _ => ?_
      cases ys.find? (·.1 == x.1) with
      | none => simp
      | some y => simp
  rw [agreeByKey_iff, Bool.and_eq_true_iff, beq_iff_eq, entries]

theorem equals_iff_alike {a b : Value} : a.equals b = true ↔ Alike a b := by
  constructor
  · intro same
    unfold equals at same
    split at same
    case h_3 =>
      obtain ⟨amount, left, right⟩ := Decimal.Binary.beq_iff_amount?.mp same
      exact .atoms (atom?_eq_number_iff.mpr left) (atom?_eq_number_iff.mpr right)
    case h_9 => exact .lists same
    case h_10 => exact .tuples same
    case h_11 => exact .maps (agreeByKey_iff_equalEntries.mpr same)
    case h_13 =>
      obtain ⟨enumerations, symbols⟩ := Bool.and_eq_true_iff.mp same
      cases eq_of_beq enumerations
      cases eq_of_beq symbols
      exact .atoms rfl rfl
    case h_14 =>
      unfold sameFault at same
      split at same
      · next left right =>
        cases eq_of_beq same
        exact .atoms (atom?_eq_fault_iff.mpr ⟨_, rfl, left⟩)
          (atom?_eq_fault_iff.mpr ⟨_, rfl, right⟩)
      · cases same
    case h_22 =>
      split at same
      · next left right =>
        cases eq_of_beq same
        have left := wholeNumber?_eq_some_iff.mp left
        have right := wholeNumber?_eq_some_iff.mp right
        exact .atoms (atom?_eq_number_iff.mpr left) (atom?_eq_number_iff.mpr right)
      · cases same
    all_goals
      first
      | exact .atoms rfl rfl
      | cases eq_of_beq same
        exact .atoms rfl rfl
  · intro alike
    cases alike with
    | atoms left right => exact equals_of_atom? left right
    | lists same => exact same
    | tuples same => exact same
    | maps same => exact agreeByKey_iff_equalEntries.mp same

theorem equalItems_iff_forall₂ {xs ys : List Value} :
    equalItems xs ys = true ↔ List.Forall₂ (fun x y => x.equals y = true) xs ys := by
  induction xs generalizing ys with
  | nil => cases ys <;> simp [equalItems]
  | cons x xs ih => cases ys <;> simp [equalItems, ih]

theorem equalItems_trans {xs ys zs : List Value}
    (items : ∀ x ∈ xs, ∀ {b c}, x.equals b = true → b.equals c = true → x.equals c = true)
    (first : equalItems xs ys = true) (second : equalItems ys zs = true) :
    equalItems xs zs = true := by
  rw [equalItems_iff_forall₂] at *
  induction first generalizing zs with
  | nil =>
    cases second
    exact .nil
  | @cons x y xs ys same _ ih =>
    cases second with
    | cons next others =>
      refine .cons (items x List.mem_cons_self same next) (ih ?_ others)
      exact fun other among => items other (List.mem_cons_of_mem _ among)

/-- Equality of values is transitive. -/
theorem equals_trans {a b c : Value} (first : a.equals b = true) (second : b.equals c = true) :
    a.equals c = true := by
  induction a using parts_induction generalizing b c with
  | list xs ih =>
    rcases equals_iff_alike.mp first with left | left
    · cases left
    · rcases equals_iff_alike.mp second with right | right
      · cases right
      · exact equals_iff_alike.mpr (.lists (equalItems_trans ih left right))
  | tuple xs ih =>
    rcases equals_iff_alike.mp first with left | _ | left
    · cases left
    · rcases equals_iff_alike.mp second with right | _ | right
      · cases right
      · exact equals_iff_alike.mpr (.tuples (equalItems_trans ih left right))
  | map xs ih =>
    rcases equals_iff_alike.mp first with left | _ | _ | left
    · cases left
    · rcases equals_iff_alike.mp second with right | _ | _ | right
      · cases right
      · refine equals_iff_alike.mpr (.maps (agreeByKey_trans (fun x among => ?_) left right))
        exact ih x among
  | simple value simple =>
    rcases equals_iff_alike.mp first with ⟨left, middle⟩ | _ | _ | _
    · rcases equals_iff_alike.mp second with ⟨again, right⟩ | _ | _ | _
      · rw [middle] at again
        cases again
        exact equals_iff_alike.mpr (.atoms left right)
      all_goals cases middle
    all_goals cases simple

/-- Whether all mappings in a value have distinct keys. -/
def isProper (value : Value) : Bool :=
  value.everywhere fun
    | map entries => decide (Entries.keys entries).Nodup
    | _ => true

theorem equalItems_symm {xs ys : List Value}
    (items : ∀ x ∈ xs, ∀ {b}, x.equals b = true → b.equals x = true)
    (same : equalItems xs ys = true) : equalItems ys xs = true := by
  rw [equalItems_iff_forall₂] at *
  induction same with
  | nil => exact .nil
  | @cons x y xs ys same _ ih =>
    refine .cons (items x List.mem_cons_self same) (ih ?_)
    exact fun other among => items other (List.mem_cons_of_mem _ among)

/-- Equality is symmetric on values whose mappings have distinct keys. -/
theorem equals_symm {a b : Value} (proper : a.isProper = true) (same : a.equals b = true) :
    b.equals a = true := by
  induction a using parts_induction generalizing b with
  | list xs ih =>
    have items := everywhere_of_mem_list proper
    rcases equals_iff_alike.mp same with left | left
    · cases left
    · refine equals_iff_alike.mpr (.lists (equalItems_symm (fun x among => ?_) left))
      exact ih x among (items x among)
  | tuple xs ih =>
    have items := everywhere_of_mem_tuple proper
    rcases equals_iff_alike.mp same with left | _ | left
    · cases left
    · refine equals_iff_alike.mpr (.tuples (equalItems_symm (fun x among => ?_) left))
      exact ih x among (items x among)
  | map xs ih =>
    have values := everywhere_of_mem_map proper
    have distinct := of_decide_eq_true (of_everywhere proper)
    rcases equals_iff_alike.mp same with left | _ | _ | left
    · cases left
    · refine equals_iff_alike.mpr (.maps (agreeByKey_symm distinct (fun x among => ?_) left))
      exact ih x among (values x among)
  | simple value simple =>
    rcases equals_iff_alike.mp same with ⟨left, right⟩ | _ | _ | _
    · exact equals_iff_alike.mpr (.atoms right left)
    all_goals cases simple

end Value

end GraphQL
