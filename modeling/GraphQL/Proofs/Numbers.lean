import GraphQL.Value.Equality
import Mathlib.Algebra.Order.Ring.Int
import Mathlib.Tactic.Ring

/-!
# Amounts of numbers

Floats are taken apart to be compared: a finite one is some number of units, of which the least
positive float is one. Floats are equal when they have the same amount, and a float is equal to the
whole number of its amount. So all numbers are equal by their amounts, of whatever type they are.
-/

namespace GraphQL.Decimal

open Float.Model

theorem isNegative_ofBitVec (bit : BitVec 1) :
    (UnpackedFloat.Sign.ofBitVec bit == .negative) = (bit.toNat == 1) := by
  rcases BitVec.eq_zero_or_eq_one bit with rfl | rfl <;> rfl

section Bits

variable (bits : UInt64)

theorem toNat_unpackExponent :
    (@UnpackedFloat.unpackExponent Format.binary64 bits.toBitVec).toNat =
      bits.toNat / Nat.pow 2 52 % Nat.pow 2 11 := by
  simp [UnpackedFloat.unpackExponent, BitVec.extractLsb_toNat, Nat.shiftRight_eq_div_pow]

theorem toNat_unpackMantissa :
    (@UnpackedFloat.unpackMantissa Format.binary64 bits.toBitVec).toNat =
      bits.toNat % Nat.pow 2 52 := by
  simp [UnpackedFloat.unpackMantissa, BitVec.extractLsb_toNat, Nat.shiftRight_eq_div_pow]

theorem toNat_unpackSign :
    (@UnpackedFloat.unpackSign Format.binary64 bits.toBitVec).toNat =
      bits.toNat / Nat.pow 2 63 := by
  have bounded := bits.toNat_lt
  change (BitVec.extractLsb 63 63 bits.toBitVec).toNat = _
  simp [BitVec.extractLsb_toNat, Nat.shiftRight_eq_div_pow]
  omega

end Bits

namespace Binary

/-- The parts of an unpacked float. -/
def ofUnpacked : UnpackedFloat → Binary
  | .notANumber => .nan
  | .infinity sign => .infinite (sign == .negative)
  | .zero sign => .finite (sign == .negative) 0 (-1074)
  | .finite sign mantissa exponent _ => .finite (sign == .negative) mantissa exponent

theorem ofFloat_eq (x : Float) : ofFloat x = .ofUnpacked x.toModel.unpack := by
  unfold ofFloat Float.Model.unpack UnpackedFloat.unpack Float.toBits
  dsimp only
  rw [← toNat_unpackExponent, ← toNat_unpackMantissa, ← toNat_unpackSign]
  generalize x.toModel.toBits = bits
  have full : (@UnpackedFloat.unpackExponent Format.binary64 bits.toBitVec).toNat = 2047 ↔
      @UnpackedFloat.unpackExponent Format.binary64 bits.toBitVec = -1#11 :=
    BitVec.toNat_inj (y := -1#11)
  have least : (@UnpackedFloat.unpackExponent Format.binary64 bits.toBitVec).toNat = 0 ↔
      @UnpackedFloat.unpackExponent Format.binary64 bits.toBitVec = 0#11 :=
    BitVec.toNat_inj (y := 0#11)
  have empty : (@UnpackedFloat.unpackMantissa Format.binary64 bits.toBitVec).toNat = 0 ↔
      @UnpackedFloat.unpackMantissa Format.binary64 bits.toBitVec = 0#52 :=
    BitVec.toNat_inj (y := 0#52)
  rw [if_congr full rfl rfl, if_congr empty rfl rfl, if_congr least rfl rfl]
  by_cases largest : @UnpackedFloat.unpackExponent Format.binary64 bits.toBitVec = -1#11
  · rw [if_pos largest, if_pos largest]
    by_cases nothing : @UnpackedFloat.unpackMantissa Format.binary64 bits.toBitVec = 0#52
    · rw [if_pos nothing, if_pos nothing]
      change _ = Binary.infinite (UnpackedFloat.Sign.ofBitVec _ == .negative)
      rw [isNegative_ofBitVec]
    · rw [if_neg nothing, if_neg nothing]
      rfl
  · rw [if_neg largest, if_neg largest]
    by_cases zero : @UnpackedFloat.unpackExponent Format.binary64 bits.toBitVec = 0#11
    · rw [if_pos zero, if_pos zero]
      by_cases nothing : @UnpackedFloat.unpackMantissa Format.binary64 bits.toBitVec = 0#52
      · rw [dif_pos nothing]
        change _ = Binary.finite (UnpackedFloat.Sign.ofBitVec _ == .negative) 0 (-1074)
        rw [isNegative_ofBitVec, nothing]
        rfl
      · rw [dif_neg nothing]
        change _ = Binary.finite (UnpackedFloat.Sign.ofBitVec _ == .negative) _ _
        rw [isNegative_ofBitVec, zero]
        rfl
    · rw [if_neg zero, if_neg zero]
      change _ = Binary.finite (UnpackedFloat.Sign.ofBitVec _ == .negative) _ _
      rw [isNegative_ofBitVec, BitVec.toNat_append,
        ← Nat.shiftLeft_add_eq_or_of_lt (BitVec.isLt _)]
      rfl

/-- What all finite floats are multiples of. -/
def unit : Int :=
  2 ^ 1074

theorem unit_ne_zero : unit ≠ 0 :=
  pow_ne_zero 1074 two_ne_zero

/-- The amount of a float: how many units it has, or the sign of an infinite one. -/
def amount? : Binary → Option (Int ⊕ Bool)
  | .nan => none
  | .infinite negative => some (.inr negative)
  | .finite negative mantissa exponent =>
    some (.inl ((if negative then -(mantissa : Int) else mantissa) * 2 ^ (exponent + 1074).toNat))

/-- A finite float has its one exponent. -/
structure IsCanonical (mantissa : Nat) (exponent : Int) : Prop where
  least : -1074 ≤ exponent
  short : mantissa < 2 ^ 53
  full : exponent ≠ -1074 → 2 ^ 52 ≤ mantissa

theorem isCanonical_of_ofFloat {x : Float} {negative : Bool} {mantissa : Nat} {exponent : Int}
    (parts : ofFloat x = .finite negative mantissa exponent) : IsCanonical mantissa exponent := by
  unfold ofFloat at parts
  dsimp only at parts
  have two : Nat.pow 2 52 = 2 ^ 52 := rfl
  have fraction := Nat.mod_lt x.toBits.toNat (y := Nat.pow 2 52) (by decide)
  split at parts
  · split at parts <;> cases parts
  · split at parts
    · cases parts
      exact ⟨by omega, by omega, fun other => absurd rfl other⟩
    · cases parts
      exact ⟨by omega, by omega, fun _ => by omega⟩

/-- A float with a greater exponent is greater. -/
theorem scaled_lt_scaled {m n : Nat} {e f : Int} (left : IsCanonical m e)
    (right : IsCanonical n f) (less : e < f) :
    m * 2 ^ (e + 1074).toNat < n * 2 ^ (f + 1074).toNat := by
  have least := left.least
  have short := left.short
  have full := right.full (by omega)
  obtain ⟨k, more⟩ : ∃ k, (f + 1074).toNat = (e + 1074).toNat + (k + 1) :=
    ⟨(f - e).toNat - 1, by omega⟩
  have positive : 0 < 2 ^ (e + 1074).toNat := Nat.pow_pos (by decide)
  have doubled : 2 ^ 53 ≤ n * 2 ^ (k + 1) :=
    calc 2 ^ 53 = 2 ^ 52 * 2 := by rfl
      _ ≤ n * 2 ^ (k + 1) := Nat.mul_le_mul full (Nat.le_self_pow (Nat.succ_ne_zero k) 2)
  calc m * 2 ^ (e + 1074).toNat < 2 ^ 53 * 2 ^ (e + 1074).toNat :=
        Nat.mul_lt_mul_of_pos_right short positive
    _ ≤ n * 2 ^ (k + 1) * 2 ^ (e + 1074).toNat := Nat.mul_le_mul_right _ doubled
    _ = n * 2 ^ (f + 1074).toNat := by rw [more, pow_add]; ring

/-- The parts of a finite float are determined by its amount. -/
theorem eq_of_scaled {m n : Nat} {e f : Int} (left : IsCanonical m e) (right : IsCanonical n f)
    (same : m * 2 ^ (e + 1074).toNat = n * 2 ^ (f + 1074).toNat) : m = n ∧ e = f := by
  rcases lt_trichotomy e f with less | rfl | more
  · have := scaled_lt_scaled left right less
    omega
  · exact ⟨Nat.eq_of_mul_eq_mul_right (Nat.pow_pos (by decide)) same, rfl⟩
  · have := scaled_lt_scaled right left more
    omega

/-- A finite float is a whole number if its amount is one. -/
theorem toInt?_eq_some_iff {negative : Bool} {mantissa : Nat} {exponent : Int}
    (canonical : IsCanonical mantissa exponent) (n : Int) :
    (Binary.finite negative mantissa exponent).toInt? = some n ↔
      (Binary.finite negative mantissa exponent).amount? = some (.inl (n * unit)) := by
  have least := canonical.least
  unfold toInt? amount? unit
  rw [Option.some_inj, Sum.inl.injEq]
  dsimp only
  generalize signed : (if negative = true then -(mantissa : Int) else mantissa) = count
  have divides : ∀ k : Nat, mantissa % k = 0 ↔ (k : Int) ∣ count := by
    intro k
    rw [← signed, ← Nat.dvd_iff_mod_eq_zero, ← Int.natCast_dvd_natCast]
    split
    · rw [Int.dvd_neg]
    · rfl
  have power : ∀ k : Nat, ((Nat.pow 2 k : Nat) : Int) = 2 ^ k := fun k => Nat.cast_pow 2 k
  have some : ∀ k : Nat, (2 : Int) ^ k ≠ 0 := fun k => pow_ne_zero k two_ne_zero
  split
  · have more : (exponent + 1074).toNat = exponent.toNat + 1074 := by omega
    rw [Option.some_inj, power, more, pow_add, ← mul_assoc, mul_left_inj' (some 1074)]
  · have scale : (2 : Int) ^ 1074 =
        2 ^ (-exponent).toNat * 2 ^ (exponent + 1074).toNat := by
      rw [← pow_add]
      congr 1
      omega
    rw [scale, ← mul_assoc, mul_left_inj' (some _), power]
    generalize (-exponent).toNat = k
    have split := divides (Nat.pow 2 k)
    rw [power] at split
    constructor
    · intro found
      split at found
      · next whole =>
        cases found
        exact (Int.ediv_mul_cancel (split.mp whole)).symm
      · cases found
    · intro whole
      rw [if_pos (split.mpr ⟨n, by rw [whole, mul_comm]⟩), whole, Int.mul_ediv_cancel _ (some k)]

/-- A float is equal to the whole number of its amount. -/
theorem toInt?_ofFloat_eq_some_iff {x : Float} {n : Int} :
    (ofFloat x).toInt? = some n ↔ (ofFloat x).amount? = some (.inl (n * unit)) := by
  cases parts : ofFloat x with
  | nan => exact ⟨nofun, nofun⟩
  | infinite negative => exact ⟨nofun, nofun⟩
  | finite negative mantissa exponent =>
    exact toInt?_eq_some_iff (isCanonical_of_ofFloat parts) n

theorem compare_eq_eq_iff {s t : UnpackedFloat.Sign} : compare s t = .eq ↔ s = t := by
  cases s <;> cases t <;> simp [compare]

/-- Finite floats that are not zero are equal when they have the same parts. -/
theorem compare_finite_eq_iff {s t : UnpackedFloat.Sign} {m n : Nat} {e f : Int} {h : 0 < m}
    {k : 0 < n} :
    (UnpackedFloat.finite s m e h).compare (.finite t n f k) = some .eq ↔
      s = t ∧ m = n ∧ e = f := by
  have finite : (compare e f).then (compare m n) = .eq ↔ m = n ∧ e = f := by
    rw [Ordering.then_eq_eq, compare_eq_iff_eq, compare_eq_iff_eq, and_comm]
  cases s <;> cases t
  case positive.positive =>
    change some ((compare e f).then (compare m n)) = some .eq ↔ _
    rw [Option.some_inj, finite]
    exact (and_iff_right rfl).symm
  case negative.negative =>
    change some ((compare e f).then (compare m n)).swap = some .eq ↔ _
    rw [Option.some_inj, Ordering.swap_eq_eq, finite]
    exact (and_iff_right rfl).symm
  all_goals
    constructor
    · intro same
      cases same
    · rintro ⟨same, _⟩
      cases same

/-- Floats are equal when they are zero or have the same parts. -/
theorem compare_eq_some_eq_iff {u v : UnpackedFloat} :
    u.compare v = some .eq ↔ (∃ s t, u = .zero s ∧ v = .zero t) ∨ u = v ∧ u ≠ .notANumber := by
  rcases u with s | _ | s | ⟨s, m, e, h⟩ <;> rcases v with t | _ | t | ⟨t, n, f, k⟩
  case infinity.infinity =>
    change some (compare s t) = some .eq ↔ _
    rw [Option.some_inj, compare_eq_eq_iff]
    constructor
    · rintro rfl
      refine Or.inr ⟨rfl, ?_⟩
      intro same
      cases same
    · rintro (⟨_, _, same, _⟩ | ⟨same, _⟩)
      · cases same
      · cases same
        rfl
  case zero.zero => exact ⟨fun _ => Or.inl ⟨s, t, rfl, rfl⟩, fun _ => rfl⟩
  case finite.finite =>
    rw [compare_finite_eq_iff]
    constructor
    · rintro ⟨rfl, rfl, rfl⟩
      refine Or.inr ⟨rfl, ?_⟩
      intro same
      cases same
    · rintro (⟨_, _, same, _⟩ | ⟨same, _⟩)
      · cases same
      · cases same
        exact ⟨rfl, rfl, rfl⟩
  -- Floats of different kinds are different, and what is not a number is equal to nothing.
  all_goals
    constructor
    · intro same
      (try cases s) <;> (try cases t) <;> cases same
    · rintro (⟨_, _, one, other⟩ | ⟨same, number⟩)
      · cases one <;> cases other
      · first | exact absurd rfl number | cases same

/-- Finite floats of the same amount have the same parts, except for the sign of zero. -/
theorem eq_of_amount?_finite {s t : Bool} {m n : Nat} {e f : Int} (left : IsCanonical m e)
    (right : IsCanonical n f)
    (same : (Binary.finite s m e).amount? = (Binary.finite t n f).amount?) :
    (m = n ∧ e = f) ∧ (0 < m → s = t) := by
  have absolute : ∀ (negative : Bool) (count scale : Nat),
      ((if negative = true then -(count : Int) else count) * 2 ^ scale).natAbs =
        count * 2 ^ scale := by
    intro negative count scale
    rw [Int.natAbs_mul, Int.natAbs_pow]
    split <;> simp
  have amounts := Sum.inl.inj (Option.some.inj same)
  have scaled := congrArg Int.natAbs amounts
  rw [absolute, absolute] at scaled
  obtain ⟨rfl, rfl⟩ := eq_of_scaled left right scaled
  refine ⟨⟨rfl, rfl⟩, fun positive => ?_⟩
  have counts := mul_right_cancel₀ (pow_ne_zero _ two_ne_zero) amounts
  cases s <;> cases t <;> simp at counts ⊢ <;> omega

/-- Floats are equal when they have the same amount. -/
theorem beq_iff_amount? {x y : Float} :
    (x == y) = true ↔
      ∃ amount, (ofFloat x).amount? = some amount ∧ (ofFloat y).amount? = some amount := by
  have unfolded : (x == y) = (x.toModel.unpack.compare y.toModel.unpack == some .eq) := rfl
  have leftCanonical := @isCanonical_of_ofFloat x
  have rightCanonical := @isCanonical_of_ofFloat y
  rw [unfolded, beq_iff_eq, compare_eq_some_eq_iff]
  rw [ofFloat_eq] at leftCanonical rightCanonical ⊢
  rw [ofFloat_eq] at ⊢
  generalize x.toModel.unpack = u at *
  generalize y.toModel.unpack = v at *
  constructor
  · rintro (⟨s, t, rfl, rfl⟩ | ⟨rfl, number⟩)
    · have nothing : ∀ negative, (Binary.finite negative 0 (-1074)).amount? = some (.inl 0) := by
        simp [amount?]
      exact ⟨.inl 0, nothing _, nothing _⟩
    · cases u with
      | notANumber => exact absurd rfl number
      | infinity s => exact ⟨_, rfl, rfl⟩
      | zero s => exact ⟨_, rfl, rfl⟩
      | finite s m e h => exact ⟨_, rfl, rfl⟩
  · rintro ⟨amount, left, right⟩
    rw [← right] at left
    have signs : ∀ {s t : UnpackedFloat.Sign}, (s == .negative) = (t == .negative) → s = t := by
      intro s t same
      cases s <;> cases t <;> first | rfl | cases same
    -- A zero has the least exponent, and no other finite float has its mantissa.
    rcases u with s | _ | s | ⟨s, m, e, h⟩ <;> rcases v with t | _ | t | ⟨t, n, f, k⟩
    case infinity.infinity =>
      rw [signs (Sum.inr.inj (Option.some.inj left))]
      refine Or.inr ⟨rfl, ?_⟩
      intro same
      cases same
    case zero.zero => exact Or.inl ⟨s, t, rfl, rfl⟩
    case zero.finite =>
      have parts := eq_of_amount?_finite (leftCanonical rfl) (rightCanonical rfl) left
      exact absurd parts.1.1 k.ne
    case finite.zero =>
      have parts := eq_of_amount?_finite (leftCanonical rfl) (rightCanonical rfl) left
      exact absurd parts.1.1 h.ne'
    case finite.finite =>
      have parts := eq_of_amount?_finite (leftCanonical rfl) (rightCanonical rfl) left
      obtain ⟨⟨rfl, rfl⟩, same⟩ := parts
      rw [signs (same h)]
      refine Or.inr ⟨rfl, ?_⟩
      intro same
      cases same
    all_goals cases left
    all_goals cases right

end Binary

end GraphQL.Decimal
