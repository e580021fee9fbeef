/-!
# Shortest decimal text of a float

A finite float is `mantissa * 2 ^ exponent`. Every real number strictly between the two midpoints
to its neighbours rounds to it, and so do the midpoints themselves when the mantissa is even. Its
text has the fewest digits with which some decimal number rounds to it, and of the decimal numbers
with that many digits it is the nearest.
-/

namespace GraphQL.Decimal

/-- A float taken apart; the sign of zero is kept. -/
inductive Binary where
  | nan
  | infinite (negative : Bool)
  | finite (negative : Bool) (mantissa : Nat) (exponent : Int)
  deriving DecidableEq

/-- The parts of a float, read off its bits. -/
def Binary.ofFloat (x : Float) : Binary :=
  let bits := x.toBits.toNat
  let negative := bits / Nat.pow 2 63 == 1
  let field := bits / Nat.pow 2 52 % Nat.pow 2 11
  let fraction := bits % Nat.pow 2 52
  if field = 2047 then if fraction = 0 then .infinite negative else .nan
  else if field = 0 then .finite negative fraction (-1074)
  else .finite negative (Nat.pow 2 52 + fraction) ((field : Int) - 1075)

/-- A nonnegative rational number; the denominator is positive. -/
structure Ratio where
  num : Nat
  den : Nat

/-- `count * base ^ exponent`. -/
def Ratio.scaled (count base : Nat) (exponent : Int) : Ratio :=
  if 0 ≤ exponent then ⟨count * Nat.pow base exponent.toNat, 1⟩
  else ⟨count, Nat.pow base (-exponent).toNat⟩

/-- Whether one number is less than another. -/
def Ratio.lt (a b : Ratio) : Bool :=
  a.num * b.den < b.num * a.den

/-- Whether one number is at most another. -/
def Ratio.le (a b : Ratio) : Bool :=
  a.num * b.den ≤ b.num * a.den

/-- The distance between two numbers. -/
def Ratio.dist (a b : Ratio) : Ratio :=
  let left := a.num * b.den
  let right := b.num * a.den
  ⟨(left - right) + (right - left), a.den * b.den⟩

/-- How many decimal digits a positive number has. -/
def digitCount (n : Nat) : Nat :=
  (Nat.toDigits 10 n).length

/-- The exponent of the greatest power of ten that is at most a positive number. -/
def Ratio.log10 (r : Ratio) : Int :=
  if r.den ≤ r.num then (digitCount (r.num / r.den) : Int) - 1
  else
    let count := digitCount (r.den / r.num)
    if r.num * Nat.pow 10 (count - 1) = r.den then -((count : Int) - 1) else -(count : Int)

/-- The numbers that round to a float: an interval with or without its two ends. -/
structure Rounding where
  low : Ratio
  high : Ratio
  closed : Bool

/-- Whether a number rounds to the float. -/
def Rounding.contains (interval : Rounding) (r : Ratio) : Bool :=
  if interval.closed then interval.low.le r && r.le interval.high
  else interval.low.lt r && r.lt interval.high

/-- The numbers that round to `mantissa * 2 ^ exponent`. Below a power of two the neighbour is
half as far away as above, unless the numbers there are subnormal. -/
def Rounding.around (mantissa : Nat) (exponent : Int) : Rounding :=
  let below := if mantissa = Nat.pow 2 52 ∧ exponent ≠ -1074 then 1 else 2
  { low := .scaled (4 * mantissa - below) 2 (exponent - 2)
    high := .scaled (4 * mantissa + 2) 2 (exponent - 2)
    closed := mantissa % 2 == 0 }

/-- A decimal number `digits * 10 ^ exponent`. -/
structure Numeral where
  digits : Nat
  exponent : Int
  deriving DecidableEq

/-- The number that a numeral stands for. -/
def Numeral.value (n : Numeral) : Ratio :=
  .scaled n.digits 10 n.exponent

/-- Of the two numerals around `value` in steps of `10 ^ exponent`, the nearest that rounds to the
float, an even one on a tie. -/
def nearestOnGrid (interval : Rounding) (value : Ratio) (exponent : Int) : Option Numeral :=
  let unit := Ratio.scaled 1 10 exponent
  let below := value.num * unit.den / (value.den * unit.num)
  let lower : Numeral := ⟨below, exponent⟩
  let upper : Numeral := ⟨below + 1, exponent⟩
  match interval.contains lower.value, interval.contains upper.value with
  | false, false => none
  | true, false => some lower
  | false, true => some upper
  | true, true =>
    let down := lower.value.dist value
    let up := upper.value.dist value
    if down.lt up then some lower
    else if up.lt down then some upper
    else if below % 2 = 0 then some lower else some upper

/-- The first grid, from the coarsest on, that has a numeral for the float. -/
def firstOnGrid (interval : Rounding) (value : Ratio) (top : Int) : Nat → Nat → Numeral
  | 0, _ => ⟨0, 0⟩
  | fuel + 1, count =>
    match nearestOnGrid interval value (top - count) with
    | some numeral => numeral
    | none => firstOnGrid interval value top fuel (count + 1)

/-- The numeral without trailing zeros. -/
def Numeral.trim : Nat → Numeral → Numeral
  | 0, n => n
  | fuel + 1, n =>
    if n.digits ≠ 0 ∧ n.digits % 10 = 0 then trim fuel ⟨n.digits / 10, n.exponent + 1⟩ else n

/-- The shortest numeral of the positive float `mantissa * 2 ^ exponent`. Seventeen digits always
suffice. -/
def shortest (mantissa : Nat) (exponent : Int) : Numeral :=
  let value := Ratio.scaled mantissa 2 exponent
  (firstOnGrid (.around mantissa exponent) value value.log10 18 0).trim 18

/-- A numeral in positional notation between `10 ^ -4` and `10 ^ 16`, with at least one digit after
the point, otherwise with a signed exponent of at least two digits. -/
def Numeral.text (n : Numeral) : String :=
  let digits := Nat.toDigits 10 n.digits
  let count : Int := digits.length
  let point := count + n.exponent
  if -4 < point ∧ point ≤ 16 then
    if point ≤ 0 then
      String.ofList ('0' :: '.' :: (List.replicate (-point).toNat '0' ++ digits))
    else if count ≤ point then
      String.ofList (digits ++ List.replicate (point - count).toNat '0' ++ ['.', '0'])
    else
      String.ofList (digits.take point.toNat ++ '.' :: digits.drop point.toNat)
  else
    let order := point - 1
    let size := Nat.toDigits 10 order.natAbs
    let tail := if digits.length ≤ 1 then [] else '.' :: digits.drop 1
    String.ofList (digits.take 1 ++ tail ++ ['e', if order < 0 then '-' else '+'] ++
      (if size.length < 2 then '0' :: size else size))

/-- The text of a float. -/
def floatText (x : Float) : String :=
  match Binary.ofFloat x with
  | .nan => "nan"
  | .infinite negative => if negative then "-inf" else "inf"
  | .finite negative mantissa exponent =>
    let body := if mantissa = 0 then "0.0" else (shortest mantissa exponent).text
    if negative then "-" ++ body else body

end GraphQL.Decimal
