import GraphQL.Text.Json
import Mathlib.Algebra.Ring.Nat

/-!
# JSON text can be read back

Where one JSON string literal ends and what text it stands for can be told from the characters,
even if others follow: no character is written like the beginning of another, and none is written
like the closing quote. Characters above the basic plane are pairs of code units that stand for no
character by themselves.
-/

namespace GraphQL.Text

/-- Digits of hexadecimal numerals are different. -/
theorem mod_eq_of_hexDigit {m n : Nat} (same : hexDigit m = hexDigit n) : m % 16 = n % 16 := by
  have injective : ∀ a < 16, ∀ b < 16, Nat.digitChar a = Nat.digitChar b → a = b := by decide
  exact injective _ (Nat.mod_lt _ (by decide)) _ (Nat.mod_lt _ (by decide)) same

theorem length_hexDigits (width n : Nat) : (hexDigits width n).length = width := by
  induction width generalizing n with
  | zero => rfl
  | succ width ih => rw [hexDigits, List.length_append, ih, List.length_singleton]

/-- Numerals of one width stand for one number, as far as the width goes. -/
theorem mod_eq_of_hexDigits {width m n : Nat} (same : hexDigits width m = hexDigits width n) :
    m % 16 ^ width = n % 16 ^ width := by
  induction width generalizing m n with
  | zero => rw [Nat.pow_zero, Nat.mod_one, Nat.mod_one]
  | succ width ih =>
    obtain ⟨front, last⟩ := List.append_inj same (by rw [length_hexDigits, length_hexDigits])
    have high := ih front
    have low := mod_eq_of_hexDigit (List.head_eq_of_cons_eq last)
    rw [Nat.pow_succ', Nat.mod_mul, Nat.mod_mul, low, high]

/-- The escape of a code unit. -/
def unitEscape (unit : Nat) : List Char :=
  '\\' :: 'u' :: hexDigits 4 unit

theorem unit_eq_of_escape {m n : Nat} (small : m < 0x10000) (other : n < 0x10000)
    {rest more : List Char} (same : unitEscape m ++ rest = unitEscape n ++ more) :
    m = n ∧ rest = more := by
  obtain ⟨escapes, rests⟩ := List.append_inj same (by simp [unitEscape, length_hexDigits])
  have digits : hexDigits 4 m = hexDigits 4 n := by
    injection escapes with _ escapes
    injection escapes
  have modulo := mod_eq_of_hexDigits digits
  refine ⟨?_, rests⟩
  omega

/-- A character is no surrogate. -/
theorem not_surrogate (c : Char) : c.toNat < 0xd800 ∨ 0xdfff < c.toNat ∧ c.toNat < 0x110000 := by
  rcases c.valid with low | high
  · exact Or.inl low
  · exact Or.inr high

/-- The code units of a character: one that is no surrogate, or a surrogate of each kind. -/
theorem codeUnits_cases (c : Char) :
    (c.toNat < 0x10000 ∧ codeUnits c = [c.toNat]) ∨
    ∃ high low, high < 0x400 ∧ low < 0x400 ∧ c.toNat = 0x10000 + high * 0x400 + low ∧
      codeUnits c = [0xd800 + high, 0xdc00 + low] := by
  have valid := not_surrogate c
  unfold codeUnits
  dsimp only
  split
  · next small => exact Or.inl ⟨small, rfl⟩
  · exact Or.inr ⟨(c.toNat - 0x10000) / 0x400, (c.toNat - 0x10000) % 0x400, by omega, by omega,
      by omega, rfl⟩

/-- The escape of a character by its code units can be read back. -/
theorem eq_of_codeUnits {c d : Char} {rest more : List Char}
    (same : (codeUnits c).flatMap unitEscape ++ rest = (codeUnits d).flatMap unitEscape ++ more) :
    c = d ∧ rest = more := by
  have here := not_surrogate c
  have there := not_surrogate d
  have codes : c.toNat = d.toNat → c = d := fun equal => Char.ext (UInt32.toNat_inj.mp equal)
  rcases codeUnits_cases c with ⟨small, units⟩ | ⟨high, low, _, _, code, units⟩ <;>
    rcases codeUnits_cases d with ⟨other, more⟩ | ⟨upper, lower, _, _, value, more⟩ <;>
    simp only [units, more, List.flatMap_cons, List.flatMap_nil, List.append_nil,
      List.append_assoc] at same
  · obtain ⟨equal, rests⟩ := unit_eq_of_escape small other same
    exact ⟨codes equal, rests⟩
  · have equal := (unit_eq_of_escape small (by omega) same).1
    omega
  · have equal := (unit_eq_of_escape (by omega) other same).1
    omega
  · obtain ⟨first, same⟩ := unit_eq_of_escape (by omega) (by omega) same
    obtain ⟨second, rests⟩ := unit_eq_of_escape (by omega) (by omega) same
    exact ⟨codes (by omega), rests⟩

/-- The characters with a short escape, with the letter of the escape. -/
def shortEscapes : List (Char × Char) :=
  [('"', '"'), ('\\', '\\'), ('\n', 'n'), ('\r', 'r'), ('\t', 't'), (Char.ofNat 8, 'b'),
    (Char.ofNat 12, 'f')]

/-- The forms in which characters are written. -/
inductive CharForm (c : Char) : List Char → Prop where
  | short {letter : Char} : (c, letter) ∈ shortEscapes → CharForm c ['\\', letter]
  | plain : c ≠ '"' → c ≠ '\\' → CharForm c [c]
  | units : CharForm c ((codeUnits c).flatMap unitEscape)

theorem charForm_jsonChar (c : Char) : CharForm c (jsonChar c) := by
  have code : ∀ n, c.toNat = n → c = Char.ofNat n := fun n same => by
    rw [← same, Char.ofNat_toNat]
  unfold jsonChar
  split
  · next quoted =>
    rcases quoted with rfl | rfl
    · exact .short (by decide)
    · exact .short (by decide)
  · next unquoted =>
    obtain ⟨quote, backslash⟩ := not_or.mp unquoted
    split
    · next same => exact .short (by rw [same]; decide)
    · split
      · next same => exact .short (by rw [same]; decide)
      · split
        · next same => exact .short (by rw [same]; decide)
        · split
          · next same => exact .short (by rw [code 8 same]; decide)
          · split
            · next same => exact .short (by rw [code 12 same]; decide)
            · split
              · exact .plain quote backslash
              · exact .units

namespace CharForm

variable {c d : Char} {form other rest more : List Char}

/-- Code units are written with the letter that is that of no short escape. -/
theorem exists_of_codeUnits (c : Char) :
    ∃ tail, (codeUnits c).flatMap unitEscape = '\\' :: 'u' :: tail := by
  rcases codeUnits_cases c with ⟨_, units⟩ | ⟨_, _, _, _, _, units⟩ <;> rw [units] <;>
    exact ⟨_, rfl⟩

/-- No character is written like the closing quote. -/
theorem exists_cons (written : CharForm c form) : ∃ first tail, form = first :: tail ∧
    first ≠ '"' := by
  cases written with
  | short => exact ⟨_, _, rfl, by decide⟩
  | plain quote => exact ⟨_, _, rfl, quote⟩
  | units =>
    obtain ⟨tail, same⟩ := exists_of_codeUnits c
    exact ⟨_, _, same, by decide⟩

/-- Which character is written at the beginning of a text, and where the rest of the text begins,
can be told from the text. -/
theorem unique (written : CharForm c form) (likewise : CharForm d other)
    (same : form ++ rest = other ++ more) : c = d ∧ rest = more := by
  have letters : ∀ one ∈ shortEscapes, ∀ two ∈ shortEscapes, one.2 = two.2 → one.1 = two.1 := by
    decide
  have short : ∀ one ∈ shortEscapes, one.2 ≠ 'u' := by decide
  cases written with
  | short among =>
    cases likewise with
    | short member =>
      injection same with _ same
      injection same with letter rests
      exact ⟨letters _ among _ member letter, rests⟩
    | plain _ backslash =>
      injection same with first
      exact absurd first.symm backslash
    | units =>
      obtain ⟨tail, units⟩ := exists_of_codeUnits d
      rw [units] at same
      injection same with _ same
      injection same with letter
      exact absurd letter (short _ among)
  | plain _ backslash =>
    cases likewise with
    | short =>
      injection same with first
      exact absurd first backslash
    | plain =>
      injection same with first rests
      exact ⟨first, rests⟩
    | units =>
      obtain ⟨tail, units⟩ := exists_of_codeUnits d
      rw [units] at same
      injection same with first
      exact absurd first backslash
  | units =>
    cases likewise with
    | short member =>
      obtain ⟨tail, units⟩ := exists_of_codeUnits c
      rw [units] at same
      injection same with _ same
      injection same with letter
      exact absurd letter.symm (short _ member)
    | plain _ backslash =>
      obtain ⟨tail, units⟩ := exists_of_codeUnits c
      rw [units] at same
      injection same with first
      exact absurd first.symm backslash
    | units => exact eq_of_codeUnits same

end CharForm

/-- A text inside a JSON string literal, with the closing quote. -/
def jsonBody (text : List Char) : List Char :=
  text.flatMap jsonChar ++ ['"']

theorem jsonBody_cons (c : Char) (text : List Char) :
    jsonBody (c :: text) = jsonChar c ++ jsonBody text := by
  rw [jsonBody, jsonBody, List.flatMap_cons, List.append_assoc]

theorem exists_jsonBody_cons (c : Char) (text : List Char) : ∃ first tail,
    jsonBody (c :: text) = first :: tail ∧ first ≠ '"' := by
  obtain ⟨first, tail, written, differs⟩ := (charForm_jsonChar c).exists_cons
  rw [jsonBody_cons, written]
  exact ⟨first, _, rfl, differs⟩

/-- Which text a JSON string literal stands for, and where it ends, can be told from the
characters. -/
theorem eq_of_jsonBody {text other rest more : List Char}
    (same : jsonBody text ++ rest = jsonBody other ++ more) : text = other ∧ rest = more := by
  induction text generalizing other with
  | nil =>
    cases other with
    | nil => exact ⟨rfl, List.append_cancel_left same⟩
    | cons d other =>
      obtain ⟨first, tail, written, differs⟩ := exists_jsonBody_cons d other
      rw [written] at same
      injection same with quote
      exact absurd quote.symm differs
  | cons c text ih =>
    cases other with
    | nil =>
      obtain ⟨first, tail, written, differs⟩ := exists_jsonBody_cons c text
      rw [written] at same
      injection same with quote
      exact absurd quote differs
    | cons d other =>
      rw [jsonBody_cons, jsonBody_cons, List.append_assoc, List.append_assoc] at same
      obtain ⟨rfl, bodies⟩ := (charForm_jsonChar c).unique (charForm_jsonChar d) same
      obtain ⟨rfl, rests⟩ := ih bodies
      exact ⟨rfl, rests⟩

end GraphQL.Text
