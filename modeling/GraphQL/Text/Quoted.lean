import GraphQL.Text.Printable

/-!
# Quoted text

How a message shows a text: between single quotes, or between double quotes when the text holds a
single quote and no double one. The quote in use, the backslash and unprintable characters are
escaped, the latter by their code point in the shortest of three widths.
-/

namespace GraphQL.Text

/-- A digit of a hexadecimal numeral in lower case. -/
def hexDigit (n : Nat) : Char :=
  Nat.digitChar (n % 16)

/-- The last `width` hexadecimal digits of a number. -/
def hexDigits : Nat → Nat → List Char
  | 0, _ => []
  | width + 1, n => hexDigits width (n / 16) ++ [hexDigit n]

/-- The escape of a code point: `\xNN`, `\uNNNN` or `\UNNNNNNNN`. -/
def escapeCode (code : Nat) : List Char :=
  if code < 0x100 then '\\' :: 'x' :: hexDigits 2 code
  else if code < 0x10000 then '\\' :: 'u' :: hexDigits 4 code
  else '\\' :: 'U' :: hexDigits 8 code

/-- One character of a quoted text. -/
def quoteChar (quote c : Char) : List Char :=
  if c = quote ∨ c = '\\' then ['\\', c]
  else if c = '\n' then ['\\', 'n']
  else if c = '\r' then ['\\', 'r']
  else if c = '\t' then ['\\', 't']
  else if isPrintable c then [c]
  else escapeCode c.toNat

/-- The quote that a text is shown in. -/
def chooseQuote (text : List Char) : Char :=
  if '\x27' ∈ text ∧ '"' ∉ text then '"' else '\x27'

/-- The text as a message shows it. -/
def quoted (text : String) : String :=
  let quote := chooseQuote text.toList
  String.ofList (quote :: (text.toList.flatMap (quoteChar quote) ++ [quote]))

/-- One byte of a quoted byte string: ASCII characters as in a text, other bytes escaped. -/
def quoteByte (quote : Char) (byte : UInt8) : List Char :=
  if byte.toNat < 0x80 then quoteChar quote (Char.ofNat byte.toNat) else escapeCode byte.toNat

/-- A byte string as a message shows it. -/
def quotedBytes (bytes : List UInt8) : String :=
  let quote := chooseQuote (bytes.map fun byte => Char.ofNat byte.toNat)
  String.ofList ('b' :: quote :: (bytes.flatMap (quoteByte quote) ++ [quote]))

end GraphQL.Text
