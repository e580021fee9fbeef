import GraphQL.Text.Quoted

/-!
# JSON string literals in ASCII

Characters outside printable ASCII are written as `\uXXXX`, those above the basic plane as a
surrogate pair.
-/

namespace GraphQL.Text

/-- The UTF-16 code units of a character. -/
def codeUnits (c : Char) : List Nat :=
  let code := c.toNat
  if code < 0x10000 then [code]
  else [0xd800 + (code - 0x10000) / 0x400, 0xdc00 + (code - 0x10000) % 0x400]

/-- One character of a JSON string literal. -/
def jsonChar (c : Char) : List Char :=
  if c = '"' ∨ c = '\\' then ['\\', c]
  else if c = '\n' then ['\\', 'n']
  else if c = '\r' then ['\\', 'r']
  else if c = '\t' then ['\\', 't']
  else if c.toNat = 8 then ['\\', 'b']
  else if c.toNat = 12 then ['\\', 'f']
  else if 32 ≤ c.toNat ∧ c.toNat < 127 then [c]
  else (codeUnits c).flatMap fun unit => '\\' :: 'u' :: hexDigits 4 unit

/-- The text as a JSON string literal. -/
def jsonString (text : String) : String :=
  String.ofList ('"' :: (text.toList.flatMap jsonChar ++ ['"']))

end GraphQL.Text
