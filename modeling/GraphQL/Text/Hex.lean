import GraphQL.Text.Quoted

/-!
# Hexadecimal text

Bytes as two digits each. Blanks of ASCII may stand between the bytes of a text that is read.
-/

namespace GraphQL.Text

/-- The value of a hexadecimal digit. -/
def hexValue? (c : Char) : Option Nat :=
  if c.isDigit then some (c.toNat - '0'.toNat)
  else if 'a' ≤ c.toLower ∧ c.toLower ≤ 'f' then some (c.toLower.toNat - 'a'.toNat + 10)
  else none

/-- Whether a character is a blank of ASCII. -/
def isAsciiBlank (c : Char) : Bool :=
  c == ' ' || (9 ≤ c.toNat && c.toNat ≤ 13)

/-- The bytes of a text that begins at a position, or the position of what is in their way. -/
def readBytes (position : Nat) : List Char → Except Nat (List UInt8)
  | [] => .ok []
  | [last] =>
    if isAsciiBlank last then .ok []
    else .error (if (hexValue? last).isSome then position + 1 else position)
  | high :: low :: rest =>
    if isAsciiBlank high then readBytes (position + 1) (low :: rest)
    else match hexValue? high, hexValue? low with
      | some upper, some lower =>
        (readBytes (position + 2) rest).map ((upper * 16 + lower).toUInt8 :: ·)
      | some _, none => .error (position + 1)
      | none, _ => .error position

/-- The bytes of a hexadecimal text, or the position of what is in their way: of a character beyond
ASCII before any other. -/
def ofHex (text : List Char) : Except Nat (List UInt8) :=
  match text.findIdx? fun c => 0x80 ≤ c.toNat with
  | some position => .error position
  | none => readBytes 0 text

/-- The bytes of a hexadecimal text, or what is said of a text with something else in it. -/
def readHex (text : String) : Except String (List UInt8) :=
  (ofHex text.toList).mapError fun position =>
    "non-hexadecimal number found in fromhex() arg at position " ++ toString position

/-- The hexadecimal text of bytes. -/
def toHex (bytes : List UInt8) : List Char :=
  bytes.flatMap fun byte => [hexDigit (byte.toNat / 16), hexDigit (byte.toNat % 16)]

end GraphQL.Text
