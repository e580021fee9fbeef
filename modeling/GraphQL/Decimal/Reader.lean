import GraphQL.Decimal.Shortest
import GraphQL.Text.Blank
import GraphQL.Text.Digit
import GraphQL.Text.Quoted

/-!
# Numbers written as text

Blanks may stand around a number, and underscores may group its digits.

A whole number is read as it stands, if it is nothing but digits; then it may not be too long.
Otherwise it is tidied first. Zeros in front count for nothing, nor do the underscores among them;
the minus sign may stand before or after them. Nor does a fraction of zeros count.

A float may have a fraction, an exponent, or be one of the words for infinity and for no number. One
with underscores in it may have no blanks around it.
-/

namespace GraphQL.Decimal

/-- Whether two underscores stand side by side. -/
def hasDoubleUnderscore (text : List Char) : Bool :=
  (text.zip (text.drop 1)).any fun pair => pair.1 == '_' && pair.2 == '_'

/-- The text without its underscores, if each of them stands alone between other characters. -/
def ungroup (text : List Char) : List Char :=
  if text.head? == some '_' || text.getLast? == some '_' || hasDoubleUnderscore text then text
  else text.filter (· != '_')

/-- The number that digits stand for. -/
def ofDigits (digits : List Char) : Nat :=
  digits.foldl (fun n c => 10 * n + (c.toNat - '0'.toNat)) 0

/-- Takes a sign off the front of a text; true stands for minus. -/
def takeSign : List Char → Bool × List Char
  | '-' :: rest => (true, rest)
  | '+' :: rest => (false, rest)
  | text => (false, text)

/-- What reading a whole number found. -/
inductive IntReading where
  | notANumber
  | tooLong
  | number (n : Int)
  deriving DecidableEq

/-- The most digits that a whole number may be written with. -/
def maxIntLength : Nat := 4300

/-- What follows zeros and underscores, the last of which is `last`: a digit or a minus sign with
all that comes after it. Of nothing but zeros, and before a fraction, the last one stays. -/
def afterZeros (last : Char) : List Char → Option (List Char)
  | [] => some [last]
  | c :: rest =>
    if c = '0' ∨ c = '_' then afterZeros c rest
    else if c = '.' then some (last :: c :: rest)
    else if c.isDigit ∨ c = '-' then some (c :: rest)
    else none

/-- A text that begins with a digit, without the zeros in front. -/
def dropLeadingZeros : List Char → Option (List Char)
  | [] => none
  | c :: rest =>
    if c = '0' then afterZeros c rest
    else if c.isDigit then some (c :: rest)
    else none

/-- The text without a fraction that has no digits but zeros. -/
def dropZeroFraction (text : List Char) : List Char :=
  match text.dropWhile (· != '.') with
  | _ :: zeros =>
    if !zeros.isEmpty && zeros.all (· == '0') then text.takeWhile (· != '.') else text
  | [] => text

/-- Reads a whole number of digits after a minus sign or none, without zeros in front. Too many
digits are too long, whatever follows them. -/
def readDigits (text : List Char) : IntReading :=
  let (negative, body) := match text with
    | '-' :: rest => (true, rest)
    | _ => (false, text)
  let digits := body.takeWhile Char.isDigit
  let plain := body.all Char.isDigit && (digits.head?.any (· != '0') || digits == ['0'])
  if digits.head?.any (· != '0') && maxIntLength < digits.length then .tooLong
  else if plain then .number (if negative then -(ofDigits digits : Int) else ofDigits digits)
  else .notANumber

/-- A whole number without what may stand around its digits and among them, if it has any. -/
def tidyInt (text : List Char) : Option (List Char) :=
  let (negative, body) := takeSign (Text.trimBy Text.isBlank text)
  (dropLeadingZeros body).map fun number =>
    let digits := ungroup (dropZeroFraction number)
    if negative then '-' :: digits else digits

/-- Reads a whole number as it stands, or else after it was tidied. A tidied one that is too long is
no number. -/
def readInt (text : String) : IntReading :=
  match readDigits text.toList with
  | .notANumber =>
    match (tidyInt text.toList).map readDigits with
    | some (.number n) => .number n
    | _ => .notANumber
  | reading => reading

/-- Whether each underscore stands between two digits; `before` says whether a digit comes before
the text. -/
def groupsDigits (before : Bool) : List Char → Bool
  | [] => true
  | '_' :: rest => before && rest.head?.any Char.isDigit && groupsDigits false rest
  | c :: rest => groupsDigits c.isDigit rest

/-- What stands for a number in a text: it has no blanks around it, and ASCII digits. -/
def numeral (text : String) : List Char :=
  (Text.trimBy Text.isBlank text.toList).map Text.asciiDigit

/-- The most characters of a text that are shown when it is no number. -/
def shownLength : Nat := 200

/-- What is said of a text that is no whole number. -/
def noIntText (text : String) : String :=
  "invalid literal for int() with base 10: " ++
    String.ofList ((Text.quoted text).toList.take shownLength)

/-- What is said of a whole number that is too long. -/
def tooLongText (digitCount : Nat) : String :=
  "Exceeds the limit (" ++ toString maxIntLength ++
    " digits) for integer string conversion: value has " ++ toString digitCount ++
    " digits; use sys.set_int_max_str_digits() to increase the limit"

/-- The whole number that a text stands for exactly, or what is said of a text that is no number or
has more digits than are read, whatever follows them. -/
def readExact (text : String) : Except String Int :=
  let (negative, body) := takeSign (numeral text)
  let grouped := body.takeWhile fun c => c.isDigit || c == '_'
  let digits := grouped.filter (· != '_')
  if digits.isEmpty || !groupsDigits false grouped then .error (noIntText text)
  else if maxIntLength < digits.length then .error (tooLongText digits.length)
  else if grouped.length < body.length then .error (noIntText text)
  else .ok (if negative then -(ofDigits digits : Int) else ofDigits digits)

/-- The float nearest to `mantissa * 10 ^ exponent`. Exponents out of reach of any float are cut
off first. -/
def scientific (mantissa : Nat) (exponent : Int) : Float :=
  let order := (digitCount mantissa : Int) + exponent
  if mantissa = 0 ∨ order < -400 then 0
  else if 400 < order then 1 / 0
  else Float.ofScientific mantissa (exponent < 0) exponent.natAbs

/-- Reads the exponent of a float; none when there is one but it is malformed. -/
def readExponent : List Char → Option Int
  | [] => some 0
  | c :: rest =>
    if c = 'e' ∨ c = 'E' then
      let (negative, digits) := takeSign rest
      if digits.isEmpty || !digits.all Char.isDigit then none
      else some (if negative then -(ofDigits digits : Int) else ofDigits digits)
    else none

/-- Reads the digits, fraction and exponent of a float. -/
def readMagnitude (text : List Char) : Option Float :=
  let whole := text.takeWhile Char.isDigit
  let rest := text.dropWhile Char.isDigit
  let (fraction, tail) := match rest with
    | '.' :: more => (more.takeWhile Char.isDigit, more.dropWhile Char.isDigit)
    | _ => ([], rest)
  if whole.isEmpty && fraction.isEmpty then none
  else (readExponent tail).map fun exponent =>
    scientific (ofDigits (whole ++ fraction)) (exponent - fraction.length)

/-- Reads a float without blanks and underscores. -/
def readPlainFloat (text : List Char) : Option Float :=
  let (negative, body) := takeSign text
  let magnitude :=
    match String.ofList (body.map Char.toLower) with
    | "inf" | "infinity" => some (1 / 0)
    | "nan" => some (0 / 0)
    | _ => readMagnitude body
  magnitude.map fun x => if negative then -x else x

/-- Reads a float. -/
def readFloat (text : String) : Option Float :=
  readPlainFloat (Text.trimBy Text.isBlank text.toList) <|>
    readPlainFloat (ungroup text.toList)

/-- The float that a text stands for exactly, or what is said of a text that is no number. -/
def readExactFloat (text : String) : Except String Float :=
  let body := numeral text
  match if groupsDigits false body then readPlainFloat (body.filter (· != '_')) else none with
  | some x => .ok x
  | none => .error ("could not convert string to float: " ++ Text.quoted text)

end GraphQL.Decimal
