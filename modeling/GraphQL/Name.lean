import GraphQL.Text.Case

/-!
# Public names

A member declared under an identifier with underscores is published in lower camel case:
`appears_in` becomes `appearsIn`. Leading underscores stay, so that `__typename` keeps its form.
-/

namespace GraphQL

/-- Whether a character may be joined to the word before it. -/
def isWordStart (c : Char) : Bool :=
  c.isAlpha || c.isDigit

/-- Writes a text with every run of underscores before an ASCII letter or digit left out and that
letter in upper case. `held` underscores have been read and not yet written. -/
def joinWords : Nat → List Char → List Char
  | held, [] => List.replicate held '_'
  | held, c :: rest =>
    if c = '_' then joinWords (held + 1) rest
    else if 0 < held ∧ isWordStart c then c.toUpper :: joinWords 0 rest
    else List.replicate held '_' ++ c :: joinWords 0 rest

/-- The first character in lower case. -/
def lowerFirst : List Char → List Char
  | [] => []
  | c :: rest => Text.lowercase c ++ rest

/-- The lower camel case of an identifier, given as its characters. -/
def camelCaseChars (identifier : List Char) : List Char :=
  identifier.takeWhile (· == '_') ++ lowerFirst (joinWords 0 (identifier.dropWhile (· == '_')))

/-- The public name of a member declared under an identifier. -/
def camelCase (identifier : String) : String :=
  String.ofList (camelCaseChars identifier.toList)

end GraphQL
