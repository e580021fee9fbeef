/-!
# Blank characters

Numbers written as text may stand between characters of the Unicode property `White_Space`;
settings read from the environment may besides stand between the four ASCII information separators.
-/

namespace GraphQL.Text

/-- The Unicode property `White_Space`. -/
def isBlank (c : Char) : Bool :=
  let code := c.toNat
  (9 ≤ code && code ≤ 13) || code == 0x20 || code == 0x85 || code == 0xa0 || code == 0x1680 ||
    (0x2000 ≤ code && code ≤ 0x200a) || code == 0x2028 || code == 0x2029 || code == 0x202f ||
    code == 0x205f || code == 0x3000

/-- A blank or one of the ASCII information separators. -/
def isSpacing (c : Char) : Bool :=
  isBlank c || (0x1c ≤ c.toNat && c.toNat ≤ 0x1f)

/-- The text without the characters in `p` at either end. -/
def trimBy (p : Char → Bool) (text : List Char) : List Char :=
  ((text.dropWhile p).reverse.dropWhile p).reverse

end GraphQL.Text
