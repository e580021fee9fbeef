/-!
# Lines of a text

A text that was written is read back line by line. Besides the line feed there are other characters
that end a line; a carriage return and the line feed after it end one line together.
-/

namespace GraphQL.Text

/-- The characters that end a line. -/
def isLineEnd (c : Char) : Bool :=
  let code := c.toNat
  (0x0a ≤ code && code ≤ 0x0d) || (0x1c ≤ code && code ≤ 0x1e) || code == 0x85 ||
    code == 0x2028 || code == 0x2029

/-- The lines of a text. What follows the last end is a line only if it is not empty. -/
def lines : List Char → List (List Char)
  | [] => []
  | '\r' :: '\n' :: rest => [] :: lines rest
  | c :: rest =>
    if isLineEnd c then [] :: lines rest
    else match lines rest with
      | [] => [[c]]
      | line :: more => (c :: line) :: more

end GraphQL.Text
