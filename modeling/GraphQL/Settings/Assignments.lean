import GraphQL.Entries
import GraphQL.Text.Blank

/-!
# Files of assignments

A file of assignments gives values to names, one to a line: `NAME=value`, perhaps after `export`. A
value may stand in quotes, with escapes in it and over several lines; otherwise it ends before a
comment. A value may refer to others as `${NAME}` or `${NAME:-fallback}`. A line that is none of
this is passed over, and a name alone has no value.
-/

namespace GraphQL

/-- One assignment; a name alone has no value. -/
structure Assignment where
  name : String
  value : Option String
  deriving DecidableEq

namespace Assignment

/-- Whether a character is spacing inside a line. -/
def isLineSpacing (c : Char) : Bool :=
  Text.isSpacing c && c != '\n' && c != '\r'

/-- Line ends of every kind as line feeds. -/
def unifyLines : List Char → List Char
  | '\r' :: '\n' :: rest => '\n' :: unifyLines rest
  | '\r' :: rest => '\n' :: unifyLines rest
  | c :: rest => c :: unifyLines rest
  | [] => []

/-- The text after the current line. -/
def nextLine (text : List Char) : List Char :=
  (text.dropWhile (· != '\n')).drop 1

/-- The text after `export` and spacing, if it begins with those. -/
def skipExport (text : List Char) : List Char :=
  let word := "export".toList
  if word.isPrefixOf text then
    let rest := text.drop word.length
    let after := rest.dropWhile isLineSpacing
    if after.length < rest.length then after else text
  else text

/-- The text up to a closing quote, and the text after it. A backslash takes the next character with
it. -/
def splitQuoted (quote : Char) : List Char → Option (List Char × List Char)
  | [] => none
  | [c] => if c = quote then some ([], []) else none
  | c :: d :: rest =>
    if c = quote then some ([], d :: rest)
    else if c = '\\' then
      (splitQuoted quote rest).map fun (content, after) => (c :: d :: content, after)
    else (splitQuoted quote (d :: rest)).map fun (content, after) => (c :: content, after)

/-- The character of an escape inside single quotes. -/
def singleEscape? : Char → Option Char
  | '\\' => some '\\'
  | '\x27' => some '\x27'
  | _ => none

/-- The character of an escape inside double quotes. -/
def doubleEscape? : Char → Option Char
  | '\\' => some '\\'
  | '\x27' => some '\x27'
  | '"' => some '"'
  | 'a' => some '\x07'
  | 'b' => some '\x08'
  | 'f' => some '\x0c'
  | 'n' => some '\n'
  | 'r' => some '\r'
  | 't' => some '\t'
  | 'v' => some '\x0b'
  | _ => none

/-- The text with its escapes replaced; a backslash before anything else stays. -/
def unescape (escape? : Char → Option Char) : List Char → List Char
  | '\\' :: c :: rest =>
    match escape? c with
    | some decoded => decoded :: unescape escape? rest
    | none => '\\' :: unescape escape? (c :: rest)
  | c :: rest => c :: unescape escape? rest
  | [] => []

/-- The text before a comment, which begins with a hash after spacing. -/
def beforeComment (afterSpacing : Bool) : List Char → List Char
  | [] => []
  | c :: rest =>
    if c = '#' ∧ afterSpacing then []
    else c :: beforeComment (Text.isSpacing c) rest

/-- The text without spacing at its end. -/
def trimEnd (text : List Char) : List Char :=
  (text.reverse.dropWhile Text.isSpacing).reverse

/-- A value that stands in no quotes, perhaps after spacing. -/
def plainValue (afterSpacing : Bool) (line : List Char) : List Char :=
  trimEnd (beforeComment afterSpacing line)

/-- The name that a line begins with, and the text after it; a comment has no name. Otherwise the
text from which the line is passed over. -/
def readName : List Char → Except (List Char) (Option (List Char) × List Char)
  | [] => .error []
  | '#' :: rest => .ok (none, '#' :: rest)
  | '\x27' :: rest =>
    let name := rest.takeWhile (· != '\x27')
    match name, rest.dropWhile (· != '\x27') with
    | _ :: _, _ :: after => .ok (some name, after)
    | _, _ => .error ('\x27' :: rest)
  | text =>
    let isNameChar c := c != '=' && c != '#' && !Text.isSpacing c
    match text.takeWhile isNameChar with
    | [] => .error text
    | name => .ok (some name, text.dropWhile isNameChar)

/-- The value after an equals sign and perhaps spacing, and the text after it. -/
def readValue (afterSpacing : Bool) : List Char → Except (List Char) (List Char × List Char)
  | '\x27' :: rest =>
    match splitQuoted '\x27' rest with
    | some (content, after) => .ok (unescape singleEscape? content, after)
    | none => .error ('\x27' :: rest)
  | '"' :: rest =>
    match splitQuoted '"' rest with
    | some (content, after) => .ok (unescape doubleEscape? content, after)
    | none => .error ('"' :: rest)
  | text =>
    .ok (plainValue afterSpacing (text.takeWhile (· != '\n')), text.dropWhile (· != '\n'))

/-- The text after the end of a line on which only a comment may follow. -/
def endLine (text : List Char) : Except (List Char) (List Char) :=
  let rest := text.dropWhile isLineSpacing
  match rest with
  | [] => .ok []
  | '\n' :: after => .ok after
  | '#' :: _ => .ok (nextLine rest)
  | _ => .error text

/-- The value of a line after its name, if it has one, and the text after the line. -/
def readRest (text : List Char) : Except (List Char) (Option (List Char) × List Char) :=
  match text.dropWhile isLineSpacing with
  | '=' :: rest => do
    let text := rest.dropWhile isLineSpacing
    let (value, after) ← readValue (text.length < rest.length) text
    return (some value, ← endLine after)
  | rest => do return (none, ← endLine rest)

/-- The assignment of a line that begins with its name, and the text after the line. -/
def readLine (text : List Char) :
    Except (List Char) (Option Assignment × List Char) := do
  let (name, rest) ← readName text
  let (value, after) ← readRest rest
  return (name.map fun name => ⟨String.ofList name, value.map String.ofList⟩, after)

/-- The first assignment of a text, if its first line has one, and the text after the line. -/
def readNext (text : List Char) : Option Assignment × List Char :=
  match text.dropWhile Text.isSpacing with
  | [] => (none, [])
  | rest =>
    match readLine (skipExport rest) with
    | .ok found => found
    | .error passedOver => (none, nextLine passedOver)

/-- The assignments of a text in order. -/
def readAll (text : List Char) : List Assignment :=
  let step := readNext text
  if _shorter : step.2.length < text.length then step.1.toList ++ readAll step.2
  else step.1.toList
termination_by text.length

/-- A piece of a value. -/
inductive Piece where
  | char (c : Char)
  | reference (name fallback : String)

/-- The reference that a text begins with after `${`, and the text after it. -/
def readReference (text : List Char) : Option (Piece × List Char) :=
  let name := String.ofList (text.takeWhile fun c => c != '\x7d' && c != ':')
  match text.dropWhile fun c => c != '\x7d' && c != ':' with
  | '\x7d' :: after => some (.reference name "", after)
  | ':' :: '-' :: rest =>
    match rest.dropWhile (· != '\x7d') with
    | _ :: after => some (.reference name (String.ofList (rest.takeWhile (· != '\x7d'))), after)
    | [] => none
  | _ => none

/-- The first piece of a text, and the text after it. -/
def readPiece (c : Char) (rest : List Char) : Piece × List Char :=
  match c, rest with
  | '$', '\x7b' :: inner => (readReference inner).getD (.char c, rest)
  | _, _ => (.char c, rest)

/-- The pieces of a value. -/
def pieces : List Char → List Piece
  | [] => []
  | c :: rest =>
    let step := readPiece c rest
    if _shorter : step.2.length < rest.length + 1 then step.1 :: pieces step.2 else [step.1]
termination_by text => text.length
decreasing_by exact _shorter

/-- The text of a piece, where `lookup` gives the values of names. -/
def Piece.text (lookup : String → Option String) : Piece → String
  | char c => c.toString
  | reference name fallback => (lookup name).getD fallback

/-- The values of assignments, each of which may refer to those before it and, with precedence, to
an environment. The last assignment to a name counts. -/
def resolve (environment : Entries String) (assignments : List Assignment) :
    Entries (Option String) :=
  assignments.foldl (fun known assignment =>
    let lookup name := Entries.get? environment name <|>
      (Entries.get? known name).map (·.getD "")
    let value := assignment.value.map fun value =>
      String.join ((pieces value.toList).map (Piece.text lookup))
    Entries.insert known assignment.name value) []

/-- A text without the mark of the byte order in front. -/
def dropByteOrderMark : List Char → List Char
  | '\ufeff' :: rest => rest
  | text => text

/-- The values that a file of assignments gives beside an environment. -/
def read (environment : Entries String) (file : String) : Entries (Option String) :=
  resolve environment (readAll (unifyLines (dropByteOrderMark file.toList)))

end Assignment

end GraphQL
