import GraphQL.Text.Quoted

/-!
# Paths

A path leads from the root of a response, or of an input value, to one place inside it. Each step
is the key of an object or the index of a list.
-/

namespace GraphQL

/-- One step of a path. -/
inductive PathKey where
  | key (name : String)
  | index (i : Int)
  deriving DecidableEq

/-- A path, outermost step first. -/
abbrev Path := List PathKey

/-- The bare text of a step. -/
def PathKey.text : PathKey → String
  | .key name => name
  | .index i => toString i

/-- A step as a message shows it inside a list. -/
def PathKey.describe : PathKey → String
  | .key name => Text.quoted name
  | .index i => toString i

/-- A response path: its steps joined with points. -/
def Path.text (path : Path) : String :=
  ".".intercalate (path.map PathKey.text)

/-- A response path as a message shows it. -/
def Path.describe (path : Path) : String :=
  "[" ++ ", ".intercalate (path.map PathKey.describe) ++ "]"

/-- A response path that may be missing, as a message shows it. -/
def describePath? : Option Path → String
  | none => "None"
  | some path => path.describe

/-- One step of an input path after others. -/
def PathKey.inputSuffix : PathKey → String
  | .key name => "." ++ name
  | .index i => "[" ++ toString i ++ "]"

/-- An input path such as `ids[1].name`. -/
def describeInputPath : Path → String
  | [] => ""
  | first :: rest =>
    let head := match first with
      | .key name => name
      | .index _ => first.inputSuffix
    head ++ String.join (rest.map PathKey.inputSuffix)

/-- A place in the source text of an operation. -/
structure Location where
  line : Int
  column : Int
  deriving DecidableEq

end GraphQL
