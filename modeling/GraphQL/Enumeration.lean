import GraphQL.Definition
import GraphQL.Text.Blank
import GraphQL.Value.Attribute

/-!
# Enumerations of user code

User code may have enumerations of its own, whose members can stand for the symbols of an enum. Of
symbols with equal values only the first is a member, and the others are other names for it.

Not every name in an enumeration is a symbol. Names between double underscores and names that are
private to the enumeration belong to it in other ways, one of them as its description. Names between
single underscores are reserved; some of them say which names are passed over, and in which order
the members stand.
-/

namespace GraphQL

/-- An enumeration: its symbols with the values behind them, and what else it has under a name. -/
structure Enumeration where
  name : String
  symbols : Entries Value := []
  others : Entries Value := []

/-- Why an enumeration is refused. -/
inductive EnumerationError where
  /-- A name stands for a value already. -/
  | repeated (symbol : String) (value : Value)
  /-- A symbol begins and ends with one underscore. -/
  | reserved (symbol : String)
  /-- Symbols are to be passed over that are there already. -/
  | passedOver (symbols : List String)
  | unusable (symbols : List String)
  /-- The title of the enumeration is no text. -/
  | untitled (title : Value)
  /-- What makes a member cannot be called. -/
  | notCallable (value : Value)
  | notIterable (value : Value)
  | unhashable (typeName : String)
  /-- The members stand in another order than the one that is given. -/
  | misordered (members : List String) (order : List Value)

namespace EnumerationError

/-- The text of a refusal. -/
def message : EnumerationError → String
  | repeated symbol value => Text.quoted symbol ++ " already defined as " ++ value.describe
  | reserved symbol =>
    "_sunder_ names, such as " ++ Text.quoted symbol ++ ", are reserved for future Enum use"
  | passedOver symbols =>
    "_ignore_ cannot specify already set names: \x7b" ++
      ", ".intercalate (symbols.map Text.quoted) ++ "\x7d"
  | unusable symbols =>
    "invalid enum member name(s) " ++ ",".intercalate (symbols.map Text.quoted)
  | untitled title => "type __qualname__ must be a str, not " ++ title.typeName
  | notCallable value => Text.quoted value.typeName ++ " object is not callable"
  | notIterable value => value.notIterable.message
  | unhashable typeName => "unhashable type: " ++ Text.quoted typeName
  | misordered members order =>
    "member order does not match _order_:\n  " ++
      (Value.list (members.map Value.str)).describe ++ "\n  " ++ (Value.list order).describe

/-- The class of a refusal. -/
def kind : EnumerationError → FaultKind
  | reserved _ | passedOver _ | unusable _ => .value
  | _ => .type

/-- The refusal as an error object. -/
def fault (error : EnumerationError) : Fault where
  kind := error.kind
  message := error.message

end EnumerationError

namespace Enumeration

/-- What a name in an enumeration is for. -/
inductive NameUse where
  | symbol
  /-- The name belongs to the enumeration in another way. -/
  | other
  /-- The name gives the names that are passed over. -/
  | passing
  /-- The name gives the order of the members. -/
  | ordering
  | reserved
  deriving DecidableEq

/-- The name of what gives the names that are passed over. -/
def passingName : String := "_ignore_"

/-- The name of what gives the order of the members. -/
def orderingName : String := "_order_"

/-- An older name of what gives the order of the members. -/
def olderOrderingName : String := "__order__"

/-- The name of the description. -/
def descriptionName : String := "__doc__"

/-- The name of the title. -/
def titleName : String := "__qualname__"

/-- Names between single underscores that an enumeration may have besides. -/
def admittedNames : List String :=
  ["_generate_next_value_", "_numeric_repr_", "_missing_", "_iter_member_",
    "_iter_member_by_value_", "_iter_member_by_def_"]

/-- Whether a name stands between exactly `width` underscores, with something in between. -/
def isBetween (width : Nat) (name : List Char) : Bool :=
  let isInner (rest : List Char) : Bool := rest.head?.any (· != '_')
  2 * width < name.length &&
    (name.take width).all (· == '_') && isInner (name.drop width) &&
    (name.reverse.take width).all (· == '_') && isInner (name.reverse.drop width)

/-- Whether a name is private to an enumeration: its name stands before it, between an underscore
and two of them. -/
def isPrivate (enumeration name : String) : Bool :=
  let mark := ("_" ++ enumeration ++ "__").toList
  let name := name.toList
  mark.isPrefixOf name && mark.length < name.length && !(name.reverse.take 2).all (· == '_')

/-- What a name in an enumeration is for. -/
def useOf (enumeration name : String) : NameUse :=
  if isPrivate enumeration name then .other
  else if isBetween 1 name.toList then
    if name = passingName then .passing
    else if name = orderingName then .ordering
    else if admittedNames.contains name then .other
    else .reserved
  else if isBetween 2 name.toList then
    if name = olderOrderingName then .ordering else .other
  else .symbol

/-- The names in a text, between blanks and commas. -/
def namesIn (text : String) : List String :=
  (text.toList.splitBy fun a b => isNameEnd a == isNameEnd b).filterMap fun part =>
    if part.any isNameEnd then none else some (String.ofList part)
where
  /-- Whether a character stands between names. -/
  isNameEnd (c : Char) : Bool := c == ',' || Text.isSpacing c

/-- The names that a value gives: those in a text, or else its elements. All of them must be such
that they can be looked up. -/
def listedNames (value : Value) : Except EnumerationError (List Value) :=
  match value.text? with
  | some text => .ok ((namesIn text).map Value.str)
  | none =>
    match value.elements? with
    | none => .error (.notIterable value)
    | some elements =>
      match elements.findSome? Value.unhashable? with
      | some typeName => .error (.unhashable typeName)
      | none => .ok elements

/-- An enumeration of which some names have been read. -/
structure Draft where
  /-- All that the enumeration has under a name, symbols included. -/
  content : Entries Value := []
  symbols : List String := []
  /-- The names that are passed over. -/
  passed : List Value := []
  order : Option Value := none

namespace Draft

/-- Whether a name is passed over. -/
def passes (draft : Draft) (name : String) : Bool :=
  draft.passed.any fun other => other.text? == some name

/-- Adds what stands under a name that is no symbol. -/
def addOther (draft : Draft) (name : String) (value : Value) : Draft :=
  { draft with content := Entries.insert draft.content name value }

/-- Adds a symbol. -/
def addSymbol (draft : Draft) (symbol : String) (value : Value) : Except EnumerationError Draft :=
  match Entries.get? draft.content symbol with
  | some earlier =>
    if draft.passes symbol && !draft.symbols.contains symbol then .ok (draft.addOther symbol value)
    else .error (.repeated symbol earlier)
  | none =>
    if draft.passes symbol then .ok (draft.addOther symbol value)
    else .ok { draft.addOther symbol value with symbols := draft.symbols ++ [symbol] }

/-- Sets the names that are passed over, none of which may be a symbol already. -/
def pass (draft : Draft) (value : Value) : Except EnumerationError Draft := do
  let passed ← listedNames value
  match draft.symbols.filter fun symbol => passed.any fun name => name.text? == some symbol with
  | [] => return { draft with passed }
  | symbols => .error (.passedOver symbols)

/-- Adds what an enumeration of a name has under another name. -/
def add (enumeration : String) (draft : Draft) (entry : String × Value) :
    Except EnumerationError Draft :=
  match useOf enumeration entry.1 with
  | .symbol => draft.addSymbol entry.1 entry.2
  | .other => .ok (draft.addOther entry.1 entry.2)
  | .passing => draft.pass entry.2
  | .ordering => .ok { draft with order := some entry.2 }
  | .reserved => .error (.reserved entry.1)

/-- The enumeration of a name, without what is passed over. -/
def finish (draft : Draft) (name : String) : Enumeration :=
  let kept := draft.content.filter fun entry => !draft.passes entry.1
  { name
    symbols := kept.filter fun entry => draft.symbols.contains entry.1
    others := kept.filter fun entry => !draft.symbols.contains entry.1 }

end Draft

/-- The symbols that no member can have. -/
def unusableSymbols : List String := ["", "mro"]

/-- The names of what is called to make a member, in turn. -/
def makingNames : List String :=
  ["__new__", "__getattribute__", "__getattr__", "__setattr__", "__init__"]

/-- The member that a symbol names. -/
def member? (enumeration : Enumeration) (symbol : String) : Option Value :=
  Value.ofSymbol? enumeration.name enumeration.symbols enumeration.others symbol

/-- The enumeration of a name among some. -/
def named (enumerations : List Enumeration) (name : String) : Except Fault Enumeration :=
  match enumerations.find? (·.name == name) with
  | some found => .ok found
  | none => .error { kind := .key, message := name }

/-- The member that a symbol names in an enumeration among some. -/
def memberOf (enumerations : List Enumeration) (name symbol : String) : Except Fault Value := do
  match (← named enumerations name).member? symbol with
  | some value => return value
  | none => .error { kind := .key, message := symbol }

/-- Whether a symbol is a member and not another name. -/
def isFirst (enumeration : Enumeration) (symbol : String) : Bool :=
  match enumeration.member? symbol with
  | some (.member _ first ..) => first == symbol
  | _ => false

/-- The symbols that are members and not other names. -/
def memberSymbols (enumeration : Enumeration) : List String :=
  (Entries.keys enumeration.symbols).filter enumeration.isFirst

/-- The members. -/
def members (enumeration : Enumeration) : List EnumValue :=
  enumeration.memberSymbols.filterMap fun symbol =>
    (enumeration.member? symbol).map fun value => { symbol, value }

/-- What is wrong with the parts of an enumeration that are no symbols, if anything is. -/
def misfit? (enumeration : Enumeration) : Option EnumerationError :=
  let untitled := (Entries.get? enumeration.others titleName).bind fun title =>
    if title.text?.isSome then none else some (.untitled title)
  let uncallable := makingNames.findSome? fun name =>
    (Entries.get? enumeration.others name).bind fun value =>
      if name = "__new__" ∧ value.isNull then none else some (.notCallable value)
  untitled <|> if enumeration.symbols.isEmpty then none else uncallable

/-- Whether a name in an order counts: one that is another name for a member does not. -/
def countsInOrder (enumeration : Enumeration) (name : Value) : Bool :=
  match name.text? with
  | some symbol =>
    !Entries.contains enumeration.symbols symbol || enumeration.isFirst symbol
  | none => true

/-- Checks that the members stand in an order, if it says anything. -/
def checkOrder (enumeration : Enumeration) (order : Value) : Except EnumerationError Unit := do
  let listed ← if order.truthy then listedNames order else pure []
  let names := listed.filter enumeration.countsInOrder
  let symbols := enumeration.memberSymbols
  if listed.isEmpty ∨ (Value.list names).equals (.list (symbols.map Value.str)) then return ()
  else .error (.misordered symbols names)

/-- The enumeration of a name with all that it has under names, in order. -/
def declare (name : String) (entries : List (String × Value)) :
    Except EnumerationError Enumeration := do
  let draft ← entries.foldlM (Draft.add name) {}
  let unusable := unusableSymbols.filter draft.symbols.contains
  if !unusable.isEmpty then .error (.unusable unusable)
  let enumeration := draft.finish name
  match enumeration.misfit? with
  | some error => .error error
  | none =>
    enumeration.checkOrder (if draft.passes orderingName then .null else draft.order.getD .null)
    return enumeration

/-- The description of an enumeration. -/
def description? (enumeration : Enumeration) : Option String :=
  (Entries.get? enumeration.others descriptionName).bind Value.text?

/-- The enum type whose internal values are the members. An empty name or description counts for
nothing; the enumeration has them, too. -/
def toType (enumeration : Enumeration) (name : String) (description : Option String) :
    EnumType where
  name := if name = "" then enumeration.name else name
  description := (description.filter (· != "")) <|> enumeration.description?
  values := enumeration.members

end Enumeration

end GraphQL
