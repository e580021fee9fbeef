import GraphQL.Entries
import GraphQL.Fault
import GraphQL.TypeRef

/-!
# Values

Everything that user code hands to the engine and the engine to user code: literals of an
operation, arguments, the parents and results of resolvers, and the schema elements that
introspection resolves. Values that can be told apart although they look alike carry an identity.
-/

namespace GraphQL

/-- A dynamic value. -/
inductive Value where
  | null
  /-- The marker of a value that was not supplied. -/
  | undefined
  | bool (b : Bool)
  | int (n : Int)
  | float (x : Float)
  | str (text : String)
  | bytes (data : List UInt8)
  | list (items : List Value)
  | tuple (items : List Value)
  /-- A mapping in insertion order; its keys are distinct. -/
  | map (entries : List (String × Value))
  /-- A reference to a variable inside a literal. -/
  | var (name : String)
  /-- A member of an enumeration of user code, with the value behind it, all symbols of the
  enumeration with the values behind them, and what else the enumeration has under a name. -/
  | member (enumeration symbol : String) (value : Value) (symbols others : List (String × Value))
  /-- A keyword of the engine: a text that knows which family of keywords it belongs to. -/
  | keyword (family text : String)
  | fault (fault : Fault)
  /-- An iterable that gives its items once, then perhaps fails. -/
  | stream (identity : Nat) (items : List Value) (failure : Option Fault)
  /-- The promise of a value, which is made anew whenever it is awaited. -/
  | pending (value : Value)
  /-- A value that fails when it is awaited. -/
  | failing (fault : Fault)
  /-- The promise of what user code computes, which can be awaited once. -/
  | promise (identity : Nat)
  /-- An object with attributes and with methods, which are resolvers known by number. -/
  | object (identity : Nat) (className : String) (attributes : List (String × Value))
      (methods : List (String × Nat))
  /-- A place in the source text. -/
  | location (location : Location)
  /-- A reference with a list or a non-null in it, as a parent for introspection. -/
  | typeRef (ref : TypeRef)
  /-- A type definition. -/
  | definition (name : String)
  /-- The registry, as a parent for introspection. -/
  | schema
  /-- The internal value of an enum that remembers from which symbol it came. It counts as
  `value`. -/
  | chosen (enumName symbol : String) (value : Value)
  deriving Inhabited

namespace Value

/-- The class of a value, as a message names it. -/
def typeName : Value → String
  | null => "NoneType"
  | undefined => "_UndefinedType"
  | bool _ => "bool"
  | int _ => "int"
  | float _ => "float"
  | str _ => "str"
  | bytes _ => "bytes"
  | list _ => "list"
  | tuple _ => "tuple"
  | map _ => "dict"
  | var _ => "VariableNode"
  | member enumeration .. => enumeration
  | keyword family _ => family
  | fault f => f.kind.name
  | stream .. => "Iter"
  | pending _ | failing _ => "Awaitable"
  | promise _ => "coroutine"
  | object _ className _ _ => className
  | location _ => "Location"
  | typeRef ref => if ref.isNonNull then "NonNullType" else "ListType"
  | definition _ => "NamedType"
  | schema => "TypeRegistry"
  | chosen _ _ value => typeName value

/-- Whether a value counts as true in a condition. -/
def truthy : Value → Bool
  | null | undefined => false
  | bool b => b
  | int n => n != 0
  | float x => x != 0
  | str text | keyword _ text => text != ""
  | bytes data => !data.isEmpty
  | list items | tuple items => !items.isEmpty
  | map entries => !entries.isEmpty
  | chosen _ _ value => truthy value
  | _ => true

/-- Whether a value is the marker of a value that was not supplied. -/
def isUndefined : Value → Bool
  | undefined => true
  | _ => false

/-- The value without the memory of a symbol on the outside. -/
def bare : Value → Value
  | chosen _ _ value => bare value
  | value => value

/-- Whether a value counts as null. -/
def isNull (value : Value) : Bool :=
  match value.bare with
  | null => true
  | _ => false

/-- The text that a value is. -/
def text? (value : Value) : Option String :=
  match value.bare with
  | str text | keyword _ text => some text
  | _ => none

/-- The entry of a mapping. -/
def entry? (value : Value) (key : String) : Option Value :=
  match value.bare with
  | map entries => Entries.get? entries key
  | _ => none

mutual

/-- The value without the memory of any symbol, also of those inside. -/
def plain : Value → Value
  | chosen _ _ value => plain value
  | list items => list (plainItems items)
  | tuple items => tuple (plainItems items)
  | map entries => map (plainEntries entries)
  | value => value

/-- Each item without the memory of a symbol. -/
def plainItems : List Value → List Value
  | [] => []
  | item :: rest => plain item :: plainItems rest

/-- Each entry without the memory of a symbol. -/
def plainEntries : List (String × Value) → List (String × Value)
  | [] => []
  | (key, value) :: rest => (key, plain value) :: plainEntries rest

end

mutual

/-- The value with each fault in it changed. -/
def mapFaults (change : Fault → Fault) : Value → Value
  | list items => list (mapFaultsItems change items)
  | tuple items => tuple (mapFaultsItems change items)
  | map entries => map (mapFaultsEntries change entries)
  | member enumeration symbol value symbols others =>
    member enumeration symbol (mapFaults change value) symbols others
  | fault f => fault (change f)
  | object identity className attributes methods =>
    object identity className (mapFaultsEntries change attributes) methods
  | chosen enumName symbol value => chosen enumName symbol (mapFaults change value)
  | value => value

/-- Each item with each fault in it changed. -/
def mapFaultsItems (change : Fault → Fault) : List Value → List Value
  | [] => []
  | item :: rest => mapFaults change item :: mapFaultsItems change rest

/-- Each entry with each fault in it changed. -/
def mapFaultsEntries (change : Fault → Fault) : List (String × Value) → List (String × Value)
  | [] => []
  | (key, value) :: rest => (key, mapFaults change value) :: mapFaultsEntries change rest

end

/-- Whether values that are equal to this one are the same object. Small integers, texts and byte
strings of at most one character or byte, and empty tuples are, besides all that is made once. -/
def isInterned : Value → Bool
  | null | undefined | bool _ | member .. | keyword .. | schema => true
  | int n => -5 ≤ n && n ≤ 256
  | str text => text.length ≤ 1 && text.toList.all fun c => c.toNat < 256
  | bytes data => data.length ≤ 1
  | tuple items => items.isEmpty
  | _ => false

mutual

/-- The value with new identities from `next` on, and the first identity left over. What is promised
gets them when it is awaited. -/
def renew (next : Nat) : Value → Value × Nat
  | list items =>
    let (items, next) := renewItems next items
    (list items, next)
  | tuple items =>
    let (items, next) := renewItems next items
    (tuple items, next)
  | map entries =>
    let (entries, next) := renewEntries next entries
    (map entries, next)
  | fault f => (fault { f with identity := some next }, next + 1)
  | stream _ items failure =>
    let (items, after) := renewItems (next + 1) items
    (stream next items failure, after)
  | object _ className attributes methods =>
    let (attributes, after) := renewEntries (next + 1) attributes
    (object next className attributes methods, after)
  | value => (value, next)

/-- Renews each item of a list. -/
def renewItems (next : Nat) : List Value → List Value × Nat
  | [] => ([], next)
  | item :: rest =>
    let (item, next) := renew next item
    let (rest, next) := renewItems next rest
    (item :: rest, next)

/-- Renews the value of each entry. -/
def renewEntries (next : Nat) : List (String × Value) → List (String × Value) × Nat
  | [] => ([], next)
  | (key, value) :: rest =>
    let (value, next) := renew next value
    let (rest, next) := renewEntries next rest
    ((key, value) :: rest, next)

end

end Value

end GraphQL
