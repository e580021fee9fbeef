import GraphQL.Decimal.Shortest
import GraphQL.Value

/-!
# Equality of values

Numbers are equal by their amount, whatever their type, and Booleans are the numbers one and zero.
Texts are equal by their characters, also those that are keywords. Mappings are equal when they have
the same entries in any order. Objects and stored faults are equal only to themselves.
-/

namespace GraphQL

namespace Decimal

/-- The whole number that a float is equal to. -/
def Binary.toInt? : Binary → Option Int
  | .finite negative mantissa exponent =>
    let signed : Int := if negative then -(mantissa : Int) else mantissa
    if 0 ≤ exponent then some (signed * (Nat.pow 2 exponent.toNat : Nat))
    else
      let unit := Nat.pow 2 (-exponent).toNat
      if mantissa % unit = 0 then some (signed / (unit : Int)) else none
  | _ => none

/-- The whole number that a float is equal to. -/
def wholeNumber? (x : Float) : Option Int :=
  (Binary.ofFloat x).toInt?

end Decimal

namespace Value

/-- The number that a value counts as in a comparison. -/
def wholeNumber? : Value → Option Int
  | bool b => some (if b then 1 else 0)
  | int n => some n
  | float x => Decimal.wholeNumber? x
  | _ => none

/-- Whether two stored faults are the same object. -/
def sameFault (a b : Fault) : Bool :=
  match a.identity, b.identity with
  | some m, some n => m == n
  | _, _ => false

mutual

/-- Whether two values are equal. -/
def equals : Value → Value → Bool
  | null, null => true
  | undefined, undefined => true
  | float x, float y => x == y
  | str s, str t | str s, keyword _ t | keyword _ s, str t | keyword _ s, keyword _ t => s == t
  | bytes s, bytes t => s == t
  | list xs, list ys => equalItems xs ys
  | tuple xs, tuple ys => equalItems xs ys
  | map xs, map ys => xs.length == ys.length && equalEntries xs ys
  | var m, var n => m == n
  | member e s .., member f t .. => e == f && s == t
  | fault a, fault b => sameFault a b
  | stream m _ _, stream n _ _ => m == n
  | object m _ _ _, object n _ _ _ => m == n
  | promise m, promise n => m == n
  | location a, location b => a == b
  | typeRef r, typeRef s => r == s
  | definition m, definition n => m == n
  | schema, schema => true
  | a, b =>
    match a.wholeNumber?, b.wholeNumber? with
    | some m, some n => m == n
    | _, _ => false

/-- Whether two lists have equal items in the same places. -/
def equalItems : List Value → List Value → Bool
  | [], [] => true
  | x :: xs, y :: ys => equals x y && equalItems xs ys
  | _, _ => false

/-- Whether each entry has an equal one under its key in a mapping. -/
def equalEntries : List (String × Value) → List (String × Value) → Bool
  | [], _ => true
  | (key, value) :: rest, entries =>
    (match Entries.get? entries key with
      | some other => equals value other
      | none => false) && equalEntries rest entries

end

mutual

/-- The type of the first part of a value that keeps it from being a key: a value that can change
has no place in a table by what it holds. -/
def unhashable? : Value → Option String
  | list _ => some "list"
  | map _ => some "dict"
  | tuple items => unhashableItem? items
  | chosen _ _ value => unhashable? value
  | _ => none

/-- The type of the first such part of some items. -/
def unhashableItem? : List Value → Option String
  | [] => none
  | item :: rest => unhashable? item <|> unhashableItem? rest

end

/-- Whether two values are of one type. -/
def sameType (a b : Value) : Bool :=
  match a, b with
  | null, null | undefined, undefined | bool _, bool _ | int _, int _ | float _, float _
  | str _, str _ | bytes _, bytes _ | list _, list _ | tuple _, tuple _ | map _, map _
  | var _, var _ | stream .., stream .. | schema, schema | definition _, definition _
  | promise _, promise _ | location _, location _ => true
  | member e .., member f .. | keyword e _, keyword f _ => e == f
  | fault f, fault g => f.kind == g.kind
  | object _ c _ _, object _ d _ _ => c == d
  | typeRef r, typeRef s => r.isNonNull == s.isNonNull
  | _, _ => false

/-- Whether two values are one and the same object, where that can be seen: markers, Booleans,
enumeration members, and values with an identity. -/
def identical (a b : Value) : Bool :=
  match a, b with
  | null, null | undefined, undefined | schema, schema => true
  | bool p, bool q => p == q
  | member e s .., member f t .. | keyword e s, keyword f t => e == f && s == t
  | fault f, fault g => sameFault f g
  | stream m _ _, stream n _ _ => m == n
  | object m _ _ _, object n _ _ _ => m == n
  | promise m, promise n => m == n
  | _, _ => false

/-- The member of an enumeration that one of its symbols names: that of the first symbol with an
equal value. A value need not be equal to itself. -/
def ofSymbol? (enumeration : String) (symbols others : Entries Value) (symbol : String) :
    Option Value := do
  let value ← Entries.get? symbols symbol
  let (first, own) ← symbols.find? fun entry => entry.1 == symbol || entry.2.equals value
  return .member enumeration first own symbols others

end Value

end GraphQL
