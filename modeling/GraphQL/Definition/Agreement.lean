import GraphQL.Definition

/-!
# Agreement of definitions

A name may be given twice in a schema if both definitions say the same. The order of members does
not count, hooks agree only with themselves, and defaults agree when they are equal values.
-/

namespace GraphQL

/-- Whether two lists hold matching members under the same keys, in any order. -/
def agreeByKey {α : Type} (key : α → String) (agree : α → α → Bool) (xs ys : List α) : Bool :=
  xs.length == ys.length && xs.all fun x =>
    match ys.find? (fun y => key y == key x) with
    | some y => agree x y
    | none => false

/-- Whether two arguments say the same. -/
def Argument.agrees (a b : Argument) : Bool :=
  a.type == b.type && a.default.equals b.default && a.description == b.description &&
    a.name == b.name && a.source == b.source

/-- Whether two fields say the same. -/
def Field.agrees (a b : Field) : Bool :=
  a.type == b.type && agreeByKey (·.name) Argument.agrees a.args b.args &&
    a.resolver == b.resolver && a.description == b.description &&
    a.deprecation == b.deprecation && a.name == b.name && a.source == b.source

/-- Whether two enum symbols say the same. -/
def EnumValue.agrees (a b : EnumValue) : Bool :=
  a.symbol == b.symbol && a.value.equals b.value && a.description == b.description &&
    a.deprecation == b.deprecation

/-- Whether two definitions say the same. -/
def TypeDefinition.agrees : TypeDefinition → TypeDefinition → Bool
  | scalar a, scalar b =>
    a.name == b.name && a.serialize == b.serialize && a.parse == b.parse &&
      a.description == b.description && a.specifiedBy == b.specifiedBy
  | enum a, enum b =>
    a.name == b.name && agreeByKey (·.symbol) EnumValue.agrees a.values b.values &&
      a.description == b.description
  | object a, object b =>
    a.name == b.name && agreeByKey (·.name) Field.agrees a.fields b.fields &&
      a.interfaces == b.interfaces && a.isTypeOf == b.isTypeOf && a.description == b.description
  | interface a, interface b =>
    a.name == b.name && agreeByKey (·.name) Field.agrees a.fields b.fields &&
      a.interfaces == b.interfaces && a.resolveType == b.resolveType &&
      a.description == b.description
  | union a, union b =>
    a.name == b.name && a.members == b.members && a.resolveType == b.resolveType &&
      a.description == b.description
  | input a, input b =>
    a.name == b.name && agreeByKey (·.name) Argument.agrees a.fields b.fields &&
      a.description == b.description
  | _, _ => false

end GraphQL
