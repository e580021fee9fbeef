import GraphQL.Text.Quoted

/-!
# Type references

A reference names a type, or stands for the lists of another reference; either way it may exclude
null. A reference cannot exclude null twice.
-/

namespace GraphQL

/-- A reference to a type, where `nonNull` says that null is excluded. -/
inductive TypeRef where
  | named (name : String) (nonNull : Bool := false)
  | list (item : TypeRef) (nonNull : Bool := false)
  deriving DecidableEq

namespace TypeRef

/-- Whether the reference excludes null. -/
def isNonNull : TypeRef → Bool
  | named _ nonNull => nonNull
  | list _ nonNull => nonNull

/-- The reference with null admitted. -/
def nullable : TypeRef → TypeRef
  | named name _ => named name
  | list item _ => list item

/-- The reference with null excluded. -/
def required : TypeRef → TypeRef
  | named name _ => named name true
  | list item _ => list item true

/-- The name underneath all lists. -/
def name : TypeRef → String
  | named name _ => name
  | list item _ => item.name

/-- The name, when the reference is nothing but a name. -/
def plainName? : TypeRef → Option String
  | named name false => some name
  | _ => none

/-- The notation of the query language, such as `[Int!]!`. -/
def text : TypeRef → String
  | named name nonNull => if nonNull then name ++ "!" else name
  | list item nonNull => "[" ++ item.text ++ (if nonNull then "]!" else "]")

/-- A reference as a message shows it. -/
def describe : TypeRef → String
  | named name nonNull =>
    let inner := Text.quoted name
    if nonNull then "NonNullType(of_type=" ++ inner ++ ")" else inner
  | list item nonNull =>
    let inner := "ListType(of_type=" ++ item.describe ++ ")"
    if nonNull then "NonNullType(of_type=" ++ inner ++ ")" else inner

/-- How many lists the reference is nested in. -/
def depth : TypeRef → Nat
  | named _ _ => 0
  | list item _ => item.depth + 1

@[simp] theorem isNonNull_nullable (ref : TypeRef) : ref.nullable.isNonNull = false := by
  cases ref <;> rfl

@[simp] theorem isNonNull_required (ref : TypeRef) : ref.required.isNonNull = true := by
  cases ref <;> rfl

@[simp] theorem name_nullable (ref : TypeRef) : ref.nullable.name = ref.name := by
  cases ref <;> rfl

@[simp] theorem name_required (ref : TypeRef) : ref.required.name = ref.name := by
  cases ref <;> rfl

theorem nullable_of_not_isNonNull {ref : TypeRef} (admitted : ref.isNonNull = false) :
    ref.nullable = ref := by
  cases ref <;> simp_all [isNonNull, nullable]

end TypeRef

end GraphQL
