import GraphQL.Walk

/-!
# Sub-typing

A reference may stand in for another if it excludes null where the other does, has lists where the
other has them, and names the same type underneath, a member of the union there, or a type that
lists the interface there.
-/

namespace GraphQL

/-- Whether one name may stand in for another, different one. -/
def namedSubType (table : List TypeDefinition) (sub super : String) : Bool :=
  match lookupType? table super with
  | some (.union type) => type.members.contains (.named sub)
  | some (.interface _) =>
    match lookupType? table sub with
    | some type => type.interfaces.contains (.named super)
    | none => false
  | _ => false

/-- Whether one reference may stand in for another. -/
def isSubType (table : List TypeDefinition) (sub super : TypeRef) : Bool :=
  (!super.isNonNull || sub.isNonNull) &&
    match sub, super with
    | .list subItem _, .list superItem _ => isSubType table subItem superItem
    | .named subName _, .named superName _ =>
      subName == superName || namedSubType table subName superName
    | _, _ => false
termination_by structural sub

end GraphQL
