import GraphQL.Definition.Declaration

/-!
# Specified directives

Every schema has three directives of its own: two that decide whether a selection takes part, and
one that marks deprecated members.
-/

namespace GraphQL.Directive

/-- The reason that a deprecation gives when it is silent. -/
def defaultDeprecationReason : String := "No longer supported"

/-- The places of a selection. -/
def selectionLocations : List DirectiveLocation :=
  [.field, .fragmentSpread, .inlineFragment]

/-- The condition of a selection. -/
def condition (description : String) : Argument :=
  Member.publish "if"
    ({ type := .named "Boolean" true, description := some description } : Argument)

/-- Leaves a selection out when its condition is true. -/
def skipIf : Directive where
  name := "skip"
  locations := selectionLocations
  args := [condition "Skipped when true."]
  description := some ("Directs the executor to skip this field or fragment when the `if` " ++
    "argument is true.")

/-- Leaves a selection out unless its condition is true. -/
def includeIf : Directive where
  name := "include"
  locations := selectionLocations
  args := [condition "Included when true."]
  description := some ("Directs the executor to include this field or fragment only when the " ++
    "`if` argument is true.")

/-- Marks a field or an enum symbol as deprecated. -/
def deprecated : Directive where
  name := "deprecated"
  locations := [.fieldDefinition, .enumValue]
  args := [Member.publish "reason"
    ({ type := .named "String", default := .str defaultDeprecationReason
       description := some "Explains why this element was deprecated." } : Argument)]
  description := some "Marks an element of a GraphQL schema as no longer supported."

/-- The specified directives in the order in which a registry gets them. -/
def specified : List Directive :=
  [includeIf, skipIf, deprecated]

end GraphQL.Directive
