/-!
# Kinds of operations
-/

namespace GraphQL

/-- What an operation asks for. -/
inductive OperationKind where
  | query
  | mutation
  | subscription
  deriving DecidableEq

namespace OperationKind

/-- The kinds in the order in which a schema gives their roots. -/
def all : List OperationKind :=
  [query, mutation, subscription]

/-- The keyword of a kind. -/
def keyword : OperationKind → String
  | query => "query"
  | mutation => "mutation"
  | subscription => "subscription"

/-- The keyword of a kind with a capital letter. -/
def title : OperationKind → String
  | query => "Query"
  | mutation => "Mutation"
  | subscription => "Subscription"

/-- The kind of a keyword. -/
def ofKeyword? (keyword : String) : Option OperationKind :=
  all.find? (·.keyword == keyword)

end OperationKind

end GraphQL
