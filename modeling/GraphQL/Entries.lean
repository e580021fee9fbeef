/-!
# Named values in order

Mappings of the query language keep the order in which their keys were put, and answers show that
order; so they are lists of pairs with distinct keys.
-/

namespace GraphQL

/-- Named values in insertion order. -/
abbrev Entries (α : Type) := List (String × α)

namespace Entries

variable {α β : Type}

/-- The value under a key. -/
def get? (entries : Entries α) (key : String) : Option α :=
  (entries.find? (·.1 == key)).map (·.2)

/-- Whether a key is present. -/
def contains (entries : Entries α) (key : String) : Bool :=
  entries.any (·.1 == key)

/-- Puts a value under a key: in place of the one there, otherwise at the end. -/
def insert : Entries α → String → α → Entries α
  | [], key, value => [(key, value)]
  | entry :: rest, key, value =>
    if entry.1 == key then (key, value) :: rest else entry :: insert rest key value

/-- Puts values under their keys one after another. -/
def insertAll (entries : Entries α) (more : List (String × α)) : Entries α :=
  more.foldl (fun acc entry => insert acc entry.1 entry.2) entries

/-- The entries of a list in which the last of equal keys counts. -/
def ofList (entries : List (String × α)) : Entries α :=
  insertAll [] entries

/-- The keys in order. -/
def keys (entries : Entries α) : List String :=
  entries.map (·.1)

/-- The values in order. -/
def values (entries : Entries α) : List α :=
  entries.map (·.2)

end Entries

end GraphQL
