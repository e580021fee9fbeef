import GraphQL.Value

/-!
# Streams in use

A stream gives each of its items once, whoever asks for them. How far each stream has been read is
kept beside the values, so that a value itself never changes.
-/

namespace GraphQL

/-- How many items streams have given, by identity. A stream that is not listed has given none. -/
structure StreamUse where
  counts : List (Nat × Nat) := []

namespace StreamUse

/-- How many items a stream has given. -/
def count (use : StreamUse) (identity : Nat) : Nat :=
  ((use.counts.find? (·.1 == identity)).map (·.2)).getD 0

/-- The items that a stream still has. -/
def remaining (use : StreamUse) (identity : Nat) (items : List Value) : List Value :=
  items.drop (use.count identity)

/-- Notes that a stream has given more items. -/
def advance (use : StreamUse) (identity more : Nat) : StreamUse where
  counts := (identity, use.count identity + more) ::
    use.counts.filter fun entry => entry.1 != identity

@[simp] theorem count_advance (use : StreamUse) (identity more : Nat) :
    (use.advance identity more).count identity = use.count identity + more := by
  simp [count, advance]

theorem count_advance_of_ne (use : StreamUse) {identity other : Nat} (more : Nat)
    (distinct : other ≠ identity) :
    (use.advance identity more).count other = use.count other := by
  have skipped : (fun entry : Nat × Nat =>
      decide ((entry.1 != identity) = true ∧ (entry.1 == other) = true)) =
      fun entry => entry.1 == other := by
    funext entry
    by_cases same : entry.1 = other <;> simp [same, distinct]
  simp only [count, advance]
  rw [List.find?_cons_of_neg (by simpa using Ne.symm distinct), List.find?_filter, skipped]

end StreamUse

end GraphQL
