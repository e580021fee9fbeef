import GraphQL.Proofs.InputTyping
import GraphQL.Proofs.Settling

/-!
# Values without variables

A value is closed if no variable stands in it, neither itself nor inside lists and mappings. Where
the values of variables are closed, a variable is looked up once.
-/

namespace GraphQL

namespace Value

mutual

/-- Whether no variable stands in a value. -/
def isClosed : Value → Bool
  | var _ => false
  | list items | tuple items => closedItems items
  | map entries => closedEntries entries
  | chosen _ _ value => isClosed value
  | _ => true

/-- Whether no variable stands in an item. -/
def closedItems : List Value → Bool
  | [] => true
  | item :: rest => isClosed item && closedItems rest

/-- Whether no variable stands in the value of an entry. -/
def closedEntries : List (String × Value) → Bool
  | [] => true
  | (_, value) :: rest => isClosed value && closedEntries rest

end

variable {value : Value}

theorem not_isVariable_of_isClosed (closed : value.isClosed = true) :
    value.isVariable = false := by
  cases value with
  | var name => cases closed
  | _ => rfl

theorem closedItems_eq (items : List Value) : closedItems items = items.all isClosed := by
  induction items with
  | nil => rfl
  | cons item rest ih => rw [closedItems, List.all_cons, ih]

theorem closedEntries_eq (entries : Entries Value) :
    closedEntries entries = entries.all fun entry => entry.2.isClosed := by
  induction entries with
  | nil => rfl
  | cons entry rest ih => rw [closedEntries, List.all_cons, ih]

@[simp] theorem isClosed_list {items : List Value} :
    (Value.list items).isClosed = true ↔ ∀ item ∈ items, item.isClosed = true := by
  rw [isClosed, closedItems_eq, List.all_eq_true]

@[simp] theorem isClosed_tuple {items : List Value} :
    (Value.tuple items).isClosed = true ↔ ∀ item ∈ items, item.isClosed = true := by
  rw [isClosed, closedItems_eq, List.all_eq_true]

@[simp] theorem isClosed_map {entries : Entries Value} :
    (Value.map entries).isClosed = true ↔ ∀ entry ∈ entries, entry.2.isClosed = true := by
  rw [isClosed, closedEntries_eq, List.all_eq_true]

mutual

/-- Changing the error objects in a value leaves variables where they are. -/
theorem isClosed_mapFaults (change : Fault → Fault) : ∀ value : Value,
    (value.mapFaults change).isClosed = value.isClosed
  | .list items => closedItems_mapFaults change items
  | .tuple items => closedItems_mapFaults change items
  | .map entries => closedEntries_mapFaults change entries
  | .chosen _ _ value => isClosed_mapFaults change value
  | .null | .undefined | .bool _ | .int _ | .float _ | .str _ | .bytes _ | .var _ | .member ..
  | .keyword .. | .fault _ | .stream .. | .pending _ | .failing _ | .promise _ | .object ..
  | .location _ | .typeRef _ | .definition _ | .schema => rfl

theorem closedItems_mapFaults (change : Fault → Fault) : ∀ items : List Value,
    closedItems (mapFaultsItems change items) = closedItems items
  | [] => rfl
  | item :: rest => by
    rw [mapFaultsItems, closedItems, closedItems, isClosed_mapFaults change item,
      closedItems_mapFaults change rest]

theorem closedEntries_mapFaults (change : Fault → Fault) : ∀ entries : List (String × Value),
    closedEntries (mapFaultsEntries change entries) = closedEntries entries
  | [] => rfl
  | (_, value) :: rest => by
    rw [mapFaultsEntries, closedEntries, closedEntries, isClosed_mapFaults change value,
      closedEntries_mapFaults change rest]

end

mutual

/-- So does forgetting where symbols came from. -/
theorem isClosed_plain : ∀ value : Value, value.plain.isClosed = value.isClosed
  | .list items => closedItems_plain items
  | .tuple items => closedItems_plain items
  | .map entries => closedEntries_plain entries
  | .chosen _ _ value => isClosed_plain value
  | .null | .undefined | .bool _ | .int _ | .float _ | .str _ | .bytes _ | .var _ | .member ..
  | .keyword .. | .fault _ | .stream .. | .pending _ | .failing _ | .promise _ | .object ..
  | .location _ | .typeRef _ | .definition _ | .schema => rfl

theorem closedItems_plain : ∀ items : List Value,
    closedItems (plainItems items) = closedItems items
  | [] => rfl
  | item :: rest => by
    rw [plainItems, closedItems, closedItems, isClosed_plain item, closedItems_plain rest]

theorem closedEntries_plain : ∀ entries : List (String × Value),
    closedEntries (plainEntries entries) = closedEntries entries
  | [] => rfl
  | (_, value) :: rest => by
    rw [plainEntries, closedEntries, closedEntries, isClosed_plain value,
      closedEntries_plain rest]

end

end Value

namespace CoercionContext

variable {context : CoercionContext} {raw : Value}

/-- No variable stands in the value of a variable. -/
def HasClosedVariables (context : CoercionContext) : Prop :=
  ∀ entry ∈ context.variableValues, entry.2.isClosed = true

theorem Settles.isClosed (settles : context.Settles) (value : Value) :
    (context.settle value).isClosed = value.isClosed := by
  obtain ⟨change, _, shows⟩ := settles
  rw [shows, Value.isClosed_mapFaults]

/-- A variable that was not supplied stands for nothing. -/
theorem substitute_of_isUnsupplied (unsupplied : context.isUnsupplied raw = true) :
    context.substitute raw = .undefined := by
  unfold isUnsupplied at unsupplied
  split at unsupplied
  · next name =>
    have missing : context.variableValues.find? (·.1 == name) = none := by
      simpa [Entries.contains] using unsupplied
    rw [substitute, Entries.get?, missing]
    rfl
  · cases unsupplied

theorem Settles.isVariable (settles : context.Settles) (value : Value) :
    (context.settle value).isVariable = value.isVariable := by
  obtain ⟨change, _, shows⟩ := settles
  rw [shows]
  cases value <;> rfl

/-- Nothing is left out where a supplied field is looked up. -/
theorem isUnsupplied_rawField (entries : Entries Value) (field : Argument) :
    context.isUnsupplied (context.rawField entries field) = false := by
  unfold rawField
  dsimp only
  split
  · rfl
  · next supplied => exact eq_false_of_ne_true supplied

/-- A supplied field stands in the mapping. -/
theorem mem_of_rawField {entries : Entries Value} {field : Argument}
    (given : (context.rawField entries field).isUndefined = false) :
    (∃ entry ∈ entries, entry.2 = context.rawField entries field) := by
  unfold rawField at given ⊢
  dsimp only at given ⊢
  split
  · next unsupplied =>
    rw [if_pos unsupplied] at given
    cases given
  · next supplied =>
    rw [if_neg supplied] at given
    cases there : entries.find? (·.1 == field.name) with
    | none =>
      rw [Entries.get?, there] at given
      cases given
    | some entry =>
      refine ⟨entry, List.mem_of_find?_eq_some there, ?_⟩
      rw [Entries.get?, there]
      rfl

namespace HasClosedVariables

variable (closed : context.HasClosedVariables)

include closed

/-- What a variable stands for is closed. -/
theorem substitute_var (name : String) : (context.substitute (.var name)).isClosed = true := by
  unfold substitute
  dsimp only
  cases found : Entries.get? context.variableValues name with
  | none => rfl
  | some value =>
    obtain ⟨entry, there, rfl⟩ := Option.map_eq_some_iff.mp found
    exact closed entry (List.mem_of_find?_eq_some there)

theorem not_isVariable_substitute (raw : Value) : (context.substitute raw).isVariable = false := by
  cases constant : raw.isVariable with
  | false => rwa [substitute_of_not_isVariable constant]
  | true =>
    cases raw with
    | var name => exact Value.not_isVariable_of_isClosed (closed.substitute_var name)
    | _ => cases constant

theorem substitute_substitute (raw : Value) :
    context.substitute (context.substitute raw) = context.substitute raw :=
  substitute_of_not_isVariable (closed.not_isVariable_substitute raw)

theorem isUnsupplied_substitute (raw : Value) :
    context.isUnsupplied (context.substitute raw) = false :=
  isUnsupplied_of_not_isVariable (closed.not_isVariable_substitute raw)

end HasClosedVariables

end CoercionContext

end GraphQL
