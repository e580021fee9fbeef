import GraphQL.Value

/-!
# Parts of values

Lists, tuples and mappings are made of values. What holds of a value whenever it holds of its parts
holds of every value, and a test may be put to a value and to all its parts, however deep.
-/

namespace GraphQL.Value

/-- Whether a value is neither a list nor a tuple nor a mapping. -/
def isSimple : Value → Bool
  | list _ | tuple _ | map _ => false
  | _ => true

/-- What holds of a value if it holds of its parts holds of every value. -/
theorem parts_induction {Holds : Value → Prop}
    (list : ∀ items, (∀ item ∈ items, Holds item) → Holds (.list items))
    (tuple : ∀ items, (∀ item ∈ items, Holds item) → Holds (.tuple items))
    (map : ∀ entries, (∀ entry ∈ entries, Holds entry.2) → Holds (.map entries))
    (simple : ∀ value, value.isSimple = true → Holds value) (value : Value) : Holds value := by
  induction size : sizeOf value using Nat.strongRecOn generalizing value with
  | ind bound ih =>
    subst size
    cases value with
    | list items =>
      refine list items fun item among => ih _ ?_ item rfl
      have smaller := List.sizeOf_lt_of_mem among
      rw [Value.list.sizeOf_spec]
      omega
    | tuple items =>
      refine tuple items fun item among => ih _ ?_ item rfl
      have smaller := List.sizeOf_lt_of_mem among
      rw [Value.tuple.sizeOf_spec]
      omega
    | map entries =>
      refine map entries fun entry among => ih _ ?_ entry.2 rfl
      have smaller := List.sizeOf_lt_of_mem among
      have inside : sizeOf entry.2 < sizeOf entry := by
        rw [Prod.mk.sizeOf_spec]
        omega
      rw [Value.map.sizeOf_spec]
      omega
    | _ => exact simple _ rfl

mutual

/-- Whether a value and all its parts pass a test. -/
def everywhere (test : Value → Bool) : Value → Bool
  | list items => test (list items) && everyItem test items
  | tuple items => test (tuple items) && everyItem test items
  | map entries => test (map entries) && everyEntry test entries
  | value => test value

/-- Whether all items and their parts pass a test. -/
def everyItem (test : Value → Bool) : List Value → Bool
  | [] => true
  | item :: rest => everywhere test item && everyItem test rest

/-- Whether the values of all entries and their parts pass a test. -/
def everyEntry (test : Value → Bool) : List (String × Value) → Bool
  | [] => true
  | entry :: rest => everywhere test entry.2 && everyEntry test rest

end

variable {test : Value → Bool} {value : Value}

theorem everywhere_item {items : List Value} (passes : everyItem test items = true) :
    ∀ item ∈ items, item.everywhere test = true := by
  induction items with
  | nil => exact fun _ among => absurd among List.not_mem_nil
  | cons first rest ih =>
    rw [everyItem, Bool.and_eq_true_iff] at passes
    exact List.forall_mem_cons.mpr ⟨passes.1, ih passes.2⟩

theorem everywhere_entry {entries : Entries Value} (passes : everyEntry test entries = true) :
    ∀ entry ∈ entries, entry.2.everywhere test = true := by
  induction entries with
  | nil => exact fun _ among => absurd among List.not_mem_nil
  | cons first rest ih =>
    rw [everyEntry, Bool.and_eq_true_iff] at passes
    exact List.forall_mem_cons.mpr ⟨passes.1, ih passes.2⟩

/-- A value that passes a test everywhere passes it itself. -/
theorem of_everywhere (passes : value.everywhere test = true) : test value = true := by
  cases value with
  | list _ | tuple _ | map _ =>
    rw [everywhere, Bool.and_eq_true_iff] at passes
    exact passes.1
  | _ => exact passes

/-- The items of a list that passes a test everywhere do so too. -/
theorem everywhere_of_mem_list {items : List Value}
    (passes : (Value.list items).everywhere test = true) :
    ∀ item ∈ items, item.everywhere test = true := by
  rw [everywhere, Bool.and_eq_true_iff] at passes
  exact everywhere_item passes.2

theorem everywhere_of_mem_tuple {items : List Value}
    (passes : (Value.tuple items).everywhere test = true) :
    ∀ item ∈ items, item.everywhere test = true := by
  rw [everywhere, Bool.and_eq_true_iff] at passes
  exact everywhere_item passes.2

/-- So do the values of a mapping. -/
theorem everywhere_of_mem_map {entries : Entries Value}
    (passes : (Value.map entries).everywhere test = true) :
    ∀ entry ∈ entries, entry.2.everywhere test = true := by
  rw [everywhere, Bool.and_eq_true_iff] at passes
  exact everywhere_entry passes.2

end GraphQL.Value
