import GraphQL.Definition.Agreement
import Mathlib.Data.List.Nodup
import Mathlib.Data.List.Perm.Subperm

/-!
# Members under keys

Members with distinct keys are found under them. Lists agree by key when their members match under
the same keys, which is transitive and, for distinct keys, symmetric if the matching is.
-/

namespace GraphQL

variable {α : Type} {key : α → String} {agree : α → α → Bool} {xs ys zs : List α}

theorem key_of_find? {name : String} {x : α} (found : xs.find? (key · == name) = some x) :
    key x = name := by
  simpa using List.find?_some found

/-- Among members with distinct keys every one is found under its key. -/
theorem find?_of_distinct (distinct : (xs.map key).Nodup) {x : α} (among : x ∈ xs) :
    xs.find? (key · == key x) = some x := by
  cases found : xs.find? (key · == key x) with
  | none => exact absurd (beq_self_eq_true _) (List.find?_eq_none.mp found x among)
  | some other =>
    have there := List.mem_of_find?_eq_some found
    rw [List.inj_on_of_nodup_map distinct there among (key_of_find? found)]

theorem agreeByKey_iff :
    agreeByKey key agree xs ys = true ↔ xs.length = ys.length ∧
      ∀ x ∈ xs, ∃ y, ys.find? (key · == key x) = some y ∧ agree x y = true := by
  unfold agreeByKey
  rw [Bool.and_eq_true_iff, beq_iff_eq, List.all_eq_true]
  refine and_congr_right fun _ => forall₂_congr fun x _ => ?_
  cases ys.find? (key · == key x) with
  | none => simp
  | some y => simp

theorem agreeByKey_trans
    (trans : ∀ x ∈ xs, ∀ {y z}, agree x y = true → agree y z = true → agree x z = true)
    (first : agreeByKey key agree xs ys = true) (second : agreeByKey key agree ys zs = true) :
    agreeByKey key agree xs zs = true := by
  rw [agreeByKey_iff] at *
  refine ⟨first.1.trans second.1, fun x among => ?_⟩
  obtain ⟨y, found, same⟩ := first.2 x among
  obtain ⟨z, foundNext, next⟩ := second.2 y (List.mem_of_find?_eq_some found)
  rw [key_of_find? found] at foundNext
  exact ⟨z, foundNext, trans x among same next⟩

/-- Members that match members with distinct keys have the same keys. -/
theorem keys_perm_of_agreeByKey (distinct : (xs.map key).Nodup)
    (same : agreeByKey key agree xs ys = true) : (xs.map key).Perm (ys.map key) := by
  rw [agreeByKey_iff] at same
  have inside : xs.map key ⊆ ys.map key := by
    intro name among
    obtain ⟨x, there, rfl⟩ := List.mem_map.mp among
    obtain ⟨y, found, _⟩ := same.2 x there
    exact List.mem_map.mpr ⟨y, List.mem_of_find?_eq_some found, key_of_find? found⟩
  refine (List.Nodup.subperm distinct inside).perm_of_length_le (Nat.le_of_eq ?_)
  rw [List.length_map, List.length_map, same.1]

theorem agreeByKey_symm (distinct : (xs.map key).Nodup)
    (symm : ∀ x ∈ xs, ∀ {y}, agree x y = true → agree y x = true)
    (same : agreeByKey key agree xs ys = true) : agreeByKey key agree ys xs = true := by
  have keys := keys_perm_of_agreeByKey distinct same
  rw [agreeByKey_iff] at *
  refine ⟨same.1.symm, fun y among => ?_⟩
  obtain ⟨x, there, named⟩ := List.mem_map.mp (keys.mem_iff.mpr (List.mem_map_of_mem among))
  obtain ⟨other, found, equal⟩ := same.2 x there
  rw [named, find?_of_distinct (keys.nodup_iff.mp distinct) among] at found
  cases found
  exact ⟨x, named ▸ find?_of_distinct distinct there, symm x there equal⟩

end GraphQL
