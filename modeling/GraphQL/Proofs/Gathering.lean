import GraphQL.Coercion
import Mathlib.Data.List.Forall2

/-!
# Values of parts

A coercion made of parts gives a value only if each of its parts does. Named values with distinct
names make up a mapping as they stand.
-/

namespace GraphQL

variable {α β : Type}

/-- Every item of the second of two related lists has an item of the first related to it. -/
theorem exists_mem_of_forall₂ {Related : α → β → Prop} {left : List α} {right : List β}
    (related : List.Forall₂ Related left right) {item : β} (among : item ∈ right) :
    ∃ other ∈ left, Related other item := by
  induction related with
  | nil => cases among
  | cons first _ ih =>
    rcases List.mem_cons.mp among with rfl | later
    · exact ⟨_, List.mem_cons_self, first⟩
    · obtain ⟨other, otherAmong, found⟩ := ih later
      exact ⟨other, List.mem_cons_of_mem _ otherAmong, found⟩

/-- Related lists are related by what follows for the items that stand in them. -/
theorem forall₂_imp_of_mem {Related Later : α → β → Prop} {left : List α} {right : List β}
    (related : List.Forall₂ Related left right)
    (implies : ∀ item ∈ left, ∀ other ∈ right, Related item other → Later item other) :
    List.Forall₂ Later left right := by
  induction related with
  | nil => exact .nil
  | cons first _ ih =>
    refine .cons (implies _ List.mem_cons_self _ List.mem_cons_self first) (ih ?_)
    exact fun item among other otherAmong =>
      implies item (List.mem_cons_of_mem _ among) other (List.mem_cons_of_mem _ otherAmong)

namespace Entries

/-- A value under a new key comes last. -/
theorem insert_of_not_mem {entries : Entries α} {key : String} (fresh : key ∉ keys entries)
    (value : α) : insert entries key value = entries ++ [(key, value)] := by
  induction entries with
  | nil => rfl
  | cons entry rest ih =>
    have other : ¬(entry.1 == key) = true := by
      intro same
      exact fresh (List.mem_cons.mpr (Or.inl (eq_of_beq same).symm))
    have later : key ∉ keys rest := fun member => fresh (List.mem_cons_of_mem _ member)
    rw [insert, if_neg other, ih later, List.cons_append]

theorem insertAll_of_nodup {entries more : Entries α} (distinct : (keys (entries ++ more)).Nodup) :
    insertAll entries more = entries ++ more := by
  induction more generalizing entries with
  | nil =>
    rw [List.append_nil]
    rfl
  | cons entry rest ih =>
    have fresh : entry.1 ∉ keys entries := by
      intro member
      rw [keys, List.map_append, List.nodup_append] at distinct
      exact distinct.2.2 _ member _ List.mem_cons_self rfl
    have moved : entries ++ entry :: rest = entries ++ [entry] ++ rest := by
      rw [List.append_assoc, List.singleton_append]
    rw [moved] at distinct ⊢
    rw [← ih distinct, ← insert_of_not_mem fresh]
    rfl

/-- A list with distinct keys is a mapping as it stands. -/
theorem ofList_of_nodup {entries : Entries α} (distinct : (keys entries).Nodup) :
    ofList entries = entries :=
  insertAll_of_nodup distinct

theorem contains_eq_isSome (entries : Entries α) (key : String) :
    contains entries key = (get? entries key).isSome := by
  rw [contains, get?, Option.isSome_map, Bool.eq_iff_iff, List.any_eq_true,
    List.find?_isSome]

theorem get?_of_not_mem {entries : Entries α} {key : String} (fresh : key ∉ keys entries) :
    get? entries key = none := by
  rw [get?, Option.map_eq_none_iff, List.find?_eq_none]
  exact fun entry among same => fresh (List.mem_map.mpr ⟨entry, among, eq_of_beq same⟩)

theorem get?_cons_of_ne {entry : String × α} {rest : Entries α} {key : String}
    (other : entry.1 ≠ key) : get? (entry :: rest) key = get? rest key := by
  rw [get?, List.find?_cons_of_neg (by simpa using other), get?]

theorem get?_cons_self (entry : String × α) (rest : Entries α) :
    get? (entry :: rest) entry.1 = some entry.2 := by
  rw [get?, List.find?_cons_of_pos (by simp)]
  rfl

end Entries

namespace Coercion

theorem exists_of_outcome_bind {part : Coercion α} {next : α → Coercion β} {result : β}
    (succeeded : (part >>= next).outcome = .ok result) :
    ∃ value, part.outcome = .ok value ∧ (next value).outcome = .ok result := by
  rw [outcome_bind] at succeeded
  cases found : part.outcome with
  | ok value =>
    rw [found] at succeeded
    exact ⟨value, rfl, succeeded⟩
  | error stop =>
    rw [found] at succeeded
    cases succeeded

theorem exists_of_outcome_map {part : Coercion α} {change : α → β} {result : β}
    (succeeded : (change <$> part).outcome = .ok result) :
    ∃ value, part.outcome = .ok value ∧ change value = result := by
  obtain ⟨value, found, changed⟩ := exists_of_outcome_bind succeeded
  exact ⟨value, found, Except.ok.inj changed⟩

/-- Parts that are attempted in turn without a failure succeed with the values of each. -/
theorem forall₂_of_attemptAll {parts : List (Coercion α)} {values : List α}
    (succeeded : (attemptAll parts).outcome = .ok (values, [])) :
    List.Forall₂ (fun part value => part.outcome = .ok value) parts values := by
  induction parts generalizing values with
  | nil =>
    cases succeeded
    exact .nil
  | cons part rest ih =>
    rcases part with ⟨outcome, ignored⟩
    rw [attemptAll] at succeeded
    cases outcome with
    | ok value =>
      obtain ⟨⟨others, leaves⟩, found, joined⟩ := exists_of_outcome_bind succeeded
      obtain ⟨_, _, found⟩ := exists_of_outcome_bind found
      cases joined
      exact .cons rfl (ih found)
    | error stop =>
      cases stop with
      | failed failure =>
        obtain ⟨⟨others, leaves⟩, _, joined⟩ := exists_of_outcome_bind succeeded
        cases joined
      | unknownType name => cases succeeded
      | interrupted fault => cases succeeded
      | tooDeep => cases succeeded

/-- What parts that were attempted come to together. -/
def unlessFailed (path : Path) : List α × List CoercionLeaf → Coercion (List α)
  | (values, []) => pure values
  | (_, first :: others) => stop (.failed { path, first, others })

theorem gather_eq (path : Path) (parts : List (Coercion α)) :
    gather path parts = attemptAll parts >>= unlessFailed path := by
  unfold gather
  congr 1
  funext gathered
  obtain ⟨values, leaves⟩ := gathered
  cases leaves <;> rfl

/-- Parts that are gathered succeed with the values of each. -/
theorem forall₂_of_gather {path : Path} {parts : List (Coercion α)} {values : List α}
    (succeeded : (gather path parts).outcome = .ok values) :
    List.Forall₂ (fun part value => part.outcome = .ok value) parts values := by
  obtain ⟨⟨found, leaves⟩, attempted, unfailed⟩ := exists_of_outcome_bind succeeded
  cases leaves with
  | nil =>
    cases unfailed
    exact forall₂_of_attemptAll attempted
  | cons first others => cases unfailed

/-- Parts that are gathered with success each succeed. -/
theorem exists_of_gather {path : Path} {parts : List (Coercion α)} {values : List α}
    (succeeded : (gather path parts).outcome = .ok values) :
    ∀ part ∈ parts, ∃ value, part.outcome = .ok value := by
  intro part among
  obtain ⟨value, _, came⟩ := exists_mem_of_forall₂ (forall₂_of_gather succeeded).flip among
  exact ⟨value, came⟩

end Coercion

end GraphQL
