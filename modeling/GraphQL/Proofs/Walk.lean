import GraphQL.Walk

/-!
# What a walk visits

A walk visits definitions of its table only, each of those whose name it is given, and meets every
reference of what it visits. It ends after finitely many steps, so that a bounded walk with enough
of them computes it.
-/

namespace GraphQL

variable {table : List TypeDefinition} {seen stack : List String} {refs : List TypeRef}
  {name : String} {type : TypeDefinition}

theorem mem_visitedTypes {events : List WalkEvent} :
    type ∈ visitedTypes events ↔ .visit type ∈ events := by
  unfold visitedTypes
  rw [List.mem_filterMap]
  constructor
  · rintro ⟨event, member, visited⟩
    cases event with
    | visit other =>
      cases visited
      exact member
    | edge _ _ _ | missing _ _ _ | missingRoot _ => cases visited
  · exact fun member => ⟨_, member, rfl⟩

theorem visited?_referenceEvent (source : String) (reference : Reference) :
    (referenceEvent table source reference).visited? = none := by
  unfold referenceEvent
  split <;> rfl

theorem not_visit_mem_references (source : String) (references : List Reference) :
    .visit type ∉ references.map (referenceEvent table source) := by
  intro member
  obtain ⟨reference, _, same⟩ := List.mem_map.mp member
  have visited : (referenceEvent table source reference).visited? = none :=
    visited?_referenceEvent source reference
  rw [same] at visited
  cases visited

/-- What a walk visits is the definition of its name. -/
theorem lookupType?_of_visit (visited : .visit type ∈ walkFrom table seen stack) :
    lookupType? table type.name = some type := by
  fun_induction walkFrom table seen stack with
  | case1 seen => cases visited
  | case2 seen name rest fresh missing ih =>
    rcases List.mem_cons.mp visited with same | later
    · cases same
    · exact ih later
  | case3 seen name rest fresh first found ih =>
    rcases List.mem_append.mp visited with here | later
    · rcases List.mem_cons.mp here with same | reference
      · cases same
        rwa [name_of_lookupType? found]
      · exact absurd reference (not_visit_mem_references name _)
    · exact ih later
  | case4 seen name rest known ih => exact ih visited

/-- A definition whose name a walk is given has been seen before or is visited. -/
theorem seen_or_visit (member : name ∈ stack) (defined : lookupType? table name = some type) :
    name ∈ seen ∨ .visit type ∈ walkFrom table seen stack := by
  fun_induction walkFrom table seen stack with
  | case1 seen => cases member
  | case2 seen first rest fresh missing ih =>
    rcases List.mem_cons.mp member with rfl | member
    · rw [missing] at defined
      cases defined
    · exact (ih member).imp_right (List.mem_cons_of_mem _)
  | case3 seen first rest fresh here found ih =>
    by_cases same : name = first
    · cases same
      rw [found] at defined
      cases defined
      exact Or.inr (List.mem_append_left _ List.mem_cons_self)
    · have later : name ∈ rest := (List.mem_cons.mp member).resolve_left same
      rcases ih (List.mem_append_right _ later) with known | visited
      · exact Or.inl ((List.mem_cons.mp known).resolve_left same)
      · exact Or.inr (List.mem_append_right _ visited)
  | case4 seen first rest known ih =>
    rcases List.mem_cons.mp member with rfl | member
    · exact Or.inl (by simpa using known)
    · exact ih member

/-- A walk meets every reference of what it visits. -/
theorem referenceEvent_mem (visited : .visit type ∈ walkFrom table seen stack)
    {reference : Reference} (refers : reference ∈ type.references) :
    referenceEvent table type.name reference ∈ walkFrom table seen stack := by
  fun_induction walkFrom table seen stack with
  | case1 seen => cases visited
  | case2 seen name rest fresh missing ih =>
    rcases List.mem_cons.mp visited with same | later
    · cases same
    · exact List.mem_cons_of_mem _ (ih later)
  | case3 seen name rest fresh first found ih =>
    rcases List.mem_append.mp visited with here | later
    · rcases List.mem_cons.mp here with same | unlike
      · cases same
        rw [name_of_lookupType? found]
        exact List.mem_append_left _ (List.mem_cons_of_mem _ (List.mem_map_of_mem refers))
      · exact absurd unlike (not_visit_mem_references name _)
    · exact List.mem_append_right _ (ih later)
  | case4 seen name rest known ih => exact ih visited

/-- A walk misses only references of what it visits. -/
theorem exists_reference_of_missing {source target : String} {place : ReferencePlace}
    (missed : .missing source place target ∈ walkFrom table seen stack) :
    ∃ type, .visit type ∈ walkFrom table seen stack ∧
      ∃ reference ∈ type.references, lookupType? table reference.target = none := by
  fun_induction walkFrom table seen stack with
  | case1 seen => cases missed
  | case2 seen name rest fresh missing ih =>
    rcases List.mem_cons.mp missed with same | later
    · cases same
    · obtain ⟨type, visited, refers⟩ := ih later
      exact ⟨type, List.mem_cons_of_mem _ visited, refers⟩
  | case3 seen name rest fresh first found ih =>
    rcases List.mem_append.mp missed with here | later
    · rcases List.mem_cons.mp here with same | met
      · cases same
      · obtain ⟨reference, refers, event⟩ := List.mem_map.mp met
        refine ⟨first, List.mem_append_left _ List.mem_cons_self, reference, refers, ?_⟩
        unfold referenceEvent at event
        split at event
        · cases event
        · assumption
    · obtain ⟨type, visited, refers⟩ := ih later
      exact ⟨type, List.mem_append_right _ visited, refers⟩
  | case4 seen name rest known ih => exact ih missed

/-- A root that a walk misses is one of the names that it is given, and it is not defined. -/
theorem undefined_of_missingRoot (missed : .missingRoot name ∈ walkFrom table seen stack) :
    name ∈ stack ∧ lookupType? table name = none := by
  fun_induction walkFrom table seen stack with
  | case1 seen => cases missed
  | case2 seen first rest fresh missing ih =>
    rcases List.mem_cons.mp missed with same | later
    · cases same
      exact ⟨List.mem_cons_self, missing⟩
    · exact (ih later).imp_left (List.mem_cons_of_mem _)
  | case3 seen first rest fresh type found ih =>
    rcases List.mem_append.mp missed with here | later
    · rcases List.mem_cons.mp here with same | met
      · cases same
      · obtain ⟨reference, _, event⟩ := List.mem_map.mp met
        unfold referenceEvent at event
        split at event <;> cases event
    · obtain ⟨among, undefined⟩ := ih later
      refine ⟨?_, undefined⟩
      rcases List.mem_append.mp among with pushed | waiting
      · have defined := (Bool.and_eq_true_iff.mp (List.mem_filter.mp pushed).2).1
        rw [undefined] at defined
        cases defined
      · exact List.mem_cons_of_mem _ waiting
  | case4 seen first rest known ih => exact (ih missed).imp_left (List.mem_cons_of_mem _)

theorem visitedNames_append (events more : List WalkEvent) :
    visitedNames (events ++ more) = visitedNames events ++ visitedNames more := by
  unfold visitedNames visitedTypes
  rw [List.filterMap_append, List.map_append]

theorem visitedNames_references (source : String) (references : List Reference) :
    visitedNames (references.map (referenceEvent table source)) = [] := by
  unfold visitedNames visitedTypes
  rw [List.filterMap_map, List.map_eq_nil_iff, List.filterMap_eq_nil_iff]
  exact fun reference _ => visited?_referenceEvent source reference

/-- A walk visits no name twice, and none that has been seen. -/
theorem nodup_visitedNames :
    (visitedNames (walkFrom table seen stack)).Nodup ∧
      ∀ name ∈ visitedNames (walkFrom table seen stack), name ∉ seen := by
  fun_induction walkFrom table seen stack with
  | case1 seen => exact ⟨List.nodup_nil, fun _ among => absurd among List.not_mem_nil⟩
  | case2 seen first rest fresh missing ih => exact ih
  | case3 seen first rest fresh type found ih =>
    obtain ⟨distinct, unseen⟩ := ih
    have names : visitedNames (.visit type :: type.references.map (referenceEvent table first) ++
        walkFrom table (first :: seen) (unseenTargets table (first :: seen) type ++ rest)) =
        first :: visitedNames (walkFrom table (first :: seen)
          (unseenTargets table (first :: seen) type ++ rest)) := by
      have here : visitedNames (.visit type :: type.references.map (referenceEvent table first)) =
          type.name :: visitedNames (type.references.map (referenceEvent table first)) := rfl
      rw [visitedNames_append, here, visitedNames_references, name_of_lookupType? found]
      rfl
    rw [names]
    refine ⟨List.nodup_cons.mpr ⟨fun again => unseen first again List.mem_cons_self, distinct⟩, ?_⟩
    intro name among known
    rcases List.mem_cons.mp among with rfl | later
    · rw [List.contains_iff_mem.mpr known] at fresh
      cases fresh
    · exact unseen name later (List.mem_cons_of_mem _ known)
  | case4 seen first rest known ih => exact ih

section References

/-- What a walk from references visits is the definition of its name. -/
theorem lookupType?_of_visit_references (visited : .visit type ∈ walkReferences table seen refs) :
    lookupType? table type.name = some type := by
  induction refs generalizing seen with
  | nil => cases visited
  | cons ref rest ih =>
    unfold walkReferences at visited
    split at visited
    · rcases List.mem_cons.mp visited with same | later
      · cases same
      · exact ih later
    · rcases List.mem_append.mp visited with here | later
      · exact lookupType?_of_visit here
      · exact ih later

/-- A walk from references meets every reference of what it visits. -/
theorem referenceEvent_mem_references (visited : .visit type ∈ walkReferences table seen refs)
    {reference : Reference} (refers : reference ∈ type.references) :
    referenceEvent table type.name reference ∈ walkReferences table seen refs := by
  induction refs generalizing seen with
  | nil => cases visited
  | cons ref rest ih =>
    unfold walkReferences at visited ⊢
    split at visited
    · rcases List.mem_cons.mp visited with same | later
      · cases same
      · exact List.mem_cons_of_mem _ (ih later)
    · rcases List.mem_append.mp visited with here | later
      · exact List.mem_append_left _ (referenceEvent_mem here refers)
      · exact List.mem_append_right _ (ih later)

/-- A definition that a walk from references is given by name has been seen before or is visited. -/
theorem seen_or_visit_references (member : .named name ∈ refs)
    (defined : lookupType? table name = some type) :
    name ∈ seen ∨ .visit type ∈ walkReferences table seen refs := by
  induction refs generalizing seen with
  | nil => cases member
  | cons ref rest ih =>
    unfold walkReferences
    split
    · next broken =>
      rcases List.mem_cons.mp member with rfl | member
      · cases broken
      · exact (ih member).imp_right (List.mem_cons_of_mem _)
    · next first plain =>
      rcases List.mem_cons.mp member with rfl | member
      · cases plain
        have here : name ∈ [name] := List.mem_singleton_self name
        exact (seen_or_visit here defined).imp_right (List.mem_append_left _)
      · have later : name ∈ (visitedNames (walkFrom table seen [first])).reverse ++ seen ∨ _ :=
          ih member
        rcases later with known | visited
        · rcases List.mem_append.mp known with visited | known
          · obtain ⟨other, present, named⟩ := List.mem_map.mp (List.mem_reverse.mp visited)
            have inside := mem_visitedTypes.mp present
            have same := lookupType?_of_visit inside
            rw [named, defined] at same
            cases same
            exact Or.inr (List.mem_append_left _ inside)
          · exact Or.inl known
        · exact Or.inr (List.mem_append_right _ visited)

/-- A reference that is no plain name leads nowhere. -/
theorem missingRoot_mem_of_broken {ref : TypeRef} (member : ref ∈ refs)
    (broken : ref.plainName? = none) :
    .missingRoot ref.text ∈ walkReferences table seen refs := by
  induction refs generalizing seen with
  | nil => cases member
  | cons first rest ih =>
    unfold walkReferences
    rcases List.mem_cons.mp member with rfl | member
    · rw [broken]
      exact List.mem_cons_self
    · split
      · exact List.mem_cons_of_mem _ (ih member)
      · exact List.mem_append_right _ (ih member)

/-- A name that is not defined leads nowhere. -/
theorem missingRoot_mem (member : .named name ∈ refs) (undefined : lookupType? table name = none)
    (fresh : name ∉ seen) : .missingRoot name ∈ walkReferences table seen refs := by
  induction refs generalizing seen with
  | nil => cases member
  | cons first rest ih =>
    unfold walkReferences
    rcases List.mem_cons.mp member with rfl | member
    · refine List.mem_append_left _ ?_
      have unseen : seen.contains name = false :=
        Bool.eq_false_iff.mpr fun known => fresh (List.contains_iff_mem.mp known)
      rw [walkFrom, dif_pos unseen]
      split
      · exact List.mem_cons_self
      · next found =>
        rw [undefined] at found
        cases found
    · split
      · exact List.mem_cons_of_mem _ (ih member fresh)
      · next plain =>
        refine List.mem_append_right _ (ih member fun known => ?_)
        rcases List.mem_append.mp known with visited | known
        · obtain ⟨type, present, named⟩ := List.mem_map.mp (List.mem_reverse.mp visited)
          have defined := lookupType?_of_visit (mem_visitedTypes.mp present)
          rw [named, undefined] at defined
          cases defined
        · exact fresh known

/-- A walk from references misses only references of what it visits. -/
theorem exists_reference_of_missing_references {source target : String} {place : ReferencePlace}
    (missed : .missing source place target ∈ walkReferences table seen refs) :
    ∃ type, .visit type ∈ walkReferences table seen refs ∧
      ∃ reference ∈ type.references, lookupType? table reference.target = none := by
  induction refs generalizing seen with
  | nil => cases missed
  | cons ref rest ih =>
    unfold walkReferences at missed ⊢
    split at missed
    · rcases List.mem_cons.mp missed with same | later
      · cases same
      · obtain ⟨type, visited, refers⟩ := ih later
        exact ⟨type, List.mem_cons_of_mem _ visited, refers⟩
    · rcases List.mem_append.mp missed with here | later
      · obtain ⟨type, visited, refers⟩ := exists_reference_of_missing here
        exact ⟨type, List.mem_append_left _ visited, refers⟩
      · obtain ⟨type, visited, refers⟩ := ih later
        exact ⟨type, List.mem_append_right _ visited, refers⟩

/-- From plain names a walk misses only roots that are not defined. -/
theorem undefined_of_missingRoot_references (plain : ∀ ref ∈ refs, ref.plainName?.isSome = true)
    (missed : .missingRoot name ∈ walkReferences table seen refs) :
    (∃ ref ∈ refs, ref.plainName? = some name) ∧ lookupType? table name = none := by
  induction refs generalizing seen with
  | nil => cases missed
  | cons ref rest ih =>
    obtain ⟨here, later⟩ := List.forall_mem_cons.mp plain
    unfold walkReferences at missed
    split at missed
    · next broken =>
      rw [broken] at here
      cases here
    · next own named =>
      rcases List.mem_append.mp missed with first | after
      · obtain ⟨only, undefined⟩ := undefined_of_missingRoot first
        rw [List.mem_singleton.mp only] at undefined ⊢
        exact ⟨⟨ref, List.mem_cons_self, named⟩, undefined⟩
      · obtain ⟨⟨other, among, named⟩, undefined⟩ := ih later after
        exact ⟨⟨other, List.mem_cons_of_mem _ among, named⟩, undefined⟩

/-- A walk from references visits no name twice, and none that has been seen. -/
theorem nodup_visitedNames_references :
    (visitedNames (walkReferences table seen refs)).Nodup ∧
      ∀ name ∈ visitedNames (walkReferences table seen refs), name ∉ seen := by
  induction refs generalizing seen with
  | nil => exact ⟨List.nodup_nil, fun _ among => absurd among List.not_mem_nil⟩
  | cons ref rest ih =>
    unfold walkReferences
    split
    · exact ih
    · next first _ =>
      have own : (visitedNames (walkFrom table seen [first])).Nodup ∧
          ∀ name ∈ visitedNames (walkFrom table seen [first]), name ∉ seen := nodup_visitedNames
      obtain ⟨distinct, unseen⟩ := own
      rw [visitedNames_append]
      refine ⟨List.nodup_append.mpr ⟨distinct, ih.1, ?_⟩, fun name among known => ?_⟩
      · rintro name here _ after rfl
        exact ih.2 name after (List.mem_append_left _ (List.mem_reverse.mpr here))
      · rcases List.mem_append.mp among with here | after
        · exact unseen name here known
        · exact ih.2 name after (List.mem_append_right _ known)

end References

/-- The walk from the names on a stack, if a number of steps is enough for it. -/
def walkWithin (table : List TypeDefinition) :
    Nat → List String → List String → Option (List WalkEvent)
  | _, _, [] => some []
  | 0, _, _ :: _ => none
  | steps + 1, seen, name :: rest =>
    if seen.contains name then walkWithin table steps seen rest
    else
      match lookupType? table name with
      | none => (walkWithin table steps seen rest).map (.missingRoot name :: ·)
      | some type =>
        (walkWithin table steps (name :: seen)
          (unseenTargets table (name :: seen) type ++ rest)).map
            (.visit type :: type.references.map (referenceEvent table name) ++ ·)

variable {steps : Nat} {events : List WalkEvent}

theorem walkFrom_eq_of_within (walked : walkWithin table steps seen stack = some events) :
    walkFrom table seen stack = events := by
  induction steps generalizing seen stack events with
  | zero =>
    cases stack with
    | nil =>
      cases walked
      rw [walkFrom]
    | cons name rest => cases walked
  | succ steps ih =>
    cases stack with
    | nil =>
      cases walked
      rw [walkFrom]
    | cons name rest =>
      unfold walkWithin at walked
      rw [walkFrom]
      split at walked
      · next known =>
        rw [dif_neg (by rw [known]; exact Bool.noConfusion)]
        exact ih walked
      · next fresh =>
        rw [dif_pos (Bool.not_eq_true _ ▸ fresh)]
        split at walked
        · next missing =>
          obtain ⟨later, restWalked, rfl⟩ := Option.map_eq_some_iff.mp walked
          split
          · rw [ih restWalked]
          · next found =>
            rw [missing] at found
            cases found
        · next type found =>
          obtain ⟨later, restWalked, rfl⟩ := Option.map_eq_some_iff.mp walked
          split
          · next missing =>
            rw [found] at missing
            cases missing
          · next other again =>
            rw [found] at again
            cases again
            rw [ih restWalked]

/-- The walk from some references, if a number of steps is enough for each of them. -/
def walkReferencesWithin (table : List TypeDefinition) (steps : Nat) (seen : List String) :
    List TypeRef → Option (List WalkEvent)
  | [] => some []
  | ref :: rest =>
    match ref.plainName? with
    | none => (walkReferencesWithin table steps seen rest).map (.missingRoot ref.text :: ·)
    | some name =>
      (walkWithin table steps seen [name]).bind fun events =>
        (walkReferencesWithin table steps ((visitedNames events).reverse ++ seen) rest).map
          (events ++ ·)

theorem walkReferences_eq_of_within
    (walked : walkReferencesWithin table steps seen refs = some events) :
    walkReferences table seen refs = events := by
  induction refs generalizing seen events with
  | nil =>
    cases walked
    rfl
  | cons ref rest ih =>
    unfold walkReferencesWithin at walked
    unfold walkReferences
    cases plain : ref.plainName? with
    | none =>
      rw [plain] at walked
      obtain ⟨later, restWalked, rfl⟩ := Option.map_eq_some_iff.mp walked
      rw [ih restWalked]
    | some name =>
      rw [plain] at walked
      obtain ⟨here, walkedHere, walked⟩ := Option.bind_eq_some_iff.mp walked
      obtain ⟨later, restWalked, rfl⟩ := Option.map_eq_some_iff.mp walked
      dsimp only
      rw [walkFrom_eq_of_within walkedHere, ih restWalked]

end GraphQL
