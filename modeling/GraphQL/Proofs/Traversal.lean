import GraphQL.Proofs.Walk
import GraphQL.Registry.References
import Mathlib.Data.List.Basic
import Mathlib.Data.List.Flatten
import Mathlib.Logic.Relation

/-!
# Walks are depth-first searches

A walk has a stack of names that wait to be looked at, on which a name may stand several times. It
visits what a recursive search finds, in the same order, and that is what can be reached from its
roots. On its way it meets each reference of what it visits once, and each root that is not defined.
-/

namespace GraphQL

variable {table : List TypeDefinition} {seen names more roots stack : List String} {name : String}
  {type : TypeDefinition}

/-! ## Search -/

theorem unseenCount_append_le (more seen : List String) :
    unseenCount table (more ++ seen) ≤ unseenCount table seen := by
  refine List.countP_mono_left fun type _ unseen => ?_
  rw [List.contains_append, Bool.not_or, Bool.and_eq_true] at unseen
  exact unseen.2

/-- What a depth-first search finds from some names in turn, when the names in `seen` have been
found: each definition, and after it what is found from the names that it refers to. -/
def search (table : List TypeDefinition) (seen : List String) : List String → List TypeDefinition
  | [] => []
  | name :: rest =>
    if _fresh : seen.contains name = false then
      match _found : lookupType? table name with
      | none => search table seen rest
      | some type =>
        let below := search table (name :: seen) (Registry.targets type)
        type :: below ++
          search table ((below.map TypeDefinition.name).reverse ++ name :: seen) rest
    else search table seen rest
termination_by names => (unseenCount table seen, names.length)
decreasing_by
  · exact Prod.Lex.right _ (by simp)
  · exact Prod.Lex.left _ _ (unseenCount_cons_lt _found _fresh)
  · exact Prod.Lex.left _ _
      (Nat.lt_of_le_of_lt (unseenCount_append_le _ _) (unseenCount_cons_lt _found _fresh))
  · exact Prod.Lex.right _ (by simp)

theorem search_cons_of_mem (known : name ∈ seen) :
    search table seen (name :: names) = search table seen names := by
  rw [search, dif_neg]
  rw [List.contains_iff_mem.mpr known]
  exact Bool.noConfusion

theorem search_cons_of_undefined (undefined : lookupType? table name = none) :
    search table seen (name :: names) = search table seen names := by
  rw [search]
  split
  · split
    · rfl
    · next found => cases undefined.symm.trans found
  · rfl

theorem search_cons_of_defined (fresh : name ∉ seen)
    (defined : lookupType? table name = some type) :
    search table seen (name :: names) =
      type :: search table (name :: seen) (Registry.targets type) ++
        search table (((search table (name :: seen) (Registry.targets type)).map
          TypeDefinition.name).reverse ++ name :: seen) names := by
  rw [search, dif_pos]
  · split
    · next undefined => cases undefined.symm.trans defined
    · next found =>
      cases found.symm.trans defined
      rfl
  · exact Bool.eq_false_iff.mpr fun known => fresh (List.contains_iff_mem.mp known)

/-- A search from some names and then from more goes on with what the first have left. -/
theorem search_append (names more : List String) :
    search table seen (names ++ more) = search table seen names ++
      search table (((search table seen names).map TypeDefinition.name).reverse ++ seen) more := by
  fun_induction search table seen names with
  | case1 seen => rfl
  | case2 seen name rest fresh undefined ih =>
    rw [List.cons_append, search_cons_of_undefined undefined, ih]
  | case3 seen name rest fresh type defined below ihBelow ihRest =>
    have unseen : name ∉ seen := by simpa using fresh
    rw [List.cons_append, search_cons_of_defined unseen defined, ihRest]
    simp only [List.map_append, List.map_cons, List.reverse_append, List.reverse_cons,
      List.append_assoc, List.cons_append, List.nil_append, name_of_lookupType? defined, below]
  | case4 seen name rest known ih =>
    rw [List.cons_append, search_cons_of_mem (by simpa using known), ih]

/-- A search takes no notice of names that were found before or are not defined. -/
theorem search_filter {keep : String → Bool}
    (dropped : ∀ name, keep name = false → name ∈ seen ∨ lookupType? table name = none) :
    search table seen (names.filter keep) = search table seen names := by
  fun_induction search table seen names with
  | case1 seen => rw [List.filter_nil, search]
  | case2 seen name rest fresh undefined ih =>
    rw [List.filter_cons]
    split
    · rw [search_cons_of_undefined undefined, ih dropped]
    · exact ih dropped
  | case3 seen name rest fresh type defined below ihBelow ihRest =>
    have unseen : name ∉ seen := by simpa using fresh
    have kept : keep name = true := by
      refine eq_true_of_ne_false fun lost => ?_
      rcases dropped name lost with known | undefined
      · exact unseen known
      · cases undefined.symm.trans defined
    rw [List.filter_cons_of_pos kept, search_cons_of_defined unseen defined, ihRest]
    intro other lost
    exact (dropped other lost).imp_left fun known =>
      List.mem_append_right _ (List.mem_cons_of_mem _ known)
  | case4 seen name rest known ih =>
    rw [List.filter_cons]
    split
    · rw [search_cons_of_mem (by simpa using known), ih dropped]
    · exact ih dropped

/-! ## The stack -/

theorem visitedTypes_visit (references : List Reference) (events : List WalkEvent) :
    visitedTypes (.visit type :: references.map (referenceEvent table name) ++ events) =
      type :: visitedTypes events := by
  have none : (references.map (referenceEvent table name)).filterMap WalkEvent.visited? = [] := by
    rw [List.filterMap_map, List.filterMap_eq_nil_iff]
    exact fun reference _ => visited?_referenceEvent name reference
  have here : WalkEvent.visited? (.visit type) = some type := rfl
  unfold visitedTypes
  rw [List.filterMap_append, List.filterMap_cons_some here, none]
  rfl

/-- A walk visits what a search from the names on its stack finds, in the same order: what is put on
the stack is searched before the rest, and it lacks nothing that the search would find. -/
theorem visitedTypes_walkFrom :
    visitedTypes (walkFrom table seen stack) = search table seen stack := by
  fun_induction walkFrom table seen stack with
  | case1 seen => rw [search]; rfl
  | case2 seen name rest fresh undefined ih => rw [search_cons_of_undefined undefined, ← ih]; rfl
  | case3 seen name rest fresh type defined ih =>
    have unseen : name ∉ seen := by simpa using fresh
    have dropped : ∀ other, ((lookupType? table other).isSome &&
        !(name :: seen).contains other) = false →
          other ∈ name :: seen ∨ lookupType? table other = none := by
      intro other lost
      rcases Bool.and_eq_false_iff.mp lost with undefined | known
      · exact Or.inr (by simpa using undefined)
      · exact Or.inl (List.contains_iff_mem.mp (by simpa only [Bool.not_eq_false'] using known))
    rw [visitedTypes_visit, ih, search_append, search_cons_of_defined unseen defined]
    unfold unseenTargets
    rw [search_filter dropped]
    rfl
  | case4 seen name rest known ih => rw [search_cons_of_mem (by simpa using known), ih]

/-! ## What is found -/

/-- The definition of a name refers to another name. -/
def Refers (table : List TypeDefinition) (source target : String) : Prop :=
  ∃ type, lookupType? table source = some type ∧ target ∈ Registry.targets type

theorem lookupType?_of_mem_search (found : type ∈ search table seen names) :
    lookupType? table type.name = some type := by
  rw [← visitedTypes_walkFrom] at found
  exact lookupType?_of_visit (mem_visitedTypes.mp found)

/-- What a search finds can be reached from one of its names. -/
theorem exists_reaches_of_mem_search (found : type ∈ search table seen names) :
    ∃ name ∈ names, Relation.ReflTransGen (Refers table) name type.name := by
  fun_induction search table seen names with
  | case1 seen => cases found
  | case2 seen name rest fresh undefined ih =>
    obtain ⟨origin, among, reaches⟩ := ih found
    exact ⟨origin, List.mem_cons_of_mem _ among, reaches⟩
  | case3 seen name rest fresh first defined below ihBelow ihRest =>
    rcases List.mem_cons.mp found with rfl | found
    · exact ⟨name, List.mem_cons_self, name_of_lookupType? defined ▸ .refl⟩
    · rcases List.mem_append.mp found with inside | after
      · obtain ⟨origin, referred, reaches⟩ := ihBelow inside
        exact ⟨name, List.mem_cons_self, .head ⟨first, defined, referred⟩ reaches⟩
      · obtain ⟨origin, among, reaches⟩ := ihRest after
        exact ⟨origin, List.mem_cons_of_mem _ among, reaches⟩
  | case4 seen name rest known ih =>
    obtain ⟨origin, among, reaches⟩ := ih found
    exact ⟨origin, List.mem_cons_of_mem _ among, reaches⟩

/-- A defined name that is searched from was found before or is found. -/
theorem mem_of_mem_names (among : name ∈ names) (defined : lookupType? table name = some type) :
    name ∈ seen ∨ type ∈ search table seen names := by
  rw [← visitedTypes_walkFrom, mem_visitedTypes]
  exact seen_or_visit among defined

/-- Whatever a found definition refers to was found before or is found, too. -/
theorem mem_of_mem_targets (found : type ∈ search table seen names)
    (referred : name ∈ Registry.targets type) {target : TypeDefinition}
    (defined : lookupType? table name = some target) :
    name ∈ seen ∨ target ∈ search table seen names := by
  fun_induction search table seen names with
  | case1 seen => cases found
  | case2 seen other rest fresh undefined ih => exact ih found
  | case3 seen other rest fresh first here below ihBelow ihRest =>
    have known : name ∈ other :: seen → name ∈ seen ∨ target ∈ first :: (below ++
        search table ((below.map TypeDefinition.name).reverse ++ other :: seen) rest) := by
      intro known
      rcases List.mem_cons.mp known with rfl | known
      · cases here.symm.trans defined
        exact Or.inr List.mem_cons_self
      · exact Or.inl known
    have inside : target ∈ below → target ∈ first :: (below ++
        search table ((below.map TypeDefinition.name).reverse ++ other :: seen) rest) :=
      fun inside => List.mem_cons_of_mem _ (List.mem_append_left _ inside)
    rcases List.mem_cons.mp found with rfl | found
    · rcases mem_of_mem_names referred defined with before | now
      · exact known before
      · exact Or.inr (inside now)
    · rcases List.mem_append.mp found with first | after
      · rcases ihBelow first with before | now
        · exact known before
        · exact Or.inr (inside now)
      · rcases ihRest after with before | now
        · rcases List.mem_append.mp before with own | before
          · obtain ⟨other, among, named⟩ := List.mem_map.mp (List.mem_reverse.mp own)
            have same := lookupType?_of_mem_search among
            rw [named, defined] at same
            cases same
            exact Or.inr (inside among)
          · exact known before
        · exact Or.inr (List.mem_cons_of_mem _ (List.mem_append_right _ now))
  | case4 seen other rest known ih => exact ih found

/-- A search that begins with nothing finds every definition that can be reached. -/
theorem mem_search_iff : type ∈ search table [] roots ↔
    lookupType? table type.name = some type ∧
      ∃ root ∈ roots, Relation.ReflTransGen (Refers table) root type.name := by
  constructor
  · exact fun found => ⟨lookupType?_of_mem_search found, exists_reaches_of_mem_search found⟩
  · rintro ⟨defined, root, among, reaches⟩
    generalize type.name = name at reaches defined
    induction reaches generalizing type with
    | refl => exact (mem_of_mem_names among defined).resolve_left List.not_mem_nil
    | tail _ refers ih =>
      obtain ⟨source, found, referred⟩ := refers
      exact (mem_of_mem_targets (ih found) referred defined).resolve_left List.not_mem_nil

/-! ## What is met on the way -/

namespace TypeDefinition

/-- The references of a definition that lead to a definition, as a walk reports them. -/
def followed (table : List TypeDefinition) (type : TypeDefinition) :
    List (String × String × String) :=
  (type.references.filter fun reference => (lookupType? table reference.target).isSome).map
    fun reference => (type.name, reference.target, reference.place.text)

/-- The references of a definition that lead nowhere, as a walk reports them. -/
def dangling (table : List TypeDefinition) (type : TypeDefinition) :
    List (String × String × String) :=
  (type.references.filter fun reference => (lookupType? table reference.target).isNone).map
    fun reference => (type.name, reference.place.text, reference.target)

end TypeDefinition

/-- The roots that are not defined, as a walk reports them. -/
def missingRoots (table : List TypeDefinition) (roots : List String) :
    List (String × String × String) :=
  (roots.filter fun root => (lookupType? table root).isNone).map ("<root>", "root", ·)

/-- Reading what a walk reports about references keeps the references that pass a test. -/
theorem filterMap_references {α : Type} {read : WalkEvent → Option α} {test : Reference → Bool}
    {give : Reference → α} (references : List Reference)
    (reads : ∀ reference, read (referenceEvent table name reference) =
      if test reference then some (give reference) else none) :
    (references.map (referenceEvent table name)).filterMap read =
      (references.filter test).map give := by
  induction references with
  | nil => rfl
  | cons reference rest ih =>
    rw [List.map_cons, List.filterMap_cons, reads, List.filter_cons, ih]
    cases test reference <;> rfl

theorem filterMap_edge?_references (references : List Reference) :
    (references.map (referenceEvent table name)).filterMap WalkEvent.edge? =
      (references.filter fun reference => (lookupType? table reference.target).isSome).map
        fun reference => (name, reference.target, reference.place.text) := by
  refine filterMap_references references fun reference => ?_
  unfold referenceEvent
  cases lookupType? table reference.target <;> rfl

theorem filterMap_missing?_references (references : List Reference) :
    (references.map (referenceEvent table name)).filterMap WalkEvent.missing? =
      (references.filter fun reference => (lookupType? table reference.target).isNone).map
        fun reference => (name, reference.place.text, reference.target) := by
  refine filterMap_references references fun reference => ?_
  unfold referenceEvent
  cases lookupType? table reference.target <;> rfl

/-- A walk follows each reference of what it visits that leads to a definition. -/
theorem filterMap_edge?_walkFrom :
    (walkFrom table seen stack).filterMap WalkEvent.edge? =
      (visitedTypes (walkFrom table seen stack)).flatMap (TypeDefinition.followed table) := by
  fun_induction walkFrom table seen stack with
  | case1 seen => rfl
  | case2 seen name rest fresh undefined ih => exact ih
  | case3 seen name rest fresh type defined ih =>
    rw [visitedTypes_visit, List.flatMap_cons, ← ih, List.filterMap_append]
    refine congrArg (· ++ _) ?_
    unfold TypeDefinition.followed
    rw [name_of_lookupType? defined, ← filterMap_edge?_references]
    rfl
  | case4 seen name rest known ih => exact ih

/-- What a walk puts on its stack is defined. -/
theorem missingRoots_unseenTargets (stack : List String) :
    missingRoots table (unseenTargets table seen type ++ stack) = missingRoots table stack := by
  have none : (unseenTargets table seen type).filter
      (fun name => (lookupType? table name).isNone) = [] := by
    refine List.filter_eq_nil_iff.mpr fun name pushed undefined => ?_
    have defined := (Bool.and_eq_true_iff.mp (List.mem_filter.mp pushed).2).1
    rw [Option.isNone_iff_eq_none.mp undefined] at defined
    cases defined
  unfold missingRoots
  rw [List.filter_append, none, List.nil_append]

/-- A walk misses each reference of what it visits that leads nowhere, and each name on its stack
that is not defined, as often as it stands there. -/
theorem filterMap_missing?_walkFrom
    (known : ∀ name ∈ seen, (lookupType? table name).isSome = true) :
    ((walkFrom table seen stack).filterMap WalkEvent.missing?).Perm
      ((visitedTypes (walkFrom table seen stack)).flatMap (TypeDefinition.dangling table) ++
        missingRoots table stack) := by
  fun_induction walkFrom table seen stack with
  | case1 seen => exact .nil
  | case2 seen name rest fresh undefined ih =>
    have first : missingRoots table (name :: rest) =
        ("<root>", "root", name) :: missingRoots table rest := by
      unfold missingRoots
      rw [List.filter_cons_of_pos (by rw [undefined]; rfl), List.map_cons]
    rw [first]
    exact ((ih known).cons _).trans List.perm_middle.symm
  | case3 seen name rest fresh type defined ih =>
    have waiting : missingRoots table (name :: rest) = missingRoots table rest := by
      unfold missingRoots
      rw [List.filter_cons_of_neg (by rw [defined]; exact Bool.noConfusion)]
    have here : (WalkEvent.visit type ::
        type.references.map (referenceEvent table name)).filterMap WalkEvent.missing? =
          type.dangling table := by
      unfold TypeDefinition.dangling
      rw [name_of_lookupType? defined, ← filterMap_missing?_references]
      rfl
    rw [visitedTypes_visit, List.flatMap_cons, waiting, List.filterMap_append, here,
      List.append_assoc, ← missingRoots_unseenTargets]
    refine (ih ?_).append_left _
    refine List.forall_mem_cons.mpr ⟨?_, known⟩
    rw [defined]
    rfl
  | case4 seen name rest seenBefore ih =>
    have waiting : missingRoots table (name :: rest) = missingRoots table rest := by
      have defined := known name (by simpa using seenBefore)
      unfold missingRoots
      rw [List.filter_cons_of_neg (by simpa using Option.isSome_iff_ne_none.mp defined)]
    rw [waiting]
    exact ih known

/-! ## Steps -/

/-- The references of the definitions that have not been seen. -/
def unseenReferences (table : List TypeDefinition) (seen : List String) : List Reference :=
  (table.filter fun type => !seen.contains type.name).flatMap TypeDefinition.references

/-- Of two tests the stricter one keeps fewer parts of the items, if some item passes only the
other. -/
theorem length_flatMap_filter_add_le {α β : Type} {strict lax : α → Bool} {parts : α → List β}
    {items : List α} {item : α} (weaker : ∀ x, strict x = true → lax x = true)
    (member : item ∈ items) (passes : lax item = true) (fails : strict item = false) :
    ((items.filter strict).flatMap parts).length + (parts item).length ≤
      ((items.filter lax).flatMap parts).length := by
  have fewer : ∀ items : List α, ((items.filter strict).flatMap parts).length ≤
      ((items.filter lax).flatMap parts).length := fun items =>
    ((List.monotone_filter_right items weaker).flatMap parts).length_le
  induction items with
  | nil => cases member
  | cons first rest ih =>
    rcases List.mem_cons.mp member with rfl | member
    · have less := fewer rest
      rw [List.filter_cons_of_neg (by rw [fails]; exact Bool.noConfusion),
        List.filter_cons_of_pos passes, List.flatMap_cons, List.length_append]
      omega
    · have less := ih member
      rw [List.filter_cons, List.filter_cons]
      cases strictFirst : strict first with
      | true =>
        simp only [weaker first strictFirst, ↓reduceIte, List.flatMap_cons, List.length_append]
        omega
      | false =>
        simp only [Bool.false_eq_true, ↓reduceIte]
        split
        · rw [List.flatMap_cons, List.length_append]
          omega
        · exact less

theorem length_unseenReferences_add_le (defined : lookupType? table name = some type)
    (fresh : name ∉ seen) :
    (unseenReferences table (name :: seen)).length + type.references.length ≤
      (unseenReferences table seen).length := by
  refine length_flatMap_filter_add_le ?_ (mem_of_lookupType? defined) ?_ ?_
  · intro other unseen
    simp only [List.contains_cons, Bool.not_or, Bool.and_eq_true] at unseen
    exact unseen.2
  · simpa [name_of_lookupType? defined] using fresh
  · simp [name_of_lookupType? defined]

/-- A walk ends within one step for each name on its stack and each reference of a definition that
has not been seen. -/
theorem walkWithin_eq {steps : Nat}
    (enough : stack.length + (unseenReferences table seen).length ≤ steps) :
    walkWithin table steps seen stack = some (walkFrom table seen stack) := by
  fun_induction walkFrom table seen stack generalizing steps with
  | case1 seen => cases steps <;> rfl
  | case2 seen name rest fresh undefined ih =>
    cases steps with
    | zero => simp at enough
    | succ steps =>
      rw [List.length_cons] at enough
      rw [walkWithin, fresh, undefined, ih (by omega)]
      rfl
  | case3 seen name rest fresh type defined ih =>
    cases steps with
    | zero => simp at enough
    | succ steps =>
      have fewer := length_unseenReferences_add_le defined (by simpa using fresh)
      have pushed : (unseenTargets table (name :: seen) type).length ≤ type.references.length :=
        Nat.le_trans (List.length_filter_le _ _) (Nat.le_of_eq (List.length_map _))
      rw [List.length_cons] at enough
      have later : walkWithin table steps (name :: seen)
          (unseenTargets table (name :: seen) type ++ rest) = some _ :=
        ih (by rw [List.length_append]; omega)
      rw [walkWithin, fresh, defined]
      exact congrArg (Option.map _) later
  | case4 seen name rest known ih =>
    cases steps with
    | zero => simp at enough
    | succ steps =>
      rw [List.length_cons] at enough
      rw [walkWithin, if_pos (by simpa using known), ih (by omega)]

/-! ## Walks -/

/-- What is met from some roots is met in the manner of a depth-first search: the definitions are
those that can be reached, each of them once and in the order in which the search finds them; each
of their references is followed once, or missed once, and so is each root that is not defined. -/
structure IsDepthFirst (table : List TypeDefinition) (roots : List String)
    (events : List WalkEvent) : Prop where
  order : visitedTypes events = search table [] roots
  once : (visitedNames events).Nodup
  reached : ∀ type, type ∈ visitedTypes events ↔ lookupType? table type.name = some type ∧
    ∃ root ∈ roots, (lookupType? table root).isSome = true ∧
      Relation.ReflTransGen (Refers table) root type.name
  edges : events.filterMap WalkEvent.edge? =
    (visitedTypes events).flatMap (TypeDefinition.followed table)
  missing : (events.filterMap WalkEvent.missing?).Perm
    ((visitedTypes events).flatMap (TypeDefinition.dangling table) ++ missingRoots table roots)

/-- A walk is a depth-first search, whatever definitions there are and however they refer to one
another. It takes at most a step for each root and each reference of a definition. -/
theorem walk_isDepthFirst (table : List TypeDefinition) (roots : List String) :
    IsDepthFirst table roots (walk table roots) ∧
      ∀ steps, roots.length + (table.flatMap TypeDefinition.references).length ≤ steps →
        walkWithin table steps [] roots = some (walk table roots) := by
  have order : visitedTypes (walk table roots) = search table [] roots := visitedTypes_walkFrom
  refine ⟨⟨order, nodup_visitedNames.1, fun type => ?_, filterMap_edge?_walkFrom, ?_⟩, ?_⟩
  · rw [order, mem_search_iff]
    refine and_congr_right fun defined => exists_congr fun root => and_congr_right fun _ => ?_
    refine ⟨fun reaches => ⟨?_, reaches⟩, And.right⟩
    rcases reaches.cases_head with same | ⟨_, ⟨source, found, _⟩, _⟩
    · rw [same, defined]
      rfl
    · rw [found]
      rfl
  · exact filterMap_missing?_walkFrom fun name known => absurd known List.not_mem_nil
  · intro steps enough
    have all : unseenReferences table [] = table.flatMap TypeDefinition.references :=
      congrArg (List.flatMap TypeDefinition.references) (List.filter_eq_self.mpr fun _ _ => rfl)
    exact walkWithin_eq (by rwa [all])

end GraphQL
