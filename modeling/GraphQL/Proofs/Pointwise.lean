import GraphQL.Proofs.Containment
import GraphQL.Proofs.Relocation
import GraphQL.Proofs.Silence
import GraphQL.Proofs.Trials

/-!
# Lists are completed pointwise

The items of a list are awaited and completed one after another, by other code than fields are. An
item still comes to what a field of its type comes to whose resolver returns it, and the list to the
positions of its items. What tells them apart is an error object that is there as a value: a field
fails by it, an item completes it.
-/

namespace GraphQL

variable {σ α β γ : Type}

namespace Exec

/-- The executor that is left by those of some parts that run before an index. -/
def reaching (parts : List (Exec σ α)) (index : Nat) (before : Executor σ) : Executor σ :=
  ((attemptEach (parts.take index)).run before).2

/-- The part at an index runs from what those before it leave, unless a stop was asked for. The
induction is on the parts. -/
theorem attemptEach_at {parts : List (Exec σ α)} {index : Nat} {part : Exec σ α}
    (there : parts[index]? = some part) (before : Executor σ) :
    ((attemptEach parts).run before).1[index]? =
        some ((checkpoint >>= fun () => part).runFrom (reaching parts index before)).1 ∧
      reaching parts (index + 1) before =
        ((checkpoint >>= fun () => part).runFrom (reaching parts index before)).2 := by
  induction parts generalizing index before with
  | nil => cases there
  | cons first rest ih =>
    rw [run_attemptEach_cons]
    cases index with
    | zero =>
      cases there
      exact ⟨rfl, rfl⟩
    | succ index => exact ih there _

/-- Two parts go on alike from where one that records nothing leaves them, if they do after whatever
it gives there. -/
theorem RetracesBy.follows_bind {recount : Recount} {later : β → γ → Prop} {part : Exec σ α}
    {next : α → Exec σ β} {otherNext : α → Exec σ γ} {one two : Executor σ} (blind : part.IsBlind)
    (quiet : part.IsQuiet)
    (goesOn : ∀ result, (part.runFrom one).1 = .ok result →
      RetracesBy recount later (next result) (otherNext result))
    (shared : one.shared = two.shared)
    (own : Executor.RecordsOwn one ((part >>= next).runFrom one).2) :
    Executor.Twins recount one ((part >>= next).runFrom one).2 two
        ((part >>= otherNext).runFrom two).2 ∧
      Alike later ((part >>= next).runFrom one).1 ((part >>= otherNext).runFrom two).1 := by
  obtain ⟨still, alike⟩ := blind one two shared
  have errors : (part.runFrom one).2.errors = one.errors := (quiet one).1
  have begun : Executor.Rewrites recount one (part.runFrom one).2 two (part.runFrom two).2 :=
    .of_eq (quiet one).2 (quiet two).2 errors (quiet two).1
  rcases ran : part.runFrom one with ⟨outcome, middle⟩
  rcases otherRan : part.runFrom two with ⟨otherOutcome, otherMiddle⟩
  rw [ran] at goesOn still alike errors begun
  rw [otherRan] at still alike begun
  cases alike with
  | error why =>
    rw [runFrom_bind_error ran, runFrom_bind_error otherRan]
    exact ⟨⟨begun, still⟩, .error why⟩
  | @ok result other same =>
    obtain rfl : result = other := same
    rw [runFrom_bind_ok ran] at own ⊢
    rw [runFrom_bind_ok otherRan]
    unfold Executor.RecordsOwn at own
    rw [← errors] at own
    obtain ⟨twins, alike⟩ := (goesOn result rfl).follows middle otherMiddle still own
    exact ⟨⟨begun.trans twins.toRewrites, twins.shared⟩, alike⟩

end Exec

namespace Attempt

/-- What becomes of a position depends on what is attempted there alone. -/
theorem runFrom_position_congr {attempt other : Attempt σ Position} {before middle : Executor σ}
    (same : Exec.runFrom attempt.run before = Exec.runFrom other.run middle) (ref : TypeRef)
    (path : Path) (locations : List Location) :
    (position ref path locations attempt).runFrom before =
      (position ref path locations other).runFrom middle := by
  unfold position
  rw [Exec.runFrom_bind, Exec.runFrom_bind, same]

/-- A result that was changed was one before. -/
theorem runFrom_map_eq_ok_iff {attempt : Attempt σ α} {change : α → β} {before after : Executor σ}
    {result : β} :
    Exec.runFrom (change <$> attempt).run before = (.ok (.ok result), after) ↔
      ∃ value, Exec.runFrom attempt.run before = (.ok (.ok value), after) ∧
        change value = result := by
  rw [ExceptT.run_map, Exec.runFrom_map]
  rcases Exec.runFrom attempt.run before with ⟨_ | _ | value, middle⟩
  · exact ⟨nofun, nofun⟩
  · exact ⟨nofun, nofun⟩
  · show ((.ok (.ok (change value)), middle) : Except Halt (Except FailureCause β) × Executor σ) =
      _ ↔ _
    simp only [Prod.mk.injEq, Except.ok.injEq]
    constructor
    · rintro ⟨rfl, rfl⟩
      exact ⟨value, ⟨rfl, rfl⟩, rfl⟩
    · rintro ⟨_, ⟨rfl, rfl⟩, rfl⟩
      exact ⟨rfl, rfl⟩

/-- A position becomes a list only by an attempt that gives it. -/
theorem runFrom_position_eq_list_iff {attempt : Attempt σ Position} {before after : Executor σ}
    {ref : TypeRef} {path : Path} {locations : List Location} {required : Bool}
    {positions : List Position} :
    (position ref path locations attempt).runFrom before =
        (.ok (.list required positions), after) ↔
      Exec.runFrom attempt.run before = (.ok (.ok (.list required positions)), after) := by
  unfold position
  rw [Exec.runFrom_bind]
  rcases Exec.runFrom attempt.run before with ⟨_ | _ | found, middle⟩
  · exact ⟨nofun, nofun⟩
  · exact ⟨nofun, nofun⟩
  · show ((.ok found, middle) : Except Halt Position × Executor σ) = _ ↔ _
    simp only [Prod.mk.injEq, Except.ok.injEq]

/-- What is attempted at two positions goes on alike, so the positions do, also in the errors of
their own. -/
theorem rewrites_position {recount : Recount} {attempt other : Attempt σ Position}
    {one two : Executor σ} {path otherPath : Path} {locations places : List Location}
    (located : ∀ (world : World σ) cause,
      recount.error (world.locate cause path locations) (world.locate cause otherPath places))
    (twins : Executor.Twins recount one (Exec.runFrom attempt.run one).2 two
      (Exec.runFrom other.run two).2)
    (alike : Exec.Alike (Exec.Alike Position.Shows) (Exec.runFrom attempt.run one).1
      (Exec.runFrom other.run two).1) (ref : TypeRef) :
    Executor.Rewrites recount one ((position ref path locations attempt).runFrom one).2 two
        ((position ref otherPath places other).runFrom two).2 ∧
      Exec.Alike Position.Shows ((position ref path locations attempt).runFrom one).1
        ((position ref otherPath places other).runFrom two).1 := by
  unfold position
  rw [Exec.runFrom_bind, Exec.runFrom_bind]
  rcases ran : Exec.runFrom attempt.run one with ⟨outcome, middle⟩
  rcases otherRan : Exec.runFrom other.run two with ⟨otherOutcome, otherMiddle⟩
  rw [ran, otherRan] at twins alike
  cases alike with
  | error why => exact ⟨twins.toRewrites, .error why⟩
  | ok alike =>
    cases alike with
    | ok shows => exact ⟨twins.toRewrites, .ok shows⟩
    | error cause =>
      have again : recount.error (middle.world.locate cause path locations)
          (otherMiddle.world.locate cause otherPath places) := by
        rw [← Executor.locate_of_shared twins.shared]
        exact located middle.world cause
      exact ⟨twins.toRewrites.trans (.recordError again), .ok ⟨rfl, rfl⟩⟩

end Attempt

namespace Environment

open Position

variable {env : Environment σ} {execute : ObjectExecution σ} {many single target : Target}
  {object : ObjectType} {parent value raw : Value} {path : Path} {items : List Value}
  {before middle after : Executor σ}

theorem settleTogether_eq_ok_iff {joined : Except Halt (List α)} {found : List α} :
    Exec.runFrom (settleTogether joined).run before = (.ok (.ok found), after) ↔
      joined = .ok found ∧ before = after := by
  cases joined with
  | error why =>
    refine ⟨fun settled => ?_, nofun⟩
    cases why with
    | escaped origin fault =>
      unfold settleTogether at settled
      rw [Attempt.runFrom_raise] at settled
      split at settled
      · cases settled
      · split at settled
        · cases settled
        · cases settled
    | _ => cases settled
  | ok results =>
    show ((.ok (.ok results), before) : Except Halt (Except FailureCause (List α)) × Executor σ) =
      _ ↔ _
    simp only [Prod.mk.injEq, Except.ok.injEq]

/-- Parts that belong together have their results if each of them has one that is no error object,
unless a stop is asked for meanwhile. -/
theorem together_eq_ok_iff {positionOf : α → Position} {parts : List (Exec σ α)}
    {results : List α} :
    Exec.runFrom (together positionOf parts).run before = (.ok (.ok results), after) ↔
      (Exec.attemptEach parts).run before = (results.map .ok, after) ∧
        (∀ result ∈ results, (positionOf result).fault? = none) ∧
        (parts = [] ∨ after.isStopping = false) := by
  rw [runFrom_together, Exec.runFrom_siblings,
    Exec.run_attemptEach_map (runFrom_checked positionOf), settleTogether_eq_ok_iff, List.isEmpty_map]
  rcases (Exec.attemptEach parts).run before with ⟨outcomes, middle⟩
  dsimp only
  constructor
  · rintro ⟨joined, rfl⟩
    split at joined
    · cases joined
    · next running =>
      obtain ⟨rfl, plain⟩ := map_unlessFault_eq_ok_iff.mp (Exec.eq_map_ok_of_join joined)
      refine ⟨rfl, plain, ?_⟩
      cases parts with
      | nil => exact Or.inl rfl
      | cons first rest => exact Or.inr (Bool.eq_false_iff.mpr running)
  · rintro ⟨same, plain, running⟩
    obtain ⟨rfl, rfl⟩ := Prod.mk.inj same
    refine ⟨?_, rfl⟩
    have goesOn : ¬ (!parts.isEmpty && middle.isStopping) = true := by
      rcases running with rfl | running
      · exact Bool.false_ne_true
      · rw [running, Bool.and_false]
        exact Bool.false_ne_true
    rw [if_neg goesOn, map_unlessFault_eq_ok_iff.mpr ⟨rfl, plain⟩, Exec.join_map_ok]

/-- What has items is not null. -/
theorem isNull_of_itemsOf
    (listed : Exec.runFrom (itemsOf target value).run before = (.ok (.ok items), after)) :
    value.isNull = false := by
  unfold itemsOf at listed
  unfold Value.isNull
  cases found : value.bare with
  | null =>
    rw [found] at listed
    cases listed
  | _ => rfl

variable (env execute many) in
/-- What completes the items of a list, one after another. -/
def completeItems (item : TypeRef) (path : Path) (items : List Value) : List (Exec σ Position) :=
  items.mapIdx fun index raw => env.completeItem execute many item (path ++ [.index index]) raw

/-- A field whose value has items becomes the list of what its items become. -/
theorem executeTarget_eq_list_iff {item : TypeRef} {required : Bool} {positions : List Position}
    (typed : many.field.type = .list item required)
    (listed : Exec.runFrom (env.fetch many object parent path >>= itemsOf many).run before =
      (.ok (.ok items), middle)) :
    (env.executeTarget execute object many parent path).runFrom before =
        (.ok (.list required positions), after) ↔
      (Exec.attemptEach (env.completeItems execute many item path items)).run middle =
          (positions.map .ok, after) ∧
        (∀ position ∈ positions, position.fault? = none) ∧
        (items = [] ∨ after.isStopping = false) := by
  obtain ⟨value, between, fetched, found⟩ := Attempt.exists_of_runFrom_bind listed
  have completed : Exec.runFrom (env.fetch many object parent path >>=
        env.complete execute many many.field.type path).run before =
      Exec.runFrom (Position.list required <$>
        together id (env.completeItems execute many item path items)).run middle := by
    rw [Attempt.runFrom_bind_ok fetched, typed, complete_list (isNull_of_itemsOf found),
      Attempt.runFrom_bind_ok found]
    rfl
  have empty : env.completeItems execute many item path items = [] ↔ items = [] :=
    List.mapIdx_eq_nil_iff
  rw [executeTarget_eq, Attempt.runFrom_position_eq_list_iff, completed,
    Attempt.runFrom_map_eq_ok_iff, ← empty]
  constructor
  · rintro ⟨results, gathered, same⟩
    cases same
    exact together_eq_ok_iff.mp gathered
  · intro gathered
    exact ⟨positions, together_eq_ok_iff.mpr gathered, rfl⟩

/-- An item, from what awaiting it gave. -/
def takeItem : Except Fault Value → Attempt σ Value
  | .ok value => pure value
  | .error fault =>
    if fault.kind.isCancellation then Attempt.halt .cancelled
    else Attempt.refuse (failureOf fault)

theorem awaitItem_eq (raw : Value) :
    (awaitItem raw : Attempt σ Value) =
      (liftM (Exec.await raw : Exec σ (Except Fault Value)) : Attempt σ _) >>= takeItem := by
  unfold awaitItem
  congr 1

/-- An error object, unless it abandons the root field. -/
def IsError (value : Value) : Prop :=
  ∃ fault, value = .fault fault ∧ fault.kind.isCancellation = false

/-- What awaiting gave is taken for an item as it is accepted for a field, unless it is an error
object as a value. -/
theorem takeItem_retraces {recount : Recount} {outcome : Except Fault Value}
    (plain : ∀ value, outcome = .ok value → ¬ IsError value) (target : Target) :
    Attempt.RetracesBy recount Eq (takeItem outcome : Attempt σ Value) (accept target outcome) := by
  unfold takeItem accept
  cases outcome with
  | error fault =>
    dsimp only
    split
    · exact .halt .cancelled
    · unfold failureOf
      split
      · exact .refuse _
      · -- Only the field reports the fault, which nothing that is executed reads.
        have silent : Attempt.Mirrors (Eq : Value → Value → Prop)
            (Attempt.refuse (.resolver fault) : Attempt σ Value)
            (Attempt.report [⟨.error, .executor,
              "Resolver for " ++ target.label ++ " failed: " ++ fault.classified⟩] >>= fun _ =>
                Attempt.refuse (.resolver fault)) :=
          fun _ _ shared => ⟨shared, .ok (.error _)⟩
        exact .of_quiet silent (.refuse _) (.bind (.report _) fun _ => .refuse _)
  | ok value =>
    cases value with
    | fault fault =>
      dsimp only
      split
      · exact .pure rfl
      · next ordinary => exact absurd ⟨fault, rfl, Bool.eq_false_iff.mpr ordinary⟩ (plain _ rfl)
    | _ => exact .pure rfl

/-- What awaiting gave is completed for an item as it is for a field, at another path. -/
theorem takeItem_complete_retraces {source destination : Path}
    (relocates : Relocates source destination execute) (namesakes : Namesakes many single)
    {outcome : Except Fault Value} (plain : ∀ value, outcome = .ok value → ¬ IsError value)
    (ref : TypeRef) :
    Attempt.RetracesBy (.moved source destination) Shows
      (takeItem outcome >>= env.complete execute many ref source)
      (accept single outcome >>= env.complete execute single ref destination) := by
  have completes : ∀ value, Attempt.RetracesBy (.moved source destination) Shows
      (env.complete execute many ref source value)
      (env.complete execute single ref destination value) := by
    intro value
    have same : Attempt.RetracesBy (.moved source destination) Shows
        (env.complete execute many ref (source ++ []) value)
        (env.complete execute single ref (destination ++ []) value) :=
      complete_relocates relocates namesakes ref [] value
    rwa [List.append_nil, List.append_nil] at same
  refine .bind (takeItem_retraces plain single) (fun value => (completes value).grows) ?_
  rintro value _ rfl
  exact completes value

variable (env) in
/-- The resolver of a field returns a value, which is neither awaited nor completed yet. -/
structure Returns (target : Target) (parent : Value) (path : Path) (before : Executor σ)
    (raw : Value) (after : Executor σ) : Prop where
  named : target.field.name ≠ Introspection.typenameField.name
  running : before.isStopping = false
  returned : ∃ args, (env.argumentsOf target before).outcome = .ok args ∧
    (env.callResolver target (before.world.settleValue parent) args).runFrom
        (calling target path (env.argumentsOf target before) args before) =
      (.ok (.ok raw), after)

/-- What the resolver of a field returned is awaited, accepted and completed. -/
theorem Returns.runFrom_executeTarget
    (returns : env.Returns target parent path before raw after) :
    (env.executeTarget execute object target parent path).runFrom before =
      (Attempt.position target.field.type path target.group.locations
        ((liftM (Exec.await raw : Exec σ (Except Fault Value)) : Attempt σ _) >>= fun outcome =>
          accept target outcome >>= env.complete execute target target.field.type path)).runFrom
        after := by
  obtain ⟨named, running, args, coerced, returned⟩ := returns
  have called : (env.call target parent args).runFrom
      (calling target path (env.argumentsOf target before) args before) =
        (Exec.await raw).runFrom after := by
    unfold call
    rw [Exec.runFrom_bind_ok (Exec.runFrom_get _)]
    exact Exec.runFrom_bind_ok returned
  have fetched : Exec.runFrom (env.fetch target object parent path).run before =
      Exec.runFrom ((liftM (Exec.await raw : Exec σ (Except Fault Value)) : Attempt σ _) >>=
        accept target).run after := by
    unfold fetch
    rw [if_neg named, Attempt.runFrom_get_bind,
      Attempt.runFrom_bind_ok (Attempt.runFrom_ofCoercion coerced before),
      runFrom_resolve (show (before.report _).isStopping = false from running)]
    refine Attempt.runFrom_bind_congr ?_ _
    rw [Exec.run_liftM, Exec.run_liftM, Exec.runFrom_map, Exec.runFrom_map]
    exact congrArg (fun ran => (Except.map Except.ok ran.1, ran.2)) called
  rw [executeTarget_eq, ← bind_assoc]
  exact Attempt.runFrom_position_congr (Attempt.runFrom_bind_congr fetched _) _ _ _

variable (raw before) in
/-- An item is an error object, or it gives one when it is awaited. -/
def YieldsError : Prop :=
  ∃ value after, (Exec.await raw).runFrom before = (.ok (.ok value), after) ∧ IsError value

variable (object) in
/-- An item comes to what a field of its type comes to whose resolver returns it, with the same
calls and the same errors below its own path. -/
theorem completeItem_follows {source destination : Path} {fieldBefore ready : Executor σ}
    (relocates : Relocates source destination execute) (namesakes : Namesakes many single)
    (returns : env.Returns single parent destination fieldBefore raw ready)
    (shared : before.shared = ready.shared) (plain : ¬ YieldsError raw before)
    (own : Executor.RecordsOwn before
      (Exec.runFrom (env.attemptItem execute many single.field.type source raw).run before).2) :
    Executor.Rewrites (.moved source destination) before
        ((env.completeItem execute many single.field.type source raw).runFrom before).2 ready
        ((env.executeTarget execute object single parent destination).runFrom fieldBefore).2 ∧
      Exec.Alike Shows
        ((env.completeItem execute many single.field.type source raw).runFrom before).1
        ((env.executeTarget execute object single parent destination).runFrom fieldBefore).1 := by
  rw [returns.runFrom_executeTarget]
  unfold completeItem
  unfold attemptItem at own
  rw [awaitItem_eq, bind_assoc] at own ⊢
  have located : ∀ (world : World σ) cause, (Recount.moved source destination).error
      (world.locate cause source many.group.locations)
      (world.locate cause destination single.group.locations) := by
    intro world cause
    have moves := world.moves_locate cause source destination [] single.group.locations
    rw [List.append_nil, List.append_nil] at moves
    rw [namesakes.group]
    exact moves
  rw [Attempt.run_liftM_bind] at own
  have unspoiled : ∀ outcome, ((Exec.await raw).runFrom before).1 = .ok outcome →
      ∀ value, outcome = .ok value → ¬ IsError value := by
    rintro _ given value rfl isError
    exact plain ⟨value, _, Prod.ext given rfl, isError⟩
  have followed := Exec.RetracesBy.follows_bind (await_blind raw) (await_quiet raw)
    (fun outcome given => takeItem_complete_retraces relocates namesakes (unspoiled outcome given)
      single.field.type) shared own
  rw [← Attempt.run_liftM_bind, ← Attempt.run_liftM_bind] at followed
  exact Attempt.rewrites_position located followed.1 followed.2 _

variable (env execute many single object parent path before items middle) in
/-- A list is completed pointwise: the field becomes the list of what its items become, and an item
becomes what a field of its type becomes whose resolver returns it. -/
structure CompletesPointwise (required : Bool) : Prop where
  /-- The field has a list if every item has a position that is no error object, unless a stop is
  asked for meanwhile. -/
  list : ∀ positions after,
    (env.executeTarget execute object many parent path).runFrom before =
        (.ok (.list required positions), after) ↔
      (Exec.attemptEach (env.completeItems execute many single.field.type path items)).run middle =
          (positions.map .ok, after) ∧
        (∀ position ∈ positions, position.fault? = none) ∧
        (items = [] ∨ after.isStopping = false)
  /-- An item that a stop does not keep from beginning shows the same, or ends for the same reason,
  as a field that goes on from there. It makes the same calls and records the same errors, but for
  the path. It is taken that no error object that user code keeps is recorded within it. -/
  item : ∀ index raw start, items[index]? = some raw →
    start = Exec.reaching (env.completeItems execute many single.field.type path items) index
      middle →
    start.isStopping = false → ¬ YieldsError raw start →
    Executor.RecordsOwn start (Exec.runFrom (env.attemptItem execute many single.field.type
      (path ++ [.index index]) raw).run start).2 →
    ∀ otherObject otherParent otherPath fieldBefore ready,
      env.Returns single otherParent otherPath fieldBefore raw ready →
      start.shared = ready.shared →
      ∃ outcome,
        ((Exec.attemptEach (env.completeItems execute many single.field.type path items)).run
          middle).1[index]? = some outcome ∧
        Exec.Alike Shows outcome ((env.executeTarget execute otherObject single otherParent
          otherPath).runFrom fieldBefore).1 ∧
        Executor.Rewrites (.moved (path ++ [.index index]) otherPath) start
          (Exec.reaching (env.completeItems execute many single.field.type path items) (index + 1)
            middle)
          ready
          ((env.executeTarget execute otherObject single otherParent otherPath).runFrom
            fieldBefore).2

/-- Completing lists is completing their items as fields of the same name are completed: whatever
the type of the items is, and whether they are values, awaitables that give one or raise, or null.
It is taken that they are no error objects and give none. -/
theorem list_completes_pointwise {depth : Nat} {required : Bool} (namesakes : Namesakes many single)
    (typed : many.field.type = .list single.field.type required)
    (listed : Exec.runFrom (env.fetch many object parent path >>= itemsOf many).run before =
      (.ok (.ok items), middle)) :
    env.CompletesPointwise (env.executeObject depth) many single object parent path items before
      middle required where
  list positions after := executeTarget_eq_list_iff typed listed
  item := by
    intro index raw start there starts running plain own otherObject otherParent otherPath
      fieldBefore ready returns shared
    have part : (env.completeItems (env.executeObject depth) many single.field.type path
        items)[index]? = some (env.completeItem (env.executeObject depth) many single.field.type
          (path ++ [.index index]) raw) := by
      unfold completeItems
      rw [List.getElem?_mapIdx, there]
      rfl
    obtain ⟨outcome, next⟩ := Exec.attemptEach_at part middle
    have goesOn := Exec.runFrom_checkpoint_of_running running
    rw [← starts, Exec.runFrom_bind_ok goesOn] at outcome next
    obtain ⟨rewrites, alike⟩ := completeItem_follows otherObject
      (executeObject_relocates depth) namesakes returns shared plain own
    rw [next]
    exact ⟨_, outcome, alike, rewrites⟩

/-- A selection of the list of numbers that is served. -/
def numbersGroup : FieldGroup where
  first := { name := "xs", responseKey := "xs" }

/-- The list of numbers. -/
def numbersTarget : Target where
  parent := "Query"
  field := { name := "xs", type := .list (.named "Int"), resolver := .given 0 }
  group := numbersGroup

/-- A number in place of the list. -/
def numberTarget : Target where
  parent := "Query"
  field := { name := "xs", type := .named "Int", resolver := .given 1 }
  group := numbersGroup

/-- Resolvers that give a list with some items, and one of them alone. -/
def listing (items : List Value) (item : Value) : Environment Unit :=
  serving "xs" (.finish (.list items)) (.finish item)

/-- Nothing has been executed yet. -/
def beforehand : Executor Unit where
  world := { user := () }

/-- The items of the list are there. -/
def listed (env : Environment Unit) : Executor Unit :=
  (Exec.runFrom (env.fetch numbersTarget servedQuery .null [.key "xs"] >>=
    itemsOf numbersTarget).run beforehand).2

/-- The number is there. -/
def returned (env : Environment Unit) : Executor Unit :=
  ((env.callResolver numberTarget .null []).runFrom
    (calling numberTarget [.key "xs"] (env.argumentsOf numberTarget beforehand) [] beforehand)).2

/-- Items of which the last one fails when it is awaited. -/
def failingNumbers : List Value :=
  [.int 1, .null, .pending (.int 2), .failing boom]

/-- Resolvers that give these items, and the last of them alone. -/
def failingListing : Environment Unit :=
  listing failingNumbers (.failing boom)

/-- The last item fails as the field does whose resolver returns it. -/
theorem list_completes_pointwise_failing :
    servedRegistry.Accepted ∧
      failingListing.CompletesPointwise (failingListing.executeObject 1) numbersTarget numberTarget
        servedQuery .null [.key "xs"] failingNumbers beforehand (listed failingListing) false ∧
      failingListing.Returns numberTarget .null [.key "xs"] beforehand (.failing boom)
        (returned failingListing) ∧
      ∃ outcome,
        ((Exec.attemptEach (failingListing.completeItems (failingListing.executeObject 1)
          numbersTarget (.named "Int") [.key "xs"] failingNumbers)).run
            (listed failingListing)).1[3]? = some outcome ∧
        Exec.Alike Shows outcome ((failingListing.executeTarget (failingListing.executeObject 1)
          servedQuery numberTarget .null [.key "xs"]).runFrom beforehand).1 := by
  have pointwise : failingListing.CompletesPointwise (failingListing.executeObject 1) numbersTarget
      numberTarget servedQuery .null [.key "xs"] failingNumbers beforehand (listed failingListing)
      false := list_completes_pointwise ⟨rfl, rfl, rfl⟩ rfl rfl
  have returns : failingListing.Returns numberTarget .null [.key "xs"] beforehand (.failing boom)
      (returned failingListing) := ⟨by decide, rfl, [], rfl, rfl⟩
  have plain : ∀ start : Executor Unit, ¬ YieldsError (.failing boom) start := by
    rintro start ⟨value, after, ran, -⟩
    cases ran
  obtain ⟨outcome, there, alike, -⟩ := pointwise.item 3 (.failing boom) _ rfl rfl rfl (plain _)
    ⟨[], rfl, fun _ among => nomatch among⟩ servedQuery .null [.key "xs"] beforehand _ returns rfl
  exact ⟨accepted_servedRegistry, pointwise, returns, outcome, there, alike⟩

/-- Resolvers that give an error object as the one item of the list, and as the number. -/
def spoiledListing : Environment Unit :=
  listing [.fault boom] (.fault boom)

/-- An item that is an error object fails because it is no number, where the field fails by the
error object. -/
theorem list_completes_error_object :
    servedRegistry.Accepted ∧ Namesakes numbersTarget numberTarget ∧
      numbersTarget.field.type = .list numberTarget.field.type false ∧
      Exec.runFrom (spoiledListing.fetch numbersTarget servedQuery .null [.key "xs"] >>=
        itemsOf numbersTarget).run beforehand =
          (.ok (.ok [.fault boom]), listed spoiledListing) ∧
      spoiledListing.Returns numberTarget .null [.key "xs"] beforehand (.fault boom)
        (returned spoiledListing) ∧
      (listed spoiledListing).shared = (returned spoiledListing).shared ∧
      ¬ Executor.Rewrites (.moved [.key "xs", .index 0] [.key "xs"]) (listed spoiledListing)
        ((spoiledListing.completeItem (spoiledListing.executeObject 1) numbersTarget (.named "Int")
          [.key "xs", .index 0] (.fault boom)).runFrom (listed spoiledListing)).2
        (returned spoiledListing)
        ((spoiledListing.executeTarget (spoiledListing.executeObject 1) servedQuery numberTarget
          .null [.key "xs"]).runFrom beforehand).2 := by
  refine ⟨accepted_servedRegistry, ⟨rfl, rfl, rfl⟩, rfl, rfl, ⟨by decide, rfl, [], rfl, rfl⟩, rfl,
    fun rewrites => ?_⟩
  have kinds := congrArg (List.map Prod.fst) (rewrites.tells rfl rfl)
  have serialization : [FaultKind.serialization] = [FaultKind.resolver] := kinds
  cases serialization

end Environment

end GraphQL
