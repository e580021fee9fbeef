import GraphQL.Coercion
import GraphQL.Execution.Executor

/-!
# Settled values

Values are shown with what has become of the error objects in them. That changes error objects and
nothing else, and showing a value twice shows no more than showing it once. So what a value is
coerced to does not depend on whether it is shown before.
-/

namespace GraphQL

namespace Value

theorem mapFaultsItems_eq (change : Fault → Fault) (items : List Value) :
    mapFaultsItems change items = items.map (mapFaults change) := by
  induction items with
  | nil => rfl
  | cons item rest ih => rw [mapFaultsItems, List.map_cons, ih]

theorem mapFaultsEntries_eq (change : Fault → Fault) (entries : Entries Value) :
    mapFaultsEntries change entries =
      entries.map fun entry => (entry.1, entry.2.mapFaults change) := by
  induction entries with
  | nil => rfl
  | cons entry rest ih => rw [mapFaultsEntries, List.map_cons, ih]

mutual

/-- A change after another one is one change. -/
theorem mapFaults_mapFaults (change later : Fault → Fault) :
    ∀ value : Value, (value.mapFaults change).mapFaults later = value.mapFaults (later ∘ change)
  | .list items => by simp only [mapFaults, mapFaultsItems_mapFaultsItems]
  | .tuple items => by simp only [mapFaults, mapFaultsItems_mapFaultsItems]
  | .map entries => by simp only [mapFaults, mapFaultsEntries_mapFaultsEntries]
  | .member _ _ value _ _ => by simp only [mapFaults, mapFaults_mapFaults change later value]
  | .object _ _ attributes _ => by simp only [mapFaults, mapFaultsEntries_mapFaultsEntries]
  | .chosen _ _ value => by simp only [mapFaults, mapFaults_mapFaults change later value]
  | .fault _ | .null | .undefined | .bool _ | .int _ | .float _ | .str _ | .bytes _ | .var _
  | .keyword .. | .stream .. | .pending _ | .failing _ | .promise _ | .location _ | .typeRef _
  | .definition _ | .schema => rfl

theorem mapFaultsItems_mapFaultsItems (change later : Fault → Fault) : ∀ items : List Value,
    mapFaultsItems later (mapFaultsItems change items) = mapFaultsItems (later ∘ change) items
  | [] => rfl
  | item :: rest => by
    simp only [mapFaultsItems, mapFaults_mapFaults change later item,
      mapFaultsItems_mapFaultsItems change later rest]

theorem mapFaultsEntries_mapFaultsEntries (change later : Fault → Fault) :
    ∀ entries : List (String × Value),
      mapFaultsEntries later (mapFaultsEntries change entries) =
        mapFaultsEntries (later ∘ change) entries
  | [] => rfl
  | (key, value) :: rest => by
    simp only [mapFaultsEntries, mapFaults_mapFaults change later value,
      mapFaultsEntries_mapFaultsEntries change later rest]

end

mutual

/-- No change leaves a value as it is. -/
theorem mapFaults_id : ∀ value : Value, value.mapFaults id = value
  | .list items => by simp only [mapFaults, mapFaultsItems_id]
  | .tuple items => by simp only [mapFaults, mapFaultsItems_id]
  | .map entries => by simp only [mapFaults, mapFaultsEntries_id]
  | .member _ _ value _ _ => by simp only [mapFaults, mapFaults_id value]
  | .object _ _ attributes _ => by simp only [mapFaults, mapFaultsEntries_id]
  | .chosen _ _ value => by simp only [mapFaults, mapFaults_id value]
  | .fault _ | .null | .undefined | .bool _ | .int _ | .float _ | .str _ | .bytes _ | .var _
  | .keyword .. | .stream .. | .pending _ | .failing _ | .promise _ | .location _ | .typeRef _
  | .definition _ | .schema => rfl

theorem mapFaultsItems_id : ∀ items : List Value, mapFaultsItems id items = items
  | [] => rfl
  | item :: rest => by simp only [mapFaultsItems, mapFaults_id item, mapFaultsItems_id rest]

theorem mapFaultsEntries_id : ∀ entries : List (String × Value),
    mapFaultsEntries id entries = entries
  | [] => rfl
  | (key, value) :: rest => by
    simp only [mapFaultsEntries, mapFaults_id value, mapFaultsEntries_id rest]

end

variable (change : Fault → Fault)

@[simp] theorem isNull_mapFaults : ∀ value : Value, (value.mapFaults change).isNull = value.isNull
  | .chosen _ _ value => isNull_mapFaults value
  | .null | .undefined | .bool _ | .int _ | .float _ | .str _ | .bytes _ | .list _ | .tuple _
  | .map _ | .var _ | .member .. | .keyword .. | .fault _ | .stream .. | .pending _ | .failing _
  | .promise _ | .object .. | .location _ | .typeRef _ | .definition _ | .schema => rfl

@[simp] theorem text?_mapFaults : ∀ value : Value, (value.mapFaults change).text? = value.text?
  | .chosen _ _ value => text?_mapFaults value
  | .null | .undefined | .bool _ | .int _ | .float _ | .str _ | .bytes _ | .list _ | .tuple _
  | .map _ | .var _ | .member .. | .keyword .. | .fault _ | .stream .. | .pending _ | .failing _
  | .promise _ | .object .. | .location _ | .typeRef _ | .definition _ | .schema => rfl

@[simp] theorem isUndefined_mapFaults (value : Value) :
    (value.mapFaults change).isUndefined = value.isUndefined := by
  cases value <;> rfl

theorem mapFaults_eq_null_iff {value : Value} : value.mapFaults change = .null ↔ value = .null := by
  cases value <;> simp [mapFaults]

theorem mapFaults_eq_var_iff {value : Value} {name : String} :
    value.mapFaults change = .var name ↔ value = .var name := by
  cases value <;> simp [mapFaults]

theorem mapFaults_eq_map_iff {value : Value} {entries : Entries Value} :
    value.mapFaults change = .map entries ↔ ∃ own, value = .map own ∧
      entries = own.map fun entry => (entry.1, entry.2.mapFaults change) := by
  cases value <;> simp [mapFaults, mapFaultsEntries_eq, eq_comm]

end Value

namespace World

variable {σ : Type} (world : World σ)

/-- An error object that is shown with what has become of it is still that object. -/
theorem settleFault_keeps (fault : Fault) :
    (world.settleFault fault).identity = fault.identity ∧
      (world.settleFault fault).kind = fault.kind := by
  unfold settleFault
  split <;> exact ⟨rfl, rfl⟩

theorem settleValue_eq (value : Value) :
    world.settleValue value = value.mapFaults world.settleFault := by
  unfold settleValue
  split
  · next nothing =>
    have unchanged : world.settleFault = id := by
      funext fault
      have unknown : world.located? fault = none := by
        unfold located?
        rw [List.isEmpty_iff.mp nothing]
        cases fault.identity <;> rfl
      simp only [settleFault, unknown, id]
    rw [unchanged, Value.mapFaults_id]
  · rfl

end World

namespace CoercionContext

/-- Values are shown with what has become of the error objects in them, and with nothing else. -/
def Settles (context : CoercionContext) : Prop :=
  ∃ change : Fault → Fault, (∀ fault, change (change fault) = change fault) ∧
    ∀ value, context.settle value = value.mapFaults change

variable {context : CoercionContext} {recur : TypeRef → Value → Path → Coercion Value}

theorem settles_of_id (shows : context.settle = id) : context.Settles :=
  ⟨id, fun _ => rfl, fun value => by rw [shows, Value.mapFaults_id]; rfl⟩

namespace Settles

variable (settles : context.Settles)

include settles

theorem settle_settle (value : Value) :
    context.settle (context.settle value) = context.settle value := by
  obtain ⟨change, idempotent, shows⟩ := settles
  have twice : change ∘ change = change := funext idempotent
  rw [shows, shows, Value.mapFaults_mapFaults, twice]

theorem isNull (value : Value) : (context.settle value).isNull = value.isNull := by
  obtain ⟨change, _, shows⟩ := settles
  rw [shows, Value.isNull_mapFaults]

theorem isUndefined (value : Value) :
    (context.settle value).isUndefined = value.isUndefined := by
  obtain ⟨change, _, shows⟩ := settles
  rw [shows, Value.isUndefined_mapFaults]

theorem text? (value : Value) : (context.settle value).text? = value.text? := by
  obtain ⟨change, _, shows⟩ := settles
  rw [shows, Value.text?_mapFaults]

theorem eq_var_iff {value : Value} {name : String} :
    context.settle value = .var name ↔ value = .var name := by
  obtain ⟨change, _, shows⟩ := settles
  rw [shows, Value.mapFaults_eq_var_iff]

theorem eq_null_iff {value : Value} : context.settle value = .null ↔ value = .null := by
  obtain ⟨change, _, shows⟩ := settles
  rw [shows, Value.mapFaults_eq_null_iff]

theorem eq_map_iff {value : Value} {entries : Entries Value} :
    context.settle value = .map entries ↔ ∃ own, value = .map own ∧
      entries = own.map fun entry => (entry.1, context.settle entry.2) := by
  obtain ⟨change, _, shows⟩ := settles
  simp only [shows, Value.mapFaults_eq_map_iff]

theorem items (value : Value) :
    CoercionContext.items (context.settle value) =
      (CoercionContext.items value).map context.settle := by
  obtain ⟨change, _, shows⟩ := settles
  have shown : context.settle = Value.mapFaults change := funext shows
  rw [shown]
  cases value <;> simp [CoercionContext.items, Value.mapFaults, Value.mapFaultsItems_eq]

end Settles

end CoercionContext

end GraphQL
