import GraphQL.Proofs.Failures
import GraphQL.Proofs.Independence
import GraphQL.Proofs.Reading
import GraphQL.Proofs.Settling

/-!
# Fields that always succeed

A part achieves something if it comes to it whatever was executed before, as long as no stop was
asked for, and records no error. A value tells its data where some selections are made on it, and a
parent replies to a field selection; what an object tells is put together from the replies to the
selections on it. Nothing is asked of the world: the error objects inside a value may have got their
places meanwhile, so that every value stands for all those with other error objects in them.
-/

namespace GraphQL

variable {σ α β : Type}

open Position

/-- Whatever was executed before, a part gives a result of which something holds, and records no
error. -/
def Exec.Achieves (part : Exec σ α) (holds : α → Prop) : Prop :=
  part.Gives (fun _ => True) 0 holds

/-- Whatever was executed before, an attempt succeeds with a result of which something holds, and
records no error. -/
def Attempt.Achieves (attempt : Attempt σ α) (holds : α → Prop) : Prop :=
  Exec.Achieves attempt.run fun outcome => ∃ result, outcome = .ok result ∧ holds result

namespace Attempt.Achieves

variable {attempt : Attempt σ α} {next : α → Attempt σ β} {holds given : α → Prop}
  {later : β → Prop}

protected theorem pure {result : α} (held : holds result) :
    (pure result : Attempt σ α).Achieves holds :=
  fun before ready => ⟨.ok result, before, .pure ready, result, rfl, held⟩

protected theorem bind (achieves : attempt.Achieves given)
    (goesOn : ∀ result, given result → (next result).Achieves later) :
    (attempt >>= next).Achieves later := by
  intro before ready
  obtain ⟨_, middle, ends, result, rfl, held⟩ := achieves before ready
  obtain ⟨outcome, after, endsOn, heldOn⟩ := goesOn result held middle ends.ready
  refine ⟨outcome, after, ?_, heldOn⟩
  rw [ExceptT.run_bind, ← add_zero 0]
  exact ends.bind endsOn

theorem mono (achieves : attempt.Achieves given) (implies : ∀ result, given result → holds result) :
    attempt.Achieves holds := by
  intro before ready
  obtain ⟨_, after, ends, result, rfl, held⟩ := achieves before ready
  exact ⟨.ok result, after, ends, result, rfl, implies result held⟩

theorem map {change : α → β} (achieves : attempt.Achieves fun result => later (change result)) :
    (change <$> attempt).Achieves later := by
  rw [map_eq_pure_bind]
  exact achieves.bind fun _ held => .pure held

/-- An attempt that looks at the executor first. -/
theorem get_bind {next : Executor σ → Attempt σ β}
    (goesOn : ∀ executor, (next executor).Achieves later) :
    (get >>= next : Attempt σ β).Achieves later := by
  intro before ready
  obtain ⟨outcome, after, ends, held⟩ := goesOn before before ready
  have looked : Exec.runFrom (get : Attempt σ (Executor σ)).run before =
      (.ok (.ok before), before) := rfl
  refine ⟨outcome, after, ?_, held⟩
  rw [ExceptT.run_bind]
  exact .step looked rfl ends

/-- A part that only changes what is written down, before others. -/
theorem step {part : Exec σ α} {next : α → Attempt σ β}
    (goesOn : ∀ before : Executor σ, before.isStopping = false → ∃ result after,
      part.runFrom before = (.ok result, after) ∧ after.phase = before.phase ∧
        after.errors = before.errors ∧ (next result).Achieves later) :
    (liftM part >>= next : Attempt σ β).Achieves later := by
  intro before ready
  obtain ⟨result, after, ran, phase, errors, achieves⟩ := goesOn before ready.running
  have readyAfter : after.Ready fun _ => True := by
    refine ⟨?_, trivial⟩
    unfold Executor.isStopping
    rw [phase]
    exact ready.running
  obtain ⟨outcome, last, ends, held⟩ := achieves after readyAfter
  refine ⟨outcome, last, ?_, held⟩
  rw [ExceptT.run_bind]
  exact .step (Attempt.runFrom_liftM_ok ran) errors ends

/-- A coercion that succeeds. -/
theorem ofCoercion {coercion : Coercion α} {value : α} (coerced : coercion.outcome = .ok value) :
    (Attempt.ofCoercion coercion : Attempt σ α).Achieves (· = value) := by
  intro before ready
  refine ⟨.ok value, before.report (coercion.ignored.map IgnoredKey.record), ?_, value, rfl, rfl⟩
  have ran : Exec.runFrom (Attempt.ofCoercion coercion).run before =
      (.ok (.ok value), before.report (coercion.ignored.map IgnoredKey.record)) := by
    obtain ⟨outcome, ignored⟩ := coercion
    cases coerced
    rfl
  exact ⟨ran, ready.of_eq rfl rfl, .of_eq rfl⟩

/-- Parts that belong together achieve what each of them achieves, if none is an error object. -/
theorem together {ι : Type} {positionOf : α → Position} {holds : ι → α → Prop}
    {parts : List (Exec σ α)} {specs : List ι}
    (achieve : List.Forall₂ (fun part spec => part.Achieves (holds spec)) parts specs)
    (plain : ∀ spec ∈ specs, ∀ result, holds spec result → (positionOf result).fault? = none) :
    (Environment.together positionOf parts).Achieves fun results =>
      List.Forall₂ (fun result spec => holds spec result) results specs := by
  intro before ready
  obtain ⟨results, after, ends, held⟩ := Environment.together_gives achieve plain ready
  have nothing : (specs.map fun _ => (0 : Multiset ShownError)).sum = 0 :=
    List.sum_eq_zero fun _ among => (List.mem_map.mp among).elim fun _ same => same.2.symm
  rw [nothing] at ends
  exact ⟨.ok results, after, ends, results, rfl, held⟩

end Attempt.Achieves

/-- A position that is attempted with success has the data of the attempt. -/
theorem Exec.Achieves.position {attempt : Attempt σ Position} {data : Option Response}
    (achieves : attempt.Achieves (Has data)) (ref : TypeRef) (path : Path)
    (locations : List Location) :
    (Attempt.position ref path locations attempt).Achieves (Has data) := by
  intro before ready
  obtain ⟨_, after, ends, position, rfl, held⟩ := achieves before ready
  refine ⟨position, after, ?_, held⟩
  rw [← add_zero 0]
  exact ends.bind (.pure ends.ready)

namespace Position

/-- Items with data give a list. -/
theorem itemResponses?_of_has {items : List Position} {all : List Response}
    (held : List.Forall₂ (fun item data => Has (some data) item) items all) :
    itemResponses? items = some all := by
  induction held with
  | nil => rfl
  | cons first _ ih =>
    unfold itemResponses?
    rw [first.data, ih]

/-- Fields with data give an object. -/
theorem fieldResponses?_of_has {fields : List (String × Position)}
    {entries : List (String × Response)}
    (held : List.Forall₂ (fun field entry => field.1 = entry.1 ∧ Has (some entry.2) field.2) fields
      entries) : fieldResponses? fields = some entries := by
  induction held with
  | nil => rfl
  | cons first _ ih =>
    unfold fieldResponses?
    rw [first.2.data, ih, first.1]

end Position

/-- A value that is lasting stays so whatever becomes of the error objects in it. -/
theorem Value.isLasting_mapFaults (change : Fault → Fault) :
    ∀ value : Value, (value.mapFaults change).isLasting = value.isLasting
  | .chosen _ _ value => isLasting_mapFaults change value
  | .null | .undefined | .bool _ | .int _ | .float _ | .str _ | .bytes _ | .list _ | .tuple _
  | .map _ | .var _ | .member .. | .keyword .. | .fault _ | .stream .. | .pending _ | .failing _
  | .promise _ | .object .. | .location _ | .typeRef _ | .definition _ | .schema => rfl

/-! ## Plain selections -/

/-- The field selection that a selection without directives is. -/
def Selection.node? : Selection → Option FieldNode
  | .field name otherKey arguments [] location selections =>
    some { name, responseKey := responseKey name otherKey, arguments, selections, location }
  | _ => none

/-- Field selections under different keys make a group each. -/
theorem FieldGroup.ofNodes_of_nodup {nodes : List FieldNode}
    (distinct : (nodes.map FieldNode.responseKey).Nodup) :
    ofNodes nodes = nodes.map fun node => { first := node } := by
  have fresh : ∀ (node : FieldNode) (groups : List FieldGroup),
      node.responseKey ∉ groups.map key → put node groups = groups ++ [{ first := node }] := by
    intro node groups
    induction groups with
    | nil => exact fun _ => rfl
    | cons group rest ih =>
      intro unknown
      unfold put
      rw [if_neg fun same => unknown (List.mem_cons.mpr (Or.inl same.symm)),
        ih fun known => unknown (List.mem_cons_of_mem _ known)]
      rfl
  induction nodes using List.reverseRecOn with
  | nil => rfl
  | append_singleton nodes node ih =>
    rw [List.map_append] at distinct
    obtain ⟨others, _, apart⟩ := List.nodup_append.mp distinct
    rw [ofNodes_append_singleton, ih others, List.map_append, fresh]
    · rfl
    · rw [List.map_map]
      exact fun known => apart _ known _ List.mem_cons_self rfl

namespace CollectionContext

variable {context : CollectionContext} {selections : List Selection} {nodes : List FieldNode}

/-- Plain selections are collected one after another. The induction is on the selections still to
read. -/
theorem collectEach_of_plain
    (plain : List.Forall₂ (fun selection node => selection.node? = some node) selections nodes)
    (expand : List Selection → Collector Unit) (before : Collected) :
    (context.collectEach expand selections).runFrom before =
      (.ok (), { before with
        groups := nodes.foldl (fun groups node => FieldGroup.put node groups) before.groups }) := by
  induction plain generalizing before with
  | nil => rfl
  | @cons selection node rest _ first _ ih =>
    have one : (context.collectOne expand selection).runFrom before =
        (.ok (), { before with groups := FieldGroup.put node before.groups }) := by
      unfold Selection.node? at first
      split at first
      · cases first
        rfl
      · cases first
    unfold collectEach
    rw [Collector.runFrom_bind, one]
    exact ih _

end CollectionContext

namespace Environment

variable {env : Environment σ} {root object : ObjectType} {parent : Value}
  {entries : List (String × Response)}

/-- Plain selections ask for the fields that they name. -/
theorem groups?_of_plain {selections : List Selection} {nodes : List FieldNode}
    (plain : List.Forall₂ (fun selection node => selection.node? = some node) selections nodes)
    (distinct : (nodes.map FieldNode.responseKey).Nodup) :
    env.groups? object [selections] = some (nodes.map fun node => { first := node }) := by
  rw [← FieldGroup.ofNodes_of_nodup distinct]
  unfold groups?
  have collected : ∀ context : CollectionContext, context.collectAll [selections] =
      (.ok (), { groups := FieldGroup.ofNodes nodes }) := by
    intro context
    have ran : (context.collect selections).runFrom {} =
        (.ok (), { groups := FieldGroup.ofNodes nodes }) := by
      unfold CollectionContext.collect
      rw [CollectionContext.collectWithin_eq, CollectionContext.collectEach_of_plain plain]
      rfl
    show Collector.runFrom (context.collect selections >>= fun _ => pure ()) {} = _
    rw [Collector.runFrom_bind, ran]
    rfl
  dsimp only
  rw [collected]

/-! ## Values and parents -/

/-- Whatever was executed before, a value of a type becomes a position with some data where some
selections are made on it, and no error is recorded. -/
def Tells (env : Environment σ) (ref : TypeRef) (value : Value) (selections : List Selection)
    (data : Response) : Prop :=
  ∀ (change : Fault → Fault) (depth : Nat) (target : Target) (path : Path),
    Selection.depths selections ≤ depth →
    target.group.nodes.map FieldNode.selections = [selections] →
    (env.complete (env.executeObject depth) target ref path
      (value.mapFaults change)).Achieves (Has (some data))

/-- Whatever was executed before, a field selection on a parent comes to some data, and no error is
recorded. -/
def Replies (env : Environment σ) (object : ObjectType) (parent : Value) (node : FieldNode)
    (data : Response) : Prop :=
  ∀ (change : Fault → Fault) (depth : Nat) (path : Path),
    Selection.depths node.selections ≤ depth →
    (env.executeGroup (env.executeObject depth) object (parent.mapFaults change) path
      { first := node }).Achieves (Has (some data))

/-- A parent replies to a plain selection under its name. -/
inductive RepliesTo (env : Environment σ) (object : ObjectType) (parent : Value) :
    Selection → String × Response → Prop where
  | field {name : String} {arguments : Entries Value} {location : Option Location}
      {selections : List Selection} {data : Response} :
      env.Replies object parent { name, responseKey := name, arguments, selections, location }
        data →
      RepliesTo env object parent (.field name none arguments [] location selections) (name, data)

/-- A text is a leaf of the type of texts. -/
theorem head_text (accepted : env.registry.Accepted) (text : String) :
    (env.head "String" (.str text)).Achieves (· = .leaf (.leaf (.str text))) := by
  unfold head
  refine .get_bind fun executor => ?_
  have shown : executor.world.settleValue (.str text) = .str text := by
    rw [World.settleValue_eq]
    rfl
  rw [shown, show env.registry.type? "String" = some (.scalar BuiltinScalar.string.type) from
    accepted.type?_scalar .string]
  exact .pure rfl

/-- A value of an enum is a leaf with its symbol. -/
theorem head_enum {name symbol : String} {type : EnumType} {value : Value}
    (found : env.registry.type? name = some (.enum type))
    (known : ∀ change, type.symbolFor? (value.mapFaults change) = some symbol) :
    (env.head name value).Achieves (· = .leaf (.leaf (.str symbol))) := by
  unfold head
  refine .get_bind fun executor => ?_
  rw [found, World.settleValue_eq]
  dsimp only
  unfold completeEnum
  rw [known]
  exact .pure rfl

/-- A value of an object type without a check is an object. -/
theorem head_object {name : String} {value : Value}
    (found : env.registry.type? name = some (.object object))
    (unchecked : object.isTypeOf = none) :
    (env.head name value).Achieves fun head => ∃ change,
      head = .object object (value.mapFaults change) := by
  unfold head
  refine .get_bind fun executor => ?_
  rw [found, World.settleValue_eq]
  dsimp only
  unfold checkType
  rw [unchecked]
  exact .pure ⟨_, rfl⟩

/-- A parent that replies to selections replies to the field selections that they are, which are
nested less deeply. -/
theorem exists_nodes {selections : List Selection} {entries : List (String × Response)}
    (replies : List.Forall₂ (env.RepliesTo object parent) selections entries) {depth : Nat}
    (deep : Selection.depths selections ≤ depth + 1) :
    ∃ nodes : List FieldNode,
      List.Forall₂ (fun selection node => selection.node? = some node) selections nodes ∧
      List.Forall₂ (fun node entry => node.responseKey = entry.1 ∧
        Selection.depths node.selections ≤ depth ∧ env.Replies object parent node entry.2)
        nodes entries := by
  induction replies with
  | nil => exact ⟨[], .nil, .nil⟩
  | cons first _ ih =>
    unfold Selection.depths at deep
    obtain ⟨here, later⟩ := Nat.max_le.mp deep
    obtain ⟨nodes, plain, each⟩ := ih later
    cases first with
    | field replies =>
      unfold Selection.depth at here
      exact ⟨_, .cons rfl plain, .cons ⟨rfl, Nat.le_of_succ_le_succ here, replies⟩ each⟩

/-- Collecting the fields of an object gives the groups that its selections ask for. -/
theorem collectGroups_achieves (accepted : env.registry.Accepted)
    {selections : List (List Selection)} {groups : List FieldGroup}
    (found : env.groups? object selections = some groups) :
    (env.collectGroups object selections).Achieves (· = groups) := by
  intro before ready
  obtain ⟨after, ends⟩ := collectGroups_ends accepted found ready
  exact ⟨.ok groups, after, ends, groups, rfl, rfl⟩

/-- The fields of a parent, from its replies to the selections on it. -/
theorem executeObject_achieves (accepted : env.registry.Accepted) {selections : List Selection}
    {entries : List (String × Response)} (distinct : (entries.map Prod.fst).Nodup)
    (asked : selections ≠ [])
    (replies : List.Forall₂ (env.RepliesTo object parent) selections entries)
    (change : Fault → Fault) {depth : Nat} (deep : Selection.depths selections ≤ depth)
    (path : Path) :
    (env.executeObject depth object (parent.mapFaults change) [selections] path).Achieves
      fun fields => fieldResponses? fields = some entries := by
  cases depth with
  | zero =>
    cases replies with
    | nil => exact absurd rfl asked
    | cons first _ =>
      cases first with
      | field _ =>
        unfold Selection.depths Selection.depth at deep
        omega
  | succ depth =>
    obtain ⟨nodes, plain, each⟩ := exists_nodes replies deep
    have keys : nodes.map FieldNode.responseKey = entries.map Prod.fst := by
      rw [← List.forall₂_eq_eq_eq, List.forall₂_map_left_iff, List.forall₂_map_right_iff]
      exact each.imp fun _ _ held => held.1
    have found : env.groups? object [selections] = some (nodes.map fun node => { first := node }) :=
      groups?_of_plain plain (keys ▸ distinct)
    rw [executeObject_succ]
    refine (collectGroups_achieves accepted found).bind ?_
    rintro _ rfl
    unfold executeFields Strategy.inOrder
    rw [List.map_map]
    have parts : List.Forall₂
        (fun (part : Exec σ (String × Position)) entry => part.Achieves fun field =>
          field.1 = entry.1 ∧ Has (some entry.2) field.2)
        (nodes.map (env.executeEntry (env.executeObject depth) object (parent.mapFaults change)
          path ∘ fun node => { first := node })) entries := by
      refine List.forall₂_map_left_iff.mpr (each.imp ?_)
      rintro node entry ⟨key, below, replies⟩
      refine Exec.Gives.map fun before ready => ?_
      obtain ⟨position, after, ends, held⟩ := replies change depth _ below before ready
      exact ⟨position, after, ends, key, held⟩
    exact (Attempt.Achieves.together parts fun _ _ _ held => held.2.plain).mono
      fun _ => fieldResponses?_of_has

namespace Tells

variable {ref item : TypeRef} {name : String} {required : Bool} {value : Value}
  {selections : List Selection} {data : Response}

/-- Null, where it is admitted. -/
protected theorem null (admitted : ref.isNonNull = false) (null : value.isNull = true) :
    env.Tells ref value selections .null := by
  intro change depth target path _ _
  have nothing : (value.mapFaults change).isNull = true := by rwa [Value.isNull_mapFaults]
  have given : (complete.completeNull target false : Attempt σ Position).Achieves
      (Has (some .null)) := .pure ⟨rfl, rfl⟩
  cases ref with
  | named _ _ | list _ _ =>
    cases admitted
    unfold complete
    rw [nothing, if_pos rfl]
    exact given

/-- A list, item by item. -/
protected theorem list {items : List Value} {all : List Response}
    (each : List.Forall₂ (fun value data => value.isLasting = true ∧
      env.Tells item value selections data) items all) :
    env.Tells (.list item required) (.list items) selections (.list all) := by
  intro change depth target path deep asked
  have parts : List.Forall₂
      (fun (part : Exec σ Position) data => part.Achieves (Has (some data)))
      ((items.map (Value.mapFaults change)).mapIdx fun index raw =>
        env.completeItem (env.executeObject depth) target item (path ++ [.index index]) raw)
      (all.mapIdx fun _ data => data) := by
    have raws : List.Forall₂ (fun raw data => ∃ value : Value, raw = value.mapFaults change ∧
        value.isLasting = true ∧ env.Tells item value selections data)
        (items.map (Value.mapFaults change)) all :=
      List.forall₂_map_left_iff.mpr (each.imp fun value _ held => ⟨value, rfl, held⟩)
    refine forall₂_mapIdx_of_forall₂ raws ?_
    rintro index _ data ⟨value, rfl, lasts, tells⟩
    refine .position ?_ _ _ _
    rw [awaitItem_of_isLasting (by rwa [Value.isLasting_mapFaults]), pure_bind]
    exact tells change depth target _ deep asked
  have same : (all.mapIdx fun _ data => data) = all := List.ext_getElem (by simp) (by simp)
  rw [same] at parts
  rw [Value.mapFaults, Value.mapFaultsItems_eq, complete_list rfl]
  refine Attempt.Achieves.bind (.pure (rfl : _ = items.map (Value.mapFaults change))) ?_
  rintro _ rfl
  refine .map ((Attempt.Achieves.together parts fun _ _ _ held => held.plain).mono ?_)
  intro positions held
  refine ⟨?_, rfl⟩
  unfold response?
  rw [itemResponses?_of_has held]

/-- A leaf, as the conversion of its type gives it. -/
protected theorem leaf {position : Position} (present : value.isNull = false)
    (heads : ∀ change, (env.head name (value.mapFaults change)).Achieves (· = .leaf position))
    (held : Has (some data) position) : env.Tells (.named name required) value selections data := by
  intro change depth target path _ _
  have there : (value.mapFaults change).isNull = false := by rwa [Value.isNull_mapFaults]
  unfold complete
  rw [there, if_neg Bool.false_ne_true, completeNamed_eq]
  refine (heads change).bind ?_
  rintro _ rfl
  exact .pure held

/-- An object, from the replies to the selections on it. -/
protected theorem object {entries : List (String × Response)}
    (found : env.registry.type? name = some (.object object)) (unchecked : object.isTypeOf = none)
    (present : value.isNull = false) (asked : selections ≠ [])
    (distinct : (entries.map Prod.fst).Nodup) (accepted : env.registry.Accepted)
    (replies : List.Forall₂ (env.RepliesTo object value) selections entries) :
    env.Tells (.named name required) value selections (.object entries) := by
  intro change depth target path deep same
  have there : (value.mapFaults change).isNull = false := by rwa [Value.isNull_mapFaults]
  unfold complete
  rw [there, if_neg Bool.false_ne_true, completeNamed_eq]
  refine (head_object found unchecked).bind ?_
  rintro _ ⟨later, rfl⟩
  unfold completeHead completeObject
  rw [Value.mapFaults_mapFaults, same]
  refine .map ((executeObject_achieves accepted distinct asked replies _ deep path).mono ?_)
  intro fields held
  refine ⟨?_, rfl⟩
  unfold response?
  rw [held]

end Tells

/-! ## Fields -/

/-- Whatever becomes of the error objects in a parent, the resolver of a field gives some value for
it at once. -/
def Resolves (env : Environment σ) (field : Field) (parent : Value) (args : Entries Value)
    (value : Value) : Prop :=
  ∀ change, ∃ later, ∀ (target : Target) (before : Executor σ), target.field = field →
    (env.callResolver target (parent.mapFaults change) args).runFrom before =
      (.ok (.ok (value.mapFaults later)), before)

section Fields

variable {field : Field} {args : Entries Value} {value : Value} {node : FieldNode} {data : Response}

/-- What the default resolver reads off a parent. -/
theorem resolves_read (resolved : field.resolver = .default)
    (reads : ∀ change, ∃ later,
      (parent.mapFaults change).read field.key field.name = .value (value.mapFaults later)) :
    env.Resolves field parent args value := by
  intro change
  obtain ⟨later, read⟩ := reads change
  refine ⟨later, fun target before same => ?_⟩
  unfold callResolver
  rw [same, resolved]
  dsimp only
  rw [read]
  rfl

/-- What introspection gives for a parent. -/
theorem resolves_inspect {what : Introspector} (resolved : field.resolver = .introspect what)
    (uncalled : ∀ change, what.method? (parent.mapFaults change) = none)
    (gives : ∀ change, ∃ later, what.resolve env.registry (parent.mapFaults change) args =
      pure (value.mapFaults later)) :
    env.Resolves field parent args value := by
  intro change
  obtain ⟨later, given⟩ := gives change
  refine ⟨later, fun target before same => ?_⟩
  unfold callResolver
  rw [same, resolved]
  dsimp only
  rw [uncalled]
  dsimp only
  rw [given]
  rfl

/-- The value of a field whose resolver gives a lasting value. -/
theorem resolve_achieves (resolves : env.Resolves field parent args value)
    (lasts : value.isLasting = true) {target : Target} (same : target.field = field)
    (change : Fault → Fault) (path : Path) :
    (env.resolve target path (parent.mapFaults change) args).Achieves fun found =>
      ∃ later, found = value.mapFaults later := by
  have stays : ∀ later, (value.mapFaults later).isLasting = true := fun later => by
    rwa [Value.isLasting_mapFaults]
  unfold resolve
  refine .step fun before running =>
    ⟨(), before, Exec.runFrom_checkpoint_of_running running, rfl, rfl, ?_⟩
  refine .step fun before _ => ⟨⟨⟩, _, Exec.runFrom_modify _ before, rfl, rfl, ?_⟩
  refine .step fun before _ => ?_
  obtain ⟨later, called⟩ := resolves (before.world.settleFault ∘ change)
  refine ⟨.ok (value.mapFaults later), before, ?_, rfl, rfl, ?_⟩
  · unfold call
    rw [Exec.runFrom_bind_ok (Exec.runFrom_get before), World.settleValue_eq,
      Value.mapFaults_mapFaults, Exec.runFrom_bind_ok (called target before same)]
    dsimp only
    rw [await_of_isAtHand (Value.isAtHand_of_isLasting (stays later))]
    rfl
  · unfold accept
    split
    · next equal => cases equal
    · next equal =>
      have plain := stays later
      rw [Except.ok.inj equal] at plain
      cases plain
    · next equal => exact .pure ⟨later, (Except.ok.inj equal).symm⟩

/-- The data of a field: its arguments are coerced to the same in every world, its resolver gives a
lasting value, and the value tells the data. -/
theorem Replies.of_value (found : env.registry.field? (.object object) node.name = some field)
    (own : field.name ≠ Introspection.typenameField.name)
    (coerced : ∀ world, ((env.coercion world).coerceArguments defaultCoercionDepth field.args
      node.arguments).outcome = .ok args)
    (resolves : env.Resolves field parent args value) (lasts : value.isLasting = true)
    (tells : env.Tells field.type value node.selections data) :
    env.Replies object parent node data := by
  intro change depth path deep
  unfold executeGroup
  dsimp only
  rw [found]
  dsimp only
  unfold executeTarget
  refine .position ?_ _ _ _
  dsimp only
  rw [if_neg own]
  refine .get_bind fun executor => ?_
  refine (Attempt.Achieves.ofCoercion (coerced executor.world)).bind ?_
  rintro _ rfl
  refine (resolve_achieves resolves lasts rfl change path).bind ?_
  rintro _ ⟨later, rfl⟩
  exact tells later depth _ path deep rfl

end Fields

/-! ## Whole operations -/

/-- How deeply objects are nested is bounded by the selections of the operation at least. -/
theorem depths_le_depthBound (request : Request) :
    Selection.depths request.operation.selections ≤ request.depthBound :=
  Nat.le_add_right _ _

/-- Executing an operation gives some data, and no error besides those that the executor has
already. -/
def SucceedsWith (env : Environment σ) (before : Executor σ) (data : Response) : Prop :=
  ∃ after, env.execute.runFrom before =
      (.ok { data, errors := before.errors.map after.world.settle }, after) ∧
    after.errors = before.errors

/-- An operation with one root field that replies succeeds with its data. -/
theorem succeedsWith_of_repliesTo (accepted : env.registry.Accepted)
    (found : env.rootType? = some root) {selection : Selection} {key : String} {data : Response}
    (asked : env.request.operation.selections = [selection])
    (replies : env.RepliesTo root env.request.root selection (key, data)) {before : Executor σ}
    (running : before.isStopping = false) : env.SucceedsWith before (.object [(key, data)]) := by
  have deep := depths_le_depthBound env.request
  rw [asked] at deep
  obtain ⟨nodes, plain, each⟩ := exists_nodes (.cons replies .nil) (Nat.le_succ_of_le deep)
  cases each with
  | @cons node _ _ _ first rest =>
  cases rest
  obtain ⟨rfl, below, replied⟩ := first
  have collected : env.groups? root [env.request.operation.selections] =
      some [{ first := node }] := by
    rw [asked]
    exact groups?_of_plain plain (List.nodup_singleton _)
  let shown : FieldGroup → Shown Response := fun _ => ⟨some data, 0⟩
  have gives : ∀ group ∈ [({ first := node } : FieldGroup)],
      (env.executeGroup (env.executeObject env.request.depthBound) root env.request.root
        (rootPath group) group).Gives (fun _ => True) (shown group).errors
          (Has (shown group).data) := by
    intro group only
    cases List.mem_singleton.mp only
    have given := replied id _ (rootPath { first := node }) below
    rwa [Value.mapFaults_id] at given
  have ready : (env.begun root before).Ready fun _ => True := by
    refine ⟨?_, trivial⟩
    show (if before.isStopping then before.phase else .running).isStop = false
    rw [running]
    rfl
  obtain ⟨answer, after, ends, same⟩ := executeRoot_responds accepted collected gives _ ready
  rw [List.map_singleton, Shown.merge_singleton] at ends same
  subst same
  obtain ⟨noted, all, none⟩ := ends.notes
  have nothing : noted = [] := List.map_eq_nil_iff.mp ((Multiset.coe_eq_zero _).mp none)
  have errors : after.errors = before.errors := by
    rw [all, nothing, List.append_nil]
    rfl
  refine ⟨after.finish, ?_, errors⟩
  rw [runFrom_execute_of_some found, ends.ran, ← errors]
  rfl

end Environment

end GraphQL
