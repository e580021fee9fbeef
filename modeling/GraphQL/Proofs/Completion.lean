import GraphQL.Proofs.Resolution
import GraphQL.Proofs.Runtime

/-!
# Completing values lays out positions

Completing a value of a type gives a position that is laid out as the type says and accounts for the
errors that were recorded on the way. For objects this rests on what executes their fields; the
budget for nested objects closes the circle.
-/

namespace GraphQL

variable {σ : Type}

namespace Environment

variable {env : Environment σ} {root : ObjectType} {waits : Prop} {path : Path} {level : Nat}
  {object : ObjectType} {target : Target} {execute : ObjectExecution σ}

variable (env root waits) in
/-- Executing an object with a number of others around it lays out the fields that are selected on
it. -/
def Executes (level : Nat) (execute : ObjectExecution σ) : Prop :=
  ∀ object parent selections path, env.Encounters root level object selections →
    env.Attempts root waits path (execute object parent selections path) fun noted fields =>
      ∃ groups, env.Collects object selections groups ∧ env.FieldsFit object groups fields ∧
        Position.FieldsAccount path noted fields

/-- The hook of an object type notes no error. -/
theorem checkType_attempts (object : ObjectType) (value : Value) :
    env.Attempts root waits path (env.checkType object value) fun noted _ =>
      noted = [] ∧ True := by
  unfold checkType
  split
  · exact .pure ⟨rfl, trivial⟩
  · split
    · split
      · exact .halt .cancelled
      · split
        · exact .refuse rfl
        · exact .refuse rfl
    · split
      · exact .pure ⟨rfl, trivial⟩
      · exact .refuse rfl

/-- The object type of a value of an abstract type is one that the type admits. -/
theorem concreteType_attempts {name : String} {type : TypeDefinition}
    (registered : env.registry.type? name = some type) (abstract : type.isAbstract = true)
    (value : Value) :
    env.Attempts root waits path (env.concreteType type value) fun noted inner =>
      noted = [] ∧ env.registry.CanBe name inner := by
  unfold concreteType
  split
  · next inner found =>
    exact .pure ⟨rfl, AbstractType.canBe_of_resolve_eq_ok registered abstract found⟩
  · refine (Attempts.report _).bind_quiet fun _ _ => ?_
    split
    · exact .halt .cancelled
    · exact .refuse rfl
    · exact .refuse rfl

/-- The position of a value of an enum is one of its symbols. -/
theorem completeEnum_attempts {name : String} {required : Bool} {type : EnumType}
    (registered : env.registry.type? name = some (.enum type)) (value : Value)
    (selections : List (List Selection)) :
    env.Attempts root waits path (completeEnum type value : Attempt σ Position)
      fun noted position =>
        env.Fits (.named name required) selections position ∧ position.Accounts path noted := by
  unfold completeEnum
  split
  · next symbol chosen =>
    refine .pure ⟨?_, rfl⟩
    exact ⟨name, required, rfl, .enum registered chosen⟩
  · exact .refuse rfl

/-- The position of a value of a scalar is what it serializes to. -/
theorem completeScalar_attempts {name : String} {required : Bool} {type : ScalarType}
    (registered : env.registry.type? name = some (.scalar type)) (value : Value)
    (selections : List (List Selection)) :
    env.Attempts root waits path (env.completeScalar type value) fun noted position =>
      env.Fits (.named name required) selections position ∧ position.Accounts path noted := by
  unfold completeScalar
  split
  · split
    · exact .halt .cancelled
    · exact .refuse rfl
  · next serialized converted =>
    cases empty : serialized.isNull with
    | true => exact .refuse rfl
    | false =>
      refine .pure ⟨?_, rfl⟩
      exact ⟨name, required, rfl, .scalar registered converted empty⟩

/-- The position of a value of an object type holds the fields selected below. -/
theorem completeObject_attempts {required : Bool} {inner : ObjectType}
    (executes : env.Executes root waits (level + 1) execute)
    (visited : env.Visits root level object target.group target.field)
    (possible : env.registry.CanBe target.field.type.name inner) (value : Value) :
    env.Attempts root waits path (completeObject execute target required path inner value)
      fun noted position =>
        env.Fits (.named target.field.type.name required)
            (target.group.nodes.map FieldNode.selections) position ∧
          position.Accounts path noted := by
  unfold completeObject
  refine Attempts.map ((executes _ _ _ _ (visited.encounters possible)).mono ?_)
  rintro noted fields ⟨groups, collected, fits, accounted⟩
  exact ⟨⟨_, inner, groups, rfl, possible, collected, fits⟩, accounted⟩

/-- The position of a value that is not null is laid out as the named type says. -/
theorem completeNamed_attempts {required : Bool}
    (executes : env.Executes root waits (level + 1) execute)
    (visited : env.Visits root level object target.group target.field) (value : Value) :
    env.Attempts root waits path
      (env.completeNamed execute target required target.field.type.name path value)
      fun noted position =>
        env.Fits (.named target.field.type.name required)
            (target.group.nodes.map FieldNode.selections) position ∧
          position.Accounts path noted := by
  unfold completeNamed
  refine Attempts.get.bind_quiet fun executor _ => ?_
  dsimp only
  split
  · next missing => exact .halt (.unregistered visited missing)
  · next type registered => exact completeEnum_attempts registered _ _
  · next type registered => exact completeScalar_attempts registered _ _
  · next inner registered =>
    refine (checkType_attempts inner _).bind_quiet fun _ _ => ?_
    exact completeObject_attempts executes visited (Or.inl registered) _
  · next type noEnum noScalar noObject registered =>
    split
    · next abstract =>
      refine (concreteType_attempts registered abstract _).bind_quiet fun inner possible => ?_
      exact completeObject_attempts executes visited possible _
    · next concrete =>
      exact .refuse_warranted (.unexpected visited registered (eq_false_of_ne_true concrete)
        noScalar noEnum noObject)

/-- Listing the items of a value notes no error. -/
theorem itemsOf_attempts (target : Target) (value : Value) :
    env.Attempts root waits path (itemsOf target value : Attempt σ (List Value)) fun noted _ =>
      noted = [] ∧ True := by
  unfold itemsOf
  split
  · exact .pure ⟨rfl, trivial⟩
  · exact .pure ⟨rfl, trivial⟩
  · next identity items failure _ =>
    have taken : env.Meets root waits path (Exec.withWorld (World.takeItems · identity items))
        fun noted _ => noted = [] ∧ True :=
      .withWorld_of_promises fun _ => rfl
    refine (Attempts.lift taken).bind_quiet fun remaining _ => ?_
    cases failure with
    | none => exact .pure ⟨rfl, trivial⟩
    | some fault => exact .raise (by decide)
  · exact .refuse rfl

/-- Awaiting an item notes no error. -/
theorem awaitItem_attempts (item : Value) :
    env.Attempts root waits path (awaitItem item : Attempt σ Value) fun noted _ =>
      noted = [] ∧ True := by
  unfold awaitItem
  refine (Attempts.lift (await_meets item)).bind_quiet fun outcome _ => ?_
  cases outcome with
  | ok value => exact .pure ⟨rfl, trivial⟩
  | error fault =>
    dsimp only
    split
    · exact .halt .cancelled
    · exact .refuse (isOrdinary_failureOf fault)

/-- Null stands only where it is admitted. -/
theorem completeNull_attempts (ref : TypeRef) (target : Target)
    (selections : List (List Selection)) :
    env.Attempts root waits path
      (complete.completeNull target ref.isNonNull : Attempt σ Position) fun noted position =>
        env.Fits ref selections position ∧ position.Accounts path noted := by
  unfold complete.completeNull
  cases admitted : ref.isNonNull with
  | true => exact .refuse rfl
  | false => exact .pure ⟨admitted, rfl⟩

/-- Items that each fit and account for their errors do so together. -/
theorem items_of_jointly {item : TypeRef} {selections : List (List Selection)} {offset : Nat}
    {place : Nat → Nat} (places : ∀ index, place index = offset + index) {items : List Value}
    {noted : List FieldError} {positions : List Position}
    (held : Jointly (items.mapIdx fun index _ noted position =>
      env.Fits item selections position ∧
        Position.Accounts (path ++ [.index (place index)]) noted position) noted positions) :
    env.ItemsFit item selections positions ∧
      Position.ItemsAccount path offset noted positions := by
  induction items generalizing offset place noted positions with
  | nil =>
    obtain ⟨rfl, rfl⟩ := held
    exact ⟨trivial, rfl⟩
  | cons value rest ih =>
    rw [List.mapIdx_cons] at held
    obtain ⟨here, later, position, others, rfl, rfl, ⟨fits, accounted⟩, held⟩ := held
    rw [places, Nat.add_zero] at accounted
    obtain ⟨restFits, restAccounted⟩ :=
      ih (fun index => by rw [places, Nat.add_assoc, Nat.add_comm 1 index]) held
    exact ⟨⟨fits, restFits⟩, here, later, rfl, accounted, restAccounted⟩

/-- The position of a value is laid out as its type says. The induction follows the type: a list is
laid out if its items are. -/
theorem complete_attempts (executes : env.Executes root waits (level + 1) execute)
    (visited : env.Visits root level object target.group target.field) {ref : TypeRef}
    (within : ref.name = target.field.type.name) (value : Value) :
    env.Attempts root waits path (env.complete execute target ref path value)
      fun noted position =>
        env.Fits ref (target.group.nodes.map FieldNode.selections) position ∧
          position.Accounts path noted := by
  induction ref generalizing path value with
  | named name required =>
    unfold complete
    split
    · exact completeNull_attempts (.named name required) target _
    · cases within
      exact completeNamed_attempts executes visited value
  | list item required ih =>
    unfold complete
    split
    · exact completeNull_attempts (.list item required) target _
    · have each : ∀ (index : Nat) (raw : Value), env.Meets root waits path
          (Attempt.position item (path ++ [.index index]) target.group.locations do
            let value ← awaitItem raw
            env.complete execute target item (path ++ [.index index]) value)
          fun noted position =>
            env.Fits item (target.group.nodes.map FieldNode.selections) position ∧
              Position.Accounts (path ++ [.index index]) noted position := by
        intro index raw
        refine Meets.of_append (Meets.position ?_)
        refine (awaitItem_attempts raw).bind_quiet fun awaited _ => ?_
        exact ih within awaited
      refine (itemsOf_attempts target value).bind_quiet fun items _ => Attempts.map ?_
      refine (Attempts.together (forall₂_mapIdx items each)).mono ?_
      intro noted positions held
      obtain ⟨fits, accounted⟩ :=
        items_of_jointly (fun index => (Nat.zero_add index).symm) held
      exact ⟨⟨item, rfl, fits⟩, accounted⟩

/-- The position of a field is laid out as its declared type says. -/
theorem executeTarget_meets (target : Target) (mayWait : env.Waits → waits)
    (executes : env.Executes root waits (level + 1) execute)
    (visited : env.Visits root level object target.group target.field) (parent : Value) :
    env.Meets root waits path (env.executeTarget execute object target parent path)
      fun noted position =>
        env.Fits target.field.type (target.group.nodes.map FieldNode.selections) position ∧
          position.Accounts path noted := by
  unfold executeTarget
  refine .position ?_
  split
  · exact complete_attempts executes visited rfl _
  · refine Attempts.get.bind_quiet fun executor _ => ?_
    refine (Attempts.ofCoercion (fun _ failed => .arguments visited failed)
      fun stop why stopped ends => .arguments visited stopped ends).bind_quiet fun args _ => ?_
    refine (resolve_attempts mayWait target parent args).bind_quiet fun value _ => ?_
    exact complete_attempts executes visited rfl value

/-- The position of a group of selections is laid out as the field of its object type says. -/
theorem executeGroup_meets {group : FieldGroup} (mayWait : env.Waits → waits)
    (executes : env.Executes root waits (level + 1) execute)
    (reached : env.Reaches root level object group) (parent : Value) :
    env.Meets root waits path (env.executeGroup execute object parent path group)
      fun noted position =>
        env.GroupFits object group position ∧ position.Accounts path noted := by
  unfold executeGroup GroupFits
  cases found : env.registry.field? (.object object) group.first.name with
  | some field =>
    have visited : env.Visits root level object group field := ⟨reached, found⟩
    exact executeTarget_meets ⟨object.name, field, group⟩ mayWait executes visited parent
  | none =>
    refine (Meets.fail (.missing ⟨level, object, group, reached, found⟩)).mono ?_
    rintro noted position ⟨error, rfl, rfl, placed⟩
    exact ⟨⟨error, rfl⟩, placed, [], rfl, by simp⟩

/-- Collecting notes no error, and gives the groups of the object. -/
theorem collectGroups_attempts {selections : List (List Selection)}
    (encountered : env.Encounters root level object selections) :
    env.Attempts root waits path (env.collectGroups object selections) fun noted groups =>
      noted = [] ∧ env.Collects object selections groups := by
  unfold collectGroups
  refine Attempts.get.bind_quiet fun executor _ => ?_
  refine (Attempts.report _).bind_quiet fun _ _ => ?_
  refine (Attempts.ofCoercion (fun _ failed => .collection encountered failed)
    fun stop why stopped ends => .collection encountered stopped ends).bind_quiet
    fun _ succeeded => ?_
  exact .pure ⟨rfl, executor.world, succeeded, rfl⟩

variable (env) in
/-- Collecting records no error itself, also where it fails. -/
theorem errors_collectGroups (object : ObjectType) (selections : List (List Selection))
    (before : Executor σ) :
    (Exec.runFrom (env.collectGroups object selections).run before).2.errors = before.errors := by
  unfold collectGroups
  rw [ExceptT.run_bind]
  exact Attempt.errors_ofCoercion fun _ _ => rfl

/-- Fields of groups that each fit and account for their errors do so together. -/
theorem fields_of_jointly {groups : List FieldGroup} {noted : List FieldError}
    {fields : List (String × Position)}
    (held : Jointly (groups.map fun group noted entry =>
      entry.1 = group.key ∧ env.GroupFits object group entry.2 ∧
        Position.Accounts (path ++ [.key group.key]) noted entry.2) noted fields) :
    env.FieldsFit object groups fields ∧ Position.FieldsAccount path noted fields := by
  induction groups generalizing noted fields with
  | nil =>
    obtain ⟨rfl, rfl⟩ := held
    exact ⟨rfl, rfl⟩
  | cons group rest ih =>
    obtain ⟨here, later, ⟨key, position⟩, others, rfl, rfl, ⟨keyed, fits, accounted⟩, held⟩ := held
    obtain ⟨restFits, restAccounted⟩ := ih held
    cases keyed
    exact ⟨⟨group, rest, rfl, rfl, fits, restFits⟩, here, later, rfl, accounted, restAccounted⟩

/-- Executing an object lays out its fields, as long as the budget for nested objects is not used up
before their number exceeds the bound of the request. -/
theorem executeObject_executes (mayWait : env.Waits → waits) {depth level : Nat}
    (enough : env.request.depthBound < level + depth) :
    env.Executes root waits level (env.executeObject depth) := by
  induction depth generalizing level with
  | zero =>
    intro object parent selections path encountered
    exact .halt (.nesting encountered enough)
  | succ depth ih =>
    have inner : env.Executes root waits (level + 1) (env.executeObject depth) :=
      ih (by omega)
    intro object parent selections path encountered
    unfold executeObject
    refine (collectGroups_attempts encountered).bind_quiet fun groups collected => ?_
    have each : ∀ group ∈ groups, env.Meets root waits path
        ((group.key, ·) <$> env.executeGroup (env.executeObject depth) object parent
          (path ++ [.key group.key]) group)
        fun noted entry => entry.1 = group.key ∧ env.GroupFits object group entry.2 ∧
          Position.Accounts (path ++ [.key group.key]) noted entry.2 := by
      intro group member
      have reached : env.Reaches root level object group :=
        ⟨selections, groups, encountered, collected, member⟩
      have met : env.Meets root waits (path ++ [.key group.key])
          (env.executeGroup (env.executeObject depth) object parent (path ++ [.key group.key])
            group) fun noted position => env.GroupFits object group position ∧
              Position.Accounts (path ++ [.key group.key]) noted position :=
        executeGroup_meets mayWait inner reached parent
      exact Meets.map (met.of_append.mono fun _ _ held => ⟨rfl, held⟩)
    refine (Attempts.together (forall₂_map each)).mono ?_
    intro noted fields held
    obtain ⟨fits, accounted⟩ := fields_of_jointly held
    exact ⟨groups, collected, fits, accounted⟩

end Environment

end GraphQL
