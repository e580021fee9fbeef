import GraphQL.Proofs.Failures
import GraphQL.Proofs.Repetition

/-!
# Positions that an execution comes to

Which groups of selections an execution comes to, and with which executor each of them begins, read
off the way the execution takes: the fields of an object come in the order of their groups, the
items of a list in theirs, and what stands below a field or an item comes before the next one.
Siblings that a stop keeps from beginning are come to as well, but nothing below them is. An
execution of root fields one after another does not get past one that waits forever.
-/

namespace GraphQL

variable {σ α : Type}

/-- A position that an execution comes to: a group of selections on an object, at a path, with the
executor as it is then. -/
structure Arrival (σ : Type) where
  object : ObjectType
  group : FieldGroup
  path : Path
  executor : Executor σ

/-- What a part of an execution comes to, given the executor that it begins with. -/
abbrev Arrivals (σ : Type) := Executor σ → List (Arrival σ)

namespace Arrivals

/-- Nothing is come to. -/
def none : Arrivals σ :=
  fun _ => []

/-- What is come to unless a stop was asked for. -/
def unlessStopping (arrivals : Arrivals σ) : Arrivals σ :=
  fun before => if before.isStopping then [] else arrivals before

/-- What is come to after an attempt that succeeds, given its result. -/
def after (attempt : Attempt σ α) (next : α → Arrivals σ) : Arrivals σ :=
  fun before =>
    match Exec.runFrom attempt.run before with
    | (.ok (.ok result), middle) => next result middle
    | _ => []

/-- What parts that belong together come to, each from the executor that those before it leave. -/
def inTurn : List (Exec σ α × Arrivals σ) → Arrivals σ
  | [] => none
  | (part, arrivals) :: rest => fun before =>
    arrivals before ++ inTurn rest ((Exec.checkpoint >>= fun () => part).runFrom before).2

end Arrivals

/-- What executing the fields of an object at a path comes to. -/
abbrev ObjectArrivals (σ : Type) :=
  ObjectType → Value → List (List Selection) → Path → Arrivals σ

namespace Environment

variable (env : Environment σ)

section Completion

variable (execute : ObjectExecution σ) (inside : ObjectArrivals σ)

/-- What completing a value comes to that turned out to be a leaf or an object. -/
def headArrivals (target : Target) (path : Path) : Head → Arrivals σ
  | .leaf _ => .none
  | .object object value =>
    inside object value (target.group.nodes.map FieldNode.selections) path

/-- What completing a value of a type comes to. -/
def valueArrivals (target : Target) : TypeRef → Path → Value → Arrivals σ
  | .named name _ => fun path value =>
    if value.isNull then .none
    else .after (env.head name value) (headArrivals inside target path)
  | .list item _ => fun path value =>
    if value.isNull then .none
    else .after (itemsOf target value) fun items =>
      .inTurn <| items.zipIdx.map fun (raw, index) =>
        (env.completeItem execute target item (path ++ [.index index]) raw,
          .unlessStopping <| .after (awaitItem raw) (valueArrivals target item
            (path ++ [.index index])))

/-- What a group of selections on an object comes to: its own position first. -/
def groupArrivals (object : ObjectType) (parent : Value) (path : Path) (group : FieldGroup) :
    Arrivals σ := fun before =>
  { object, group, path, executor := before } ::
    match env.registry.field? (.object object) group.first.name with
    | none => []
    | some field =>
      let target : Target := ⟨object.name, field, group⟩
      Arrivals.unlessStopping (.after (env.fetch target object parent path)
        (env.valueArrivals execute inside target field.type path)) before

end Completion

/-- What executing the fields of an object comes to, at most `depth` objects deep. -/
def objectArrivals : Nat → ObjectArrivals σ
  | 0 => fun _ _ _ _ => .none
  | depth + 1 => fun object parent selections path =>
    .after (env.collectGroups object selections) fun groups =>
      .inTurn <| groups.map fun group =>
        ((group.key, ·) <$>
            env.executeGroup (env.executeObject depth) object parent (path ++ [.key group.key])
              group,
          env.groupArrivals (env.executeObject depth) (objectArrivals depth) object parent
            (path ++ [.key group.key]) group)

section Root

variable (root : ObjectType)

/-- The position of a root field. -/
def executeRootField (group : FieldGroup) : Exec σ Position :=
  env.executeGroup (env.executeObject env.request.depthBound) root env.request.root
    (rootPath group) group

/-- What a root field comes to. -/
def rootFieldArrivals (group : FieldGroup) : Arrivals σ :=
  env.groupArrivals (env.executeObject env.request.depthBound)
    (env.objectArrivals env.request.depthBound) root env.request.root (rootPath group) group

/-- What the root fields of a query come to. -/
def queryArrivals (groups : List FieldGroup) : Arrivals σ :=
  .unlessStopping fun before =>
    Arrivals.inTurn (groups.map fun group =>
      (env.executeRootField root group, env.rootFieldArrivals root group))
      (before.start groups.length)

/-- What the root fields of a mutation come to, one after another. -/
def mutationArrivals : List FieldGroup → Arrivals σ
  | [] => .none
  | group :: rest => .unlessStopping fun before =>
    let ran := (env.runRootField root group).run (before.start 1)
    env.rootFieldArrivals root group (before.start 1) ++
      if isWaiting ran.1 then [] else mutationArrivals rest ran.2

/-- What the root fields of the operation come to. -/
def rootFieldsArrivals (groups : List FieldGroup) : Arrivals σ :=
  match env.request.operation.kind with
  | .mutation => env.mutationArrivals root groups
  | .query | .subscription => env.queryArrivals root groups

end Root

/-- What executing the operation comes to. -/
def arrivals : Arrivals σ := fun before =>
  match env.rootType? with
  | none => []
  | some root =>
    Arrivals.after (env.collectGroups root [env.request.operation.selections])
      (env.rootFieldsArrivals root) (env.begun root before)

/-- The call of a resolver that belongs to a position to which an execution came: there is one
where no stop was asked for, the field exists and is not the name of the object type, and its
arguments are coerced. -/
def call? (arrival : Arrival σ) : Option ResolverCall :=
  if arrival.executor.isStopping then none
  else match env.registry.field? (.object arrival.object) arrival.group.first.name with
    | none => none
    | some field =>
      if field.name = Introspection.typenameField.name then none
      else match (env.argumentsOf ⟨arrival.object.name, field, arrival.group⟩
          arrival.executor).outcome with
        | .ok arguments =>
          some {
            label := arrival.object.name ++ "." ++ field.name
            path := arrival.path
            arguments }
        | .error _ => none

end Environment

end GraphQL
