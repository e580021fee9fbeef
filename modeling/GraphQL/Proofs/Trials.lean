import GraphQL.Proofs.Arrivals

/-!
# Trials of positions

What an execution tries to make of the positions of its response, read off the way it takes: the
trials of items and of fields below a position go with the trial of that position. Parts of an
execution that give no result have no trial, but what was tried in them before counts.
-/

namespace GraphQL

variable {σ α : Type}

/-- A value that was completed is plain: no error object that is made for fields. -/
def Position.isPlain (position : Position) : Bool :=
  position.fault?.all fun fault => !fault.kind.isFieldError

/-- What an attempt at a position came to, with the executor as it is then. -/
structure Trial (σ : Type) where
  path : Path
  outcome : Except FailureCause Position
  executor : Executor σ

namespace Trial

/-- An error object of user code that fails a position is fresh: it has no path yet. -/
def isFresh (trial : Trial σ) : Bool :=
  match trial.outcome with
  | .error (.given fault) => (trial.executor.world.settleFault fault).path.isNone
  | _ => true

/-- A value that was completed at a position is plain. -/
def isPlain (trial : Trial σ) : Bool :=
  match trial.outcome with
  | .ok position => position.isPlain
  | .error _ => true

end Trial

/-- What a part of an execution tries, given the executor that it begins with. -/
abbrev Trials (σ : Type) := Executor σ → List (Trial σ)

namespace Trials

/-- Nothing is tried. -/
def none : Trials σ :=
  fun _ => []

/-- An attempt at a position is tried, and what is tried below it. -/
def attempt (path : Path) (attempt : Attempt σ Position) (below : Trials σ) : Trials σ :=
  fun before =>
    match Exec.runFrom attempt.run before with
    | (.ok outcome, after) => ⟨path, outcome, after⟩ :: below before
    | (.error _, _) => below before

/-- What is tried after an attempt that succeeds, given its result. -/
def after (attempt : Attempt σ α) (next : α → Trials σ) : Trials σ :=
  fun before =>
    match Exec.runFrom attempt.run before with
    | (.ok (.ok result), middle) => next result middle
    | _ => []

/-- What parts that belong together try, each from the executor that those before it leave, unless a
stop keeps it from beginning. -/
def inTurn : List (Exec σ α × Trials σ) → Trials σ
  | [] => none
  | (part, trials) :: rest => fun before =>
    (if before.isStopping then [] else trials before) ++
      inTurn rest ((Exec.checkpoint >>= fun () => part).runFrom before).2

end Trials

/-- What executing the fields of an object at a path tries. -/
abbrev ObjectTrials (σ : Type) :=
  ObjectType → Value → List (List Selection) → Path → Trials σ

namespace Environment

variable (env : Environment σ)

section Completion

variable (execute : ObjectExecution σ) (inside : ObjectTrials σ)

/-- What completing a value tries that turned out to be a leaf or an object. -/
def headTrials (target : Target) (path : Path) : Head → Trials σ
  | .leaf _ => .none
  | .object object value =>
    inside object value (target.group.nodes.map FieldNode.selections) path

/-- What is attempted at the position of an item. -/
def attemptItem (target : Target) (item : TypeRef) (path : Path) (raw : Value) :
    Attempt σ Position :=
  awaitItem raw >>= env.complete execute target item path

/-- What completing a value of a type tries. -/
def valueTrials (target : Target) : TypeRef → Path → Value → Trials σ
  | .named name _ => fun path value =>
    if value.isNull then .none
    else .after (env.head name value) (headTrials inside target path)
  | .list item _ => fun path value =>
    if value.isNull then .none
    else .after (itemsOf target value) fun items =>
      .inTurn <| items.zipIdx.map fun (raw, index) =>
        (env.completeItem execute target item (path ++ [.index index]) raw,
          .attempt (path ++ [.index index])
            (env.attemptItem execute target item (path ++ [.index index]) raw)
            (.after (awaitItem raw) (valueTrials target item (path ++ [.index index]))))

/-- What is attempted at the position of a group of selections on an object. -/
def attemptGroup (object : ObjectType) (parent : Value) (path : Path) (group : FieldGroup) :
    Attempt σ Position :=
  match env.registry.field? (.object object) group.first.name with
  | some field =>
    env.fetch ⟨object.name, field, group⟩ object parent path >>=
      env.complete execute ⟨object.name, field, group⟩ field.type path
  | none => Attempt.refuse (.unknownField group.first.name object.name)

/-- What a group of selections on an object tries. -/
def groupTrials (object : ObjectType) (parent : Value) (path : Path) (group : FieldGroup) :
    Trials σ :=
  .attempt path (env.attemptGroup execute object parent path group) <|
    match env.registry.field? (.object object) group.first.name with
    | some field =>
      .after (env.fetch ⟨object.name, field, group⟩ object parent path)
        (env.valueTrials execute inside ⟨object.name, field, group⟩ field.type path)
    | none => .none

end Completion

/-- What executing the fields of an object tries, at most `depth` objects deep. -/
def objectTrials : Nat → ObjectTrials σ
  | 0 => fun _ _ _ _ => .none
  | depth + 1 => fun object parent selections path =>
    .after (env.collectGroups object selections) fun groups =>
      .inTurn <| groups.map fun group =>
        ((group.key, ·) <$>
            env.executeGroup (env.executeObject depth) object parent (path ++ [.key group.key])
              group,
          env.groupTrials (env.executeObject depth) (objectTrials depth) object parent
            (path ++ [.key group.key]) group)

section Root

variable (root : ObjectType)

/-- What a root field tries. -/
def rootFieldTrials (group : FieldGroup) : Trials σ :=
  env.groupTrials (env.executeObject env.request.depthBound)
    (env.objectTrials env.request.depthBound) root env.request.root (rootPath group) group

/-- What the root fields of a query try. -/
def queryTrials (groups : List FieldGroup) : Trials σ := fun before =>
  Trials.inTurn (groups.map fun group =>
    (env.executeRootField root group, env.rootFieldTrials root group))
    (before.start groups.length)

/-- What the root fields of a mutation try, one after another until one waits forever. -/
def mutationTrials : List FieldGroup → Trials σ
  | [] => .none
  | group :: rest => fun before =>
    if before.isStopping then []
    else
      let ran := (env.runRootField root group).run (before.start 1)
      env.rootFieldTrials root group (before.start 1) ++
        if isWaiting ran.1 then [] else mutationTrials rest ran.2

/-- What the root fields of the operation try. -/
def rootFieldsTrials (groups : List FieldGroup) : Trials σ :=
  match env.request.operation.kind with
  | .mutation => env.mutationTrials root groups
  | .query | .subscription => env.queryTrials root groups

end Root

/-- What executing the operation tries. -/
def trials : Trials σ := fun before =>
  match env.rootType? with
  | none => []
  | some root =>
    Trials.after (env.collectGroups root [env.request.operation.selections])
      (env.rootFieldsTrials root) (env.begun root before)

end Environment

end GraphQL
