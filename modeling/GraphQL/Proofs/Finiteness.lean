import GraphQL.Proofs.Budgets
import GraphQL.Proofs.Conformance
import GraphQL.Proofs.Termination

/-!
# Executions come to an end

Neither types nor data need shrink on the way down: an object may hold itself, and an object type
may have fields of itself. What shrinks is the operation. So an execution comes to an end where user
code and coercions do and where fragments do not lead back into themselves, and objects are nested in
its data no deeper than fields are in the operation with its fragments written out.
-/

namespace GraphQL

variable {σ : Type}

namespace Response

mutual

/-- How many keys lead into data at most. Each object in it that stands in another stands under a key
of that one, so no more objects stand in one another than that, and none in the last. -/
def depth : Response → Nat
  | null | leaf _ => 0
  | list items => itemsDepth items
  | object entries => entriesDepth entries

/-- How many keys lead into the items of a list at most. -/
def itemsDepth : List Response → Nat
  | [] => 0
  | item :: rest => max (depth item) (itemsDepth rest)

/-- How many keys lead into the entries of an object at most, their own included. -/
def entriesDepth : List (String × Response) → Nat
  | [] => 0
  | (_, entry) :: rest => max (depth entry + 1) (entriesDepth rest)

end

end Response

/-- Arguments of types that are no input objects are coerced to the end. -/
theorem CoercionContext.avoids_coerceArguments_of_leaves {context : CoercionContext}
    {args : List Argument} (leaves : ∀ arg ∈ args, context.IsLeaf arg.type) (depth : Nat)
    (literals : Entries Value) :
    Coercion.Avoids .tooDeep (context.coerceArguments (depth + 1) args literals) := by
  have spares : context.Spares .tooDeep := spares_tooDeep
  refine (Coercion.Avoids.gather spares.sudden (fun part given => ?_) []).bind fun _ _ => .pure _
  obtain ⟨arg, among, rfl⟩ := List.mem_map.mp given
  have leaf := leaves arg among
  apply avoids_argumentPart spares
  intro raw path
  exact ⟨fun _ => leaf.avoids _ _ _, fun _ _ => leaf.avoids _ _ _⟩

namespace Environment

variable {env : Environment σ} {root : ObjectType} {leafHolds : String → Value → Prop}

/-! ## Depth of data -/

mutual

/-- Data that conforms to some selections is no deeper than they are. -/
theorem Conforms.depth_le : ∀ (data : Response) {ref : TypeRef} {selections : List (List Selection)}
    {deep : Nat}, env.Conforms leafHolds ref selections data →
    (∀ inner ∈ selections, Selection.DeepAtMost env.request.fragments inner deep) →
    data.depth ≤ deep
  | .null, _, _, _, _, _ => Nat.zero_le _
  | .leaf _, _, _, _, _, _ => Nat.zero_le _
  | .list items, _, _, _, ⟨_, _, _, conform⟩, within => ItemsConform.depth_le items conform within
  | .object entries, _, _, _, ⟨_, _, _, _, _, _, gathered, conform⟩, within =>
    EntriesConform.depth_le entries conform (deepAtMost_of_groups? gathered within)

theorem ItemsConform.depth_le : ∀ (items : List Response) {item : TypeRef}
    {selections : List (List Selection)} {deep : Nat},
    env.ItemsConform leafHolds item selections items →
    (∀ inner ∈ selections, Selection.DeepAtMost env.request.fragments inner deep) →
    Response.itemsDepth items ≤ deep
  | [], _, _, _, _, _ => Nat.zero_le _
  | first :: rest, _, _, _, ⟨conforms, restConform⟩, within =>
    Nat.max_le.mpr ⟨Conforms.depth_le first conforms within,
      ItemsConform.depth_le rest restConform within⟩

theorem EntriesConform.depth_le : ∀ (entries : List (String × Response)) {object : ObjectType}
    {groups : List FieldGroup} {deep : Nat}, env.EntriesConform leafHolds object groups entries →
    (∀ group ∈ groups, ∃ less, deep = less + 1 ∧ ∀ inner ∈ group.nodes.map FieldNode.selections,
      Selection.DeepAtMost env.request.fragments inner less) →
    Response.entriesDepth entries ≤ deep
  | [], _, _, _, _, _ => Nat.zero_le _
  | (key, entry) :: rest, object, _, _, ⟨group, others, grouped, _, conforms, restConform⟩,
      within => by
    subst grouped
    obtain ⟨⟨less, rfl, inside⟩, later⟩ := List.forall_mem_cons.mp within
    have shallow : entry.depth ≤ less := by
      cases found : env.registry.field? (.object object) group.first.name with
      | none =>
        rw [found] at conforms
        cases conforms
        exact Nat.zero_le _
      | some field =>
        rw [found] at conforms
        exact Conforms.depth_le entry conforms inside
    exact Nat.max_le.mpr ⟨Nat.succ_le_succ shallow, EntriesConform.depth_le rest restConform later⟩

end

theorem DataConforms.depth_le {data : Response} {inlined : List Selection}
    (conforms : env.DataConforms leafHolds data)
    (inlines : Selection.Inlines env.request.fragments env.request.operation.selections inlined) :
    data.depth ≤ Selection.depths inlined := by
  unfold DataConforms at conforms
  cases found : env.rootType? with
  | none =>
    rw [found] at conforms
    cases conforms
    exact Nat.zero_le _
  | some root =>
    rw [found] at conforms
    exact Conforms.depth_le data conforms <|
      List.forall_mem_singleton.mpr ⟨inlined, inlines, Nat.le_refl _⟩

/-! ## Ends -/

variable (env) in
/-- The arguments of every field that an execution may come to are coerced to the end. -/
def ArgumentsEnd : Prop :=
  ∀ root, env.rootType? = some root → ∀ level object group field,
    env.Visits root level object group field → ∀ world,
      ((env.coercion world).coerceArguments defaultCoercionDepth field.args
        group.first.arguments).outcome ≠ .error .tooDeep

/-- Where no argument of a registered field is an input object, all are coerced to the end. -/
theorem argumentsEnd_of_leaves (accepted : env.registry.Accepted)
    (leaves : ∀ type ∈ env.registry.types, ∀ field ∈ type.outputFields, ∀ arg ∈ field.args,
      ∀ world, (env.coercion world).IsLeaf arg.type) : env.ArgumentsEnd := by
  intro root found level object group field visited world
  obtain ⟨selections, groups, encountered, _, _⟩ := visited.reached
  have registered := Registry.mem_of_type? (encountered.registered found)
  refine CoercionContext.avoids_coerceArguments_of_leaves (fun arg given => ?_) 999 _
  rcases Registry.mem_of_field? visited.found with among | fixed
  · exact leaves _ registered field among arg given world
  · simp only [List.mem_cons, List.not_mem_nil, or_false] at fixed
    rcases fixed with rfl | rfl | rfl
    · exact absurd given List.not_mem_nil
    · exact absurd given List.not_mem_nil
    · cases List.mem_singleton.mp given
      refine ⟨_, _, rfl, fun type found => ?_⟩
      cases (accepted.type?_scalar .string).symm.trans found

/-- Where the operation comes to an end, nothing is nested too deeply. -/
theorem MayHalt.ne_tooDeep {waits : Prop} (accepted : env.registry.Accepted)
    (found : env.rootType? = some root) (acyclic : env.SpreadsAcyclic) (coerced : env.ArgumentsEnd)
    {why : Halt} (reason : env.MayHalt root waits why) : why ≠ .tooDeep := by
  rintro rfl
  cases reason with
  | @arguments _ _ _ _ _ stop _ visited stopped ends =>
    cases stop with
    | tooDeep => exact coerced root found _ _ _ _ visited _ stopped
    | _ => cases ends
  | collection _ stopped ends =>
    obtain ⟨failure, rfl⟩ := exists_failed_of_collectAll accepted stopped
    cases ends
  | nesting encountered deep =>
    obtain ⟨inlined, inlines⟩ := acyclic.exists_inlines
    obtain ⟨less, nested, _⟩ := encountered.deepAtMost ⟨inlined, inlines, Nat.le_refl _⟩
    have within := acyclic.depths_lt inlines
    omega

variable (env) in
/-- An execution that goes no deeper than a number says: the budgets for fragments and for nested
objects do not decide what it does, it comes to an end, and so deep at most is its data. -/
structure EndsWithin (deep : Nat) (before : Executor σ) : Prop where
  /-- Any greater budget for fragments reads the same. -/
  reads : ∀ world object budget selections, env.request.fragments.length ≤ budget →
    (env.collection world object).collectWithin budget selections =
      (env.collection world object).collect selections
  /-- Any budget that leaves room for so many objects in one another executes the same. -/
  executes : ∀ root, env.rootType? = some root → ∀ level object group,
    env.Reaches root level object group → ∀ budget, deep ≤ level + budget → ∀ parent path,
      env.executeGroup (env.executeObject budget) object parent path group =
        env.executeGroup (env.executeObject env.request.depthBound) object parent path group
  /-- There is a result, unless a fault escapes that an iterable raised or that is a completed
  value. -/
  ends : (∃ result after, env.execute.runFrom before = (.ok result, after) ∧
      result.data.depth ≤ deep) ∨
    ∃ origin fault after, env.execute.runFrom before = (.error (.escaped origin fault), after) ∧
      (origin = .iteration ∨ origin = .completion)

/-- On an accepted registry, an operation whose fragments do not lead back into themselves comes to
an end if the coercion of its arguments and the user code do, whatever objects that gives. -/
theorem execute_terminates (accepted : env.registry.Accepted) (acyclic : env.SpreadsAcyclic)
    (coerced : env.ArgumentsEnd) (goesOn : ¬ env.Waits) {before : Executor σ}
    (settled : ¬ before.world.Waits) :
    (∃ inlined, Selection.Inlines env.request.fragments env.request.operation.selections inlined) ∧
    ∀ inlined, Selection.Inlines env.request.fragments env.request.operation.selections inlined →
      env.EndsWithin (Selection.depths inlined) before := by
  refine ⟨acyclic.exists_inlines, fun inlined inlines => ⟨?_, ?_, ?_⟩⟩
  · intro world object budget selections enough
    exact CollectionContext.collectWithin_eq_collect enough selections
  · rintro root found level object group ⟨selections, groups, encountered, collected, member⟩
      budget enough parent path
    obtain ⟨deep, nested, around⟩ := encountered.deepAtMost ⟨inlined, inlines, Nat.le_refl _⟩
    obtain ⟨less, rfl, within⟩ := collected.deepAtMost around group member
    have bounded := acyclic.depths_lt inlines
    have room : less < budget := by omega
    have beyond : less < env.request.depthBound := by omega
    exact executeGroup_congr (fun _ value path => executeObject_congr within room beyond value path)
      parent path
  · rcases ran : env.execute.runFrom before with ⟨why | result, after⟩
    · obtain ⟨root, found, ends⟩ := ends_of_execute accepted ran
      have waiting : before.world.Waits → env.Waits ∨ before.world.Waits := Or.inr
      obtain ⟨_, _, reason⟩ := execute_delivers found Or.inl waiting
      rw [ran] at reason
      have shallow : why ≠ .tooDeep := reason.ne_tooDeep accepted found acyclic coerced
      cases ends with
      | hung waits => exact absurd waits (not_or.mpr ⟨goesOn, settled⟩)
      | escaped origin _ _ => exact Or.inr ⟨_, _, after, rfl, origin⟩
      | arguments _ _ | fragments _ => exact absurd rfl shallow
    · have conforms := dataConforms_of_execute accepted ran
      exact Or.inl ⟨result, after, rfl, conforms.depth_le inlines⟩

/-! ## An object that holds itself -/

def imageField : Field where
  name := "image"
  type := .named "Query"
  resolver := .given 0

def imagesField : Field where
  name := "images"
  type := .list (.named "Query")
  resolver := .given 1

def mirrorQuery : ObjectType where
  name := "Query"
  fields := [imageField, imagesField]

def mirrorSchema : Schema where
  query := some (.definition (.object mirrorQuery))

def mirrorRegistry : Registry :=
  mirrorSchema.tableWithin 100

theorem accepted_mirrorRegistry : mirrorRegistry.Accepted :=
  Schema.accepted_of_soundWithin (by decide +kernel)

/-- The images of an image, and of those their name. -/
def deeperFragment : Fragment where
  name := "Deeper"
  condition := "Query"
  selections := [.field "images" none [] [] none [.field "__typename" none [] [] none []]]

/-- A query for the image of a mirror, which is the mirror, and for the images in it. Two selections
of the image come together, and so do those of its images. -/
def mirroring : Environment Unit where
  registry := mirrorRegistry
  behaviour := {
    resolve := fun handle parent _ _ =>
      match handle with
      | 0 => .finish parent
      | _ => .finish (.list [parent, parent])
    hook := fun _ value => .ok value
    convert := fun _ value => .ok value }
  request := {
    operation := {
      selections := [
        .field "image" none [] [] none [.spread "Deeper" []],
        .field "image" none [] [] none [
          .field "images" none [] [] none [.field "image" none [] [] none [.spread "Deeper" []]]]] }
    fragments := [("Deeper", deeperFragment)]
    root := .str "mirror" }

theorem spreadsAcyclic_mirroring : mirroring.SpreadsAcyclic := by
  refine ⟨fun _ => 0, fun name leads fragment defined other among => ?_⟩
  have only := List.mem_singleton.mp (Entries.mem_of_get? defined)
  cases only
  cases among

theorem argumentsEnd_mirroring : mirroring.ArgumentsEnd := by
  have flags : ∀ type ∈ mirrorRegistry.types, ∀ field ∈ type.outputFields, ∀ arg ∈ field.args,
      arg.type = .named "Boolean" := by decide +kernel
  refine argumentsEnd_of_leaves accepted_mirrorRegistry fun type listed field member arg given _ => ?_
  refine ⟨"Boolean", false, flags type listed field member arg given, fun input found => ?_⟩
  cases (accepted_mirrorRegistry.type?_scalar .boolean).symm.trans found

theorem not_waits_mirroring : ¬ mirroring.Waits := by
  rintro ⟨handle, parent, args, request, waits⟩
  match handle, waits with
  | 0, waits => cases waits
  | handle + 1, waits => cases waits

/-- An executor that serves nothing yet. -/
def mirrorExecutor : Executor Unit where
  world := { user := () }

/-- The fragment as it is written out. -/
def deeperInlined : Selection :=
  .inline (some "Query") [] deeperFragment.selections

/-- The selections of the query with the fragment written out. -/
def mirrorInlined : List Selection :=
  [.field "image" none [] [] none [deeperInlined],
    .field "image" none [] [] none [
      .field "images" none [] [] none [.field "image" none [] [] none [deeperInlined]]]]

theorem inlines_mirroring : Selection.Inlines mirroring.request.fragments
    mirroring.request.operation.selections mirrorInlined := by
  have deeper : Selection.Inlines mirroring.request.fragments deeperFragment.selections
      deeperFragment.selections := .field rfl (.field rfl .nil .nil) .nil
  have spread : Selection.Inlines mirroring.request.fragments [.spread "Deeper" []]
      [deeperInlined] := .spread rfl rfl deeper .nil
  exact .field rfl spread (.field rfl (.field rfl (.field rfl spread .nil) .nil) .nil)

/-- The mirror is seen in its image and in the images there, and so on as often as is asked for: five
fields are nested in the query with its fragment written out. -/
theorem execute_terminates_mirroring :
    mirroring.registry.Accepted ∧ mirroring.SpreadsAcyclic ∧ mirroring.ArgumentsEnd ∧
      ¬ mirroring.Waits ∧ ¬ mirrorExecutor.world.Waits ∧ Selection.depths mirrorInlined = 5 ∧
      mirroring.EndsWithin (Selection.depths mirrorInlined) mirrorExecutor := by
  have settled : ¬ mirrorExecutor.world.Waits :=
    fun ⟨_, promised, _⟩ => absurd promised List.not_mem_nil
  refine ⟨accepted_mirrorRegistry, spreadsAcyclic_mirroring, argumentsEnd_mirroring,
    not_waits_mirroring, settled, rfl, ?_⟩
  exact (execute_terminates accepted_mirrorRegistry spreadsAcyclic_mirroring argumentsEnd_mirroring
    not_waits_mirroring settled).2 mirrorInlined inlines_mirroring

end Environment

end GraphQL
