import GraphQL.Proofs.Substitution
import GraphQL.Proofs.Termination

/-!
# What a failed coercion reports

A list, an input object and the arguments of a selection are coerced component by component, and
every component is attempted. The whole fails if and only if a component does. It then reports the
leaves of all components in order, each of them once; otherwise it is put together from what the
components come to.
-/

namespace GraphQL

variable {α β : Type}

/-- The failure that a leaf is by itself. -/
def CoercionLeaf.alone (leaf : CoercionLeaf) : CoercionFailure :=
  { path := leaf.path, first := leaf }

/-- A failure shows what another failure shows. -/
structure CoercionFailure.LooksLike (failure other : CoercionFailure) : Prop where
  kind : failure.kind = other.kind
  message : failure.message = other.message
  inputPath : failure.inputPath = other.inputPath
  underlying : failure.underlying? = other.underlying?

/-- A failure with a single leaf shows that leaf, wherever it was gathered. -/
theorem CoercionFailure.looksLike_of_leaves {failure : CoercionFailure} {leaf : CoercionLeaf}
    (only : failure.leaves = [leaf]) : failure.LooksLike leaf.alone := by
  obtain ⟨path, first, others⟩ := failure
  cases only
  exact ⟨rfl, rfl, rfl, rfl⟩

namespace Coercion

/-- The leaves of the failure that a coercion ended with. -/
def leavesOf : Except CoercionStop α → List CoercionLeaf
  | .error (.failed failure) => failure.leaves
  | _ => []

/-- Whether a coercion ended for a reason that is not gathered with others, but stops all coercions
around it. -/
def isSudden : Except CoercionStop α → Bool
  | .ok _ | .error (.failed _) => false
  | .error _ => true

/-- The whole, coerced at a path, attempts its components in order and reports what they fail
with. -/
structure Reports (components : List (Except CoercionStop α)) (path : Path)
    (assemble : List α → β) (whole : Except CoercionStop β) : Prop where
  /-- The whole fails if and only if a component does. -/
  fails_iff : (∃ why, whole = .error why) ↔ ∃ why, .error why ∈ components
  /-- What is not gathered stops the whole where it is met first. -/
  stops_iff : ∀ why, isSudden whole = true ∧ whole = .error why ↔
    components.find? isSudden = some (.error why)
  /-- The leaves of the whole are those of the components, in order and as often as there. -/
  leaves : ∀ failure, whole = .error (.failed failure) →
    failure.leaves = components.flatMap leavesOf
  /-- There is a leaf, and each leaf is its own only leaf. -/
  single : ∀ failure, whole = .error (.failed failure) →
    failure.leaves ≠ [] ∧ ∀ leaf ∈ failure.leaves, leaf.alone.leaves = [leaf]
  /-- A single leaf stands for the failure; other failures are those of the whole. -/
  place : ∀ failure, whole = .error (.failed failure) →
    (∃ leaf, failure.leaves = [leaf] ∧ failure.LooksLike leaf.alone) ∨ failure.inputPath = path
  /-- Where no component fails, the whole is put together from their values. -/
  assembled_iff : ∀ result, whole = .ok result ↔
    ∃ values, components = values.map .ok ∧ result = assemble values

theorem outcome_map (change : α → β) (part : Coercion α) :
    (change <$> part).outcome = part.outcome.map change := by
  have steps : change <$> part = part >>= fun value => pure (change value) := rfl
  rw [steps, outcome_bind]
  cases part.outcome <;> rfl

theorem leavesOf_map (change : α → β) (outcome : Except CoercionStop α) :
    leavesOf (outcome.map change) = leavesOf outcome := by
  rcases outcome with (_ | _ | _ | _) | _ <;> rfl

theorem isSudden_map (change : α → β) (outcome : Except CoercionStop α) :
    isSudden (outcome.map change) = isSudden outcome := by
  rcases outcome with (_ | _ | _ | _) | _ <;> rfl

/-- What components come to together: the first sudden end, or else their values and leaves. -/
def attempted (components : List (Except CoercionStop α)) :
    Except CoercionStop (List α × List CoercionLeaf) :=
  match components.find? isSudden with
  | some (.error why) => .error why
  | _ => .ok (components.filterMap Except.toOption, components.flatMap leavesOf)

theorem attempted_ok (value : α) (rest : List (Except CoercionStop α)) :
    attempted (.ok value :: rest) =
      (attempted rest).map fun gathered => (value :: gathered.1, gathered.2) := by
  unfold attempted
  rw [List.find?_cons]
  rcases rest.find? isSudden with _ | _ | _ <;> rfl

theorem attempted_failed (failure : CoercionFailure) (rest : List (Except CoercionStop α)) :
    attempted (.error (.failed failure) :: rest) =
      (attempted rest).map fun gathered => (gathered.1, failure.leaves ++ gathered.2) := by
  unfold attempted
  rw [List.find?_cons]
  rcases rest.find? isSudden with _ | _ | _ <;> rfl

theorem outcome_attemptAll (parts : List (Coercion α)) :
    (attemptAll parts).outcome = attempted (parts.map outcome) := by
  induction parts with
  | nil => rfl
  | cons part rest ih =>
    rcases part with ⟨(failure | name | fault | _) | value, ignored⟩
    · rw [List.map_cons, attempted_failed, ← ih, attemptAll]
      simp only [outcome_bind]
      rfl
    · rfl
    · rfl
    · rfl
    · rw [List.map_cons, attempted_ok, ← ih, attemptAll]
      simp only [outcome_bind]
      rfl

/-- Without a leaf and without anything sudden there are only values. -/
theorem eq_map_ok_of_leavesOf {components : List (Except CoercionStop α)}
    (calm : components.find? isSudden = none) (sound : components.flatMap leavesOf = []) :
    components = (components.filterMap Except.toOption).map .ok := by
  induction components with
  | nil => rfl
  | cons component rest ih =>
    rw [List.find?_cons] at calm
    rw [List.flatMap_cons, List.append_eq_nil_iff] at sound
    rcases component with (failure | _ | _ | _) | value
    · cases sound.1
    · cases calm
    · cases calm
    · cases calm
    · exact congrArg (Except.ok value :: ·) (ih calm sound.2)

/-- What components are made into are values only if they are values themselves. -/
theorem exists_of_map_eq_ok {components : List (Except CoercionStop α)} {change : α → β}
    {values : List β} (split : components.map (Except.map change) = values.map .ok) :
    ∃ originals : List α, components = originals.map .ok ∧ values = originals.map change := by
  induction components generalizing values with
  | nil => exact ⟨[], rfl, List.map_eq_nil_iff.mp split.symm⟩
  | cons component rest ih =>
    cases values with
    | nil => cases split
    | cons value values =>
      obtain ⟨here, later⟩ := List.cons_eq_cons.mp split
      obtain ⟨originals, rfl, rfl⟩ := ih later
      cases component with
      | error why => cases here
      | ok original =>
        cases here
        exact ⟨original :: originals, rfl, rfl⟩

namespace Reports

variable {components : List (Except CoercionStop α)} {path : Path} {assemble : List α → β}
  {whole : Except CoercionStop β}

/-- Values alone are put together. -/
protected theorem ok (path : Path) (assemble : List α → β) (values : List α) :
    Reports (values.map .ok) path assemble (.ok (assemble values)) := by
  have calm : (values.map Except.ok : List (Except CoercionStop α)).find? isSudden = none := by
    rw [List.find?_map, Option.map_eq_none_iff]
    exact List.find?_eq_none.mpr fun _ _ => nofun
  refine ⟨⟨nofun, ?_⟩, fun why => ⟨nofun, ?_⟩, fun _ => nofun, fun _ => nofun, fun _ => nofun, ?_⟩
  · rintro ⟨why, among⟩
    obtain ⟨_, _, same⟩ := List.mem_map.mp among
    cases same
  · rw [calm]
    exact nofun
  · intro result
    have injective : Function.Injective (Except.ok : α → Except CoercionStop α) :=
      fun _ _ => Except.ok.inj
    constructor
    · intro same
      exact ⟨values, rfl, (Except.ok.inj same).symm⟩
    · rintro ⟨others, same, rfl⟩
      rw [List.map_injective_iff.mpr injective same]

/-- The first sudden end of a component is that of the whole. -/
protected theorem sudden {why : CoercionStop}
    (stopped : components.find? isSudden = some (.error why)) :
    Reports components path assemble (.error why : Except CoercionStop β) := by
  have among := List.mem_of_find?_eq_some stopped
  have sudden : isSudden (.error why : Except CoercionStop β) = true := by
    have there := List.find?_some stopped
    cases why <;> first | rfl | cases there
  have other : ∀ failure, (.error why : Except CoercionStop β) ≠ .error (.failed failure) := by
    intro failure same
    cases same
    cases sudden
  refine ⟨⟨fun _ => ⟨why, among⟩, fun _ => ⟨why, rfl⟩⟩, fun _ => ?_,
    fun failure same => absurd same (other failure),
    fun failure same => absurd same (other failure),
    fun failure same => absurd same (other failure), fun result => ⟨fun same => ?_, ?_⟩⟩
  · rw [stopped]
    constructor
    · rintro ⟨_, same⟩
      cases same
      rfl
    · intro same
      cases same
      exact ⟨sudden, rfl⟩
  · cases same
  · rintro ⟨values, rfl, _⟩
    obtain ⟨_, _, same⟩ := List.mem_map.mp among
    cases same

/-- Leaves of components make up a failure, unless something sudden happens. -/
protected theorem failed {first : CoercionLeaf} {others : List CoercionLeaf}
    (calm : components.find? isSudden = none)
    (leaves : components.flatMap leavesOf = first :: others) :
    Reports components path assemble
      (.error (.failed { path, first, others }) : Except CoercionStop β) := by
  refine ⟨⟨fun _ => ?_, fun _ => ⟨_, rfl⟩⟩, fun why => ?_, ?_, ?_, ?_, fun result => ⟨nofun, ?_⟩⟩
  · have here : first ∈ components.flatMap leavesOf := by
      rw [leaves]
      exact List.mem_cons_self
    obtain ⟨component, among, reported⟩ := List.mem_flatMap.mp here
    cases component with
    | ok value => cases reported
    | error why => exact ⟨why, among⟩
  · rw [calm]
    exact ⟨fun stopped => (Bool.false_ne_true stopped.1).elim, nofun⟩
  · rintro _ ⟨⟩
    exact leaves.symm
  · rintro _ ⟨⟩
    exact ⟨List.cons_ne_nil _ _, fun _ _ => rfl⟩
  · rintro _ ⟨⟩
    cases others with
    | nil => exact Or.inl ⟨first, rfl, CoercionFailure.looksLike_of_leaves rfl⟩
    | cons => exact Or.inr rfl
  · rintro ⟨values, rfl, _⟩
    have none : (values.map Except.ok).flatMap leavesOf = [] := by
      rw [List.flatMap_map, List.flatMap_eq_nil_iff]
      exact fun _ _ => rfl
    rw [none] at leaves
    cases leaves

/-- What is made of the whole is made of what it is put together to. -/
protected theorem map {γ : Type} (change : β → γ)
    (reports : Reports components path assemble whole) :
    Reports components path (fun values => change (assemble values)) (whole.map change) := by
  have same : ∀ why, whole.map change = .error why ↔ whole = .error why := by
    intro why
    cases whole <;> simp [Except.map]
  refine ⟨?_, fun why => ?_, ?_, ?_, ?_, fun result => ?_⟩
  · simpa only [same] using reports.fails_iff
  · rw [isSudden_map, same]
    exact reports.stops_iff why
  · simpa only [same] using reports.leaves
  · simpa only [same] using reports.single
  · simpa only [same] using reports.place
  · constructor
    · intro made
      cases ended : whole with
      | error why =>
        rw [ended] at made
        cases made
      | ok value =>
        rw [ended] at made
        cases made
        obtain ⟨values, split, rfl⟩ := (reports.assembled_iff value).mp ended
        exact ⟨values, split, rfl⟩
    · rintro ⟨values, split, rfl⟩
      rw [(reports.assembled_iff _).mpr ⟨values, split, rfl⟩]
      rfl

/-- What is made of each component is made of it where the whole is put together. -/
protected theorem of_map {γ : Type} {components : List (Except CoercionStop γ)} {change : γ → α}
    (reports : Reports (components.map (Except.map change)) path assemble whole) :
    Reports components path (fun values => assemble (values.map change)) whole := by
  have errors : ∀ why, .error why ∈ components.map (Except.map change) ↔
      .error why ∈ components := by
    intro why
    rw [List.mem_map]
    constructor
    · rintro ⟨component, among, same⟩
      cases component with
      | ok value => cases same
      | error other =>
        cases same
        exact among
    · intro among
      exact ⟨_, among, rfl⟩
  refine ⟨?_, fun why => ?_, fun failure failed => ?_, reports.single, reports.place,
    fun result => ?_⟩
  · simpa only [errors] using reports.fails_iff
  · have first : (components.map (Except.map change)).find? isSudden = some (.error why) ↔
        components.find? isSudden = some (.error why) := by
      have sudden : isSudden ∘ Except.map change = isSudden := funext (isSudden_map change)
      rw [List.find?_map, sudden]
      cases components.find? isSudden with
      | none => simp
      | some component => cases component <;> simp [Except.map]
    rw [reports.stops_iff, first]
  · rw [reports.leaves failure failed, List.flatMap_map]
    exact List.flatMap_congr fun component _ => leavesOf_map change component
  · rw [reports.assembled_iff]
    constructor
    · rintro ⟨values, split, rfl⟩
      obtain ⟨originals, rfl, rfl⟩ := exists_of_map_eq_ok split
      exact ⟨originals, rfl, rfl⟩
    · rintro ⟨values, rfl, rfl⟩
      exact ⟨values.map change, by simp [Except.map], rfl⟩

end Reports

theorem reports_gather (path : Path) (parts : List (Coercion α)) :
    Reports (parts.map outcome) path id (gather path parts).outcome := by
  rw [gather_eq, outcome_bind, outcome_attemptAll, attempted]
  generalize parts.map outcome = components
  cases stopped : components.find? isSudden with
  | some sudden =>
    cases sudden with
    | ok value => cases List.find?_some stopped
    | error why => exact .sudden stopped
  | none =>
    show Reports components path id (unlessFailed path (_, _)).outcome
    cases leaves : components.flatMap leavesOf with
    | cons first others => exact .failed stopped leaves
    | nil =>
      have whole := Reports.ok path id (components.filterMap Except.toOption)
      rwa [← eq_map_ok_of_leavesOf stopped leaves] at whole

end Coercion

namespace CoercionContext

open Coercion (Reports leavesOf)

variable {context : CoercionContext}

/-- A coercion that does not meet the bound on its depth coerces its parts within the same bound. -/
theorem coerce_eq_coerceWith {depth : Nat} {ref : TypeRef} {raw : Value} {path : Path}
    (ends : Coercion.Avoids .tooDeep (context.coerce depth ref raw path)) :
    context.coerce depth ref raw path =
      context.coerceWith (context.coerce depth) ref raw path := by
  cases depth with
  | zero => exact absurd rfl ends
  | succ depth =>
    have deeper : ∀ ref raw path, Coercion.Deepens (context.coerce depth ref raw path)
        (context.coerce (depth + 1) ref raw path) := coerce_deeper (Nat.le_succ depth)
    exact (deepens_coerceWith deeper ref raw path ends).symm

section Members

variable (context : CoercionContext) (depth : Nat)

/-- Nothing comes of what is given for a member: nothing is given, or a variable that was not
supplied, or what is given is coerced to nothing. -/
def ComesToNothing (arg : Argument) (given : Option Value) (path : Path) : Prop :=
  ∀ raw, given = some raw → raw.isUndefined = false → context.isUnsupplied raw = false →
    (context.coerce depth arg.type raw path).outcome = .ok .undefined

/-- What a member by itself comes to: what is given for it counts, or else its default; a member that
is required has a leaf where it is missing. -/
inductive MemberComes (arg : Argument) (given : Option Value) (path : Path)
    (missing : CoercionLeaf) : Except CoercionStop (Option (String × Value)) → Prop where
  | supplied {raw value : Value} :
      given = some raw → raw.isUndefined = false → context.isUnsupplied raw = false →
      (context.coerce depth arg.type raw path).outcome = .ok value → value.isUndefined = false →
      MemberComes arg given path missing (.ok (some (arg.key, value)))
  | refused {raw : Value} {why : CoercionStop} :
      given = some raw → raw.isUndefined = false → context.isUnsupplied raw = false →
      (context.coerce depth arg.type raw path).outcome = .error why →
      MemberComes arg given path missing (.error why)
  | defaulted :
      context.ComesToNothing depth arg given path → arg.hasDefault = true →
      MemberComes arg given path missing
        ((context.coerce depth arg.type arg.default path).outcome.map
          fun value => some (arg.key, value))
  | required :
      context.ComesToNothing depth arg given path → arg.hasDefault = false →
      arg.type.isNonNull = true →
      MemberComes arg given path missing (.error (.failed missing.alone))
  | omitted :
      context.ComesToNothing depth arg given path → arg.hasDefault = false →
      arg.type.isNonNull = false → MemberComes arg given path missing (.ok none)

/-- What a key that an input object does not declare comes to by itself. -/
def undeclaredComes (type : InputType) (path : Path) (key : String) :
    Except CoercionStop (Option (String × Value)) :=
  match context.policy with
  | .reject => .error (.failed (CoercionLeaf.alone ⟨.unknownField type.name key, path⟩))
  | .ignore => .ok none

/-- The leaf of an argument that is required and missing: it names the variable that was not
supplied for the argument, if there is one. -/
def missingArgument (arg : Argument) : Option Value → CoercionLeaf
  | some (.var name) =>
    if context.isUnsupplied (.var name) then ⟨.missingVariable name arg.type, []⟩
    else ⟨.missingArgument arg.name arg.type, [.key arg.name]⟩
  | _ => ⟨.missingArgument arg.name arg.type, [.key arg.name]⟩

/-- What the items that a raw value gives to a list come to. -/
def itemsCome (item : TypeRef) (raw : Value) (path : Path) : List (Except CoercionStop Value) :=
  (items raw).mapIdx fun index part =>
    (context.coerce depth item part (path ++ [.index index])).outcome

/-- What the components of an input object come to: the declared fields in the order of
declaration, then the other keys in the order of the mapping. -/
def FieldsCome (type : InputType) (entries : Entries Value) (path : Path)
    (components : List (Except CoercionStop (Option (String × Value)))) : Prop :=
  ∃ declared, List.Forall₂ (fun field => context.MemberComes depth field
      (Entries.get? entries field.name) (path ++ [.key field.name])
      ⟨.missingField type.name field.name field.type, path⟩) type.fields declared ∧
    components = declared ++ ((Entries.keys entries).filter fun key =>
      key ∉ type.fields.map (·.name)).map (context.undeclaredComes type path)

/-- What declared arguments come to. -/
def ArgumentsCome (args : List Argument) (literals : Entries Value) :
    List (Except CoercionStop (Option (String × Value))) → Prop :=
  List.Forall₂ (fun arg => context.MemberComes depth arg (Entries.get? literals arg.name)
    [.key arg.name] (context.missingArgument arg (Entries.get? literals arg.name))) args

end Members

/-- What is given for a member, and what it comes to by itself, leave no choice. -/
theorem MemberComes.unique {depth : Nat} {arg : Argument} {given : Option Value} {path : Path}
    {missing : CoercionLeaf} {one other : Except CoercionStop (Option (String × Value))}
    (first : context.MemberComes depth arg given path missing one)
    (second : context.MemberComes depth arg given path missing other) : one = other := by
  cases first <;> cases second <;> simp_all [ComesToNothing, Value.isUndefined]

/-- The values of members under their keys. -/
def membersOf (parts : List (Option (String × Value))) : Entries Value :=
  Entries.ofList (parts.filterMap id)

variable {depth : Nat}

theorem memberComes_absent {arg : Argument} {given : Option Value} {path : Path}
    {leaf : CoercionLeaf} {missing : Coercion (Option (String × Value))}
    (nothing : context.ComesToNothing depth arg given path)
    (missed : arg.hasDefault = false → arg.type.isNonNull = true →
      missing.outcome = .error (.failed leaf.alone)) :
    context.MemberComes depth arg given path leaf
      (absent (context.coerce depth) arg path missing).outcome := by
  unfold absent
  split
  · next has =>
    rw [Coercion.outcome_map]
    exact .defaulted nothing has
  · next has =>
    split
    · next required =>
      rw [missed (eq_false_of_ne_true has) required]
      exact .required nothing (eq_false_of_ne_true has) required
    · next nullable => exact .omitted nothing (eq_false_of_ne_true has) (eq_false_of_ne_true nullable)

/-- What is given for a member, where variables that were not supplied count as nothing. -/
def givenRaw (context : CoercionContext) (given : Option Value) : Value :=
  if context.isUnsupplied (given.getD .undefined) then .undefined else given.getD .undefined

theorem memberComes_member {arg : Argument} {given : Option Value} {path : Path}
    {leaf : CoercionLeaf} {missing : Coercion (Option (String × Value))}
    (missed : arg.hasDefault = false → arg.type.isNonNull = true →
      missing.outcome = .error (.failed leaf.alone)) :
    context.MemberComes depth arg given path leaf
      (member (context.coerce depth) arg (context.givenRaw given) path missing).outcome := by
  unfold member
  split
  · next omitted =>
    apply memberComes_absent _ missed
    rintro raw rfl something supplied
    rw [givenRaw, Option.getD_some, supplied, if_neg Bool.false_ne_true, something] at omitted
    cases omitted
  · next something =>
    obtain ⟨raw, rfl, supplied, same⟩ : ∃ raw, given = some raw ∧
        context.isUnsupplied raw = false ∧ context.givenRaw given = raw := by
      unfold givenRaw at something ⊢
      split at something
      · exact absurd rfl something
      · next supplied =>
        cases given with
        | none => exact absurd rfl something
        | some raw => exact ⟨raw, rfl, eq_false_of_ne_true supplied, if_neg supplied⟩
    rw [same] at something ⊢
    replace something := eq_false_of_ne_true something
    cases coerced : (context.coerce depth arg.type raw path).outcome with
    | error why =>
      rw [Coercion.outcome_bind, coerced]
      exact .refused rfl something supplied coerced
    | ok value =>
      rw [Coercion.outcome_bind, coerced, Except.bind]
      split
      · next nothing =>
        apply memberComes_absent _ missed
        rintro _ ⟨⟩ _ _
        rw [coerced]
        cases value with
        | undefined => rfl
        | _ => cases nothing
      · next present =>
        exact .supplied rfl something supplied coerced (eq_false_of_ne_true present)

theorem memberComes_fieldPart (type : InputType) (entries : Entries Value) (path : Path)
    (field : Argument) :
    context.MemberComes depth field (Entries.get? entries field.name) (path ++ [.key field.name])
      ⟨.missingField type.name field.name field.type, path⟩
      (context.fieldPart (context.coerce depth) type entries path field).outcome :=
  memberComes_member fun _ _ => rfl

theorem memberComes_argumentPart (literals : Entries Value) (arg : Argument) :
    context.MemberComes depth arg (Entries.get? literals arg.name) [.key arg.name]
      (context.missingArgument arg (Entries.get? literals arg.name))
      (context.argumentPart depth literals arg).outcome := by
  unfold argumentPart
  cases Entries.get? literals arg.name with
  | none => exact memberComes_member fun _ _ => rfl
  | some raw =>
    cases raw with
    | var name =>
      dsimp only
      rw [missingArgument]
      split
      · next unsupplied =>
        have absent : context.givenRaw (some (.var name)) = .undefined := if_pos unsupplied
        split
        · next required =>
          rw [Bool.and_eq_true, Bool.not_eq_true'] at required
          refine .required ?_ required.1 required.2
          rintro _ ⟨⟩ _ supplied
          rw [unsupplied] at supplied
          cases supplied
        · next spared =>
          rw [← absent]
          refine memberComes_member fun has required => absurd ?_ spared
          rw [has, required]
          rfl
      · next supplied =>
        have present : context.givenRaw (some (.var name)) = .var name := if_neg supplied
        nth_rewrite 2 [← present]
        exact memberComes_member fun _ _ => rfl
    | _ => exact memberComes_member fun _ _ => rfl

theorem unknownKeys_eq (type : InputType) (entries : Entries Value) :
    unknownKeys type entries =
      (Entries.keys entries).filter fun key => key ∉ type.fields.map (·.name) := by
  refine List.filter_congr fun key _ => ?_
  rw [Bool.eq_iff_iff, Option.isNone_iff_eq_none, Member.find?, List.find?_eq_none,
    decide_eq_true_iff, List.mem_map]
  exact ⟨fun other ⟨field, among, same⟩ => other field among (beq_iff_eq.mpr same),
    fun other field among same => other ⟨field, among, beq_iff_eq.mp same⟩⟩

theorem itemParts_come (item : TypeRef) (raw : Value) (path : Path) :
    (itemParts (context.coerce depth) item path (items raw)).map Coercion.outcome =
      (context.itemsCome depth item raw path).map (Except.map itemValue) := by
  refine List.ext_getElem (by simp [itemParts, itemsCome]) fun index _ _ => ?_
  simp only [itemParts, itemsCome, List.getElem_map, List.getElem_mapIdx, Coercion.outcome_map]

theorem fieldParts_come (type : InputType) (entries : Entries Value) (path : Path) :
    context.FieldsCome depth type entries path
      ((type.fields.map (context.fieldPart (context.coerce depth) type entries path) ++
        (unknownKeys type entries).map (context.unknownPart type path)).map Coercion.outcome) := by
  refine ⟨type.fields.map fun field =>
    (context.fieldPart (context.coerce depth) type entries path field).outcome, ?_, ?_⟩
  · rw [List.forall₂_map_right_iff, List.forall₂_same]
    exact fun field _ => memberComes_fieldPart type entries path field
  · rw [List.map_append, List.map_map, List.map_map, unknownKeys_eq]
    congr 1
    refine List.map_congr_left fun key _ => ?_
    unfold undeclaredComes
    rw [Function.comp_apply, unknownPart]
    cases context.policy <;> rfl

theorem argumentParts_come (args : List Argument) (literals : Entries Value) :
    context.ArgumentsCome depth args literals
      ((args.map (context.argumentPart depth literals)).map Coercion.outcome) := by
  rw [ArgumentsCome, List.map_map, List.forall₂_map_right_iff, List.forall₂_same]
  exact fun arg _ => memberComes_argumentPart literals arg

/-- A list, an input object and the arguments of a selection report what their components by
themselves fail with. -/
theorem coerce_reports_components (context : CoercionContext) (depth : Nat) (path : Path) :
    (∀ item nonNull raw, raw.isVariable = false → raw.isNull = false →
      Coercion.Avoids .tooDeep (context.coerce depth (.list item nonNull) raw path) →
      Reports (context.itemsCome depth item raw path) path
        (fun values => .list (values.map itemValue))
        (context.coerce depth (.list item nonNull) raw path).outcome) ∧
    (∀ name nonNull type raw entries, context.registry.type? name = some (.input type) →
      raw.isVariable = false → raw.isNull = false → context.settle raw = .map entries →
      Coercion.Avoids .tooDeep (context.coerce depth (.named name nonNull) raw path) →
      ∃ components, context.FieldsCome depth type entries path components ∧
        Reports components path (fun values => .map (membersOf values))
          (context.coerce depth (.named name nonNull) raw path).outcome) ∧
    ∀ args literals, ∃ components, context.ArgumentsCome depth args literals components ∧
      Reports components [] membersOf (context.coerceArguments depth args literals).outcome := by
  have given : ∀ raw : Value, raw.isNull = false → raw ≠ .null := by
    rintro raw something rfl
    cases something
  refine ⟨?_, ?_, ?_⟩
  · intro item nonNull raw constant something ends
    have gathered := Coercion.reports_gather path
      (itemParts (context.coerce depth) item path (items raw))
    rw [itemParts_come] at gathered
    rw [coerce_eq_coerceWith ends,
      coerceWith_inside constant (given raw something) fun _ => something, coerceInside,
      Coercion.outcome_map]
    exact gathered.of_map.map Value.list
  · intro name nonNull type raw entries found constant something shown ends
    have gathered := Coercion.reports_gather path
      (type.fields.map (context.fieldPart (context.coerce depth) type entries path) ++
        (unknownKeys type entries).map (context.unknownPart type path))
    have whole : context.coerce depth (.named name nonNull) raw path =
        (fun parts => .map (membersOf parts)) <$> Coercion.gather path
          (type.fields.map (context.fieldPart (context.coerce depth) type entries path) ++
            (unknownKeys type entries).map (context.unknownPart type path)) := by
      rw [coerce_eq_coerceWith ends,
        coerceWith_inside constant (given raw something) fun _ => something, coerceInside,
        parseNamed, found, shown]
      rfl
    rw [whole, Coercion.outcome_map]
    exact ⟨_, fieldParts_come type entries path, gathered.map fun parts => Value.map (membersOf parts)⟩
  · intro args literals
    have gathered := Coercion.reports_gather [] (args.map (context.argumentPart depth literals))
    have whole : context.coerceArguments depth args literals =
        membersOf <$> Coercion.gather [] (args.map (context.argumentPart depth literals)) := rfl
    rw [whole, Coercion.outcome_map]
    exact ⟨_, argumentParts_come args literals, gathered.map membersOf⟩

/-- A limit of pages with keys that are not declared. -/
def rawLimit : Value :=
  .map [("count", .int 2), ("page", .null), ("size", .null)]

/-- Limits of pages, one of which is null. -/
def rawLimits : Value :=
  .list [.null, rawLimit, .map []]

/-- The failures of such a list are those of its items, and its second item fails for the keys that
are not declared. -/
theorem coerce_reports_components_limits :
    ∃ failure inner,
      (pageContext.coerce 8 (.list (.named "Limit" true)) rawLimits []).outcome =
        .error (.failed failure) ∧
      (pageContext.coerce 8 (.named "Limit" true) rawLimit [.index 1]).outcome =
        .error (.failed inner) ∧
      failure.leaves = ⟨.unexpectedNull (.named "Limit" true), [.index 0]⟩ :: inner.leaves ∧
      inner.leaves ≠ [] ∧
      inner.leaves = [⟨.unknownField "Limit" "page", [.index 1]⟩,
        ⟨.unknownField "Limit" "size", [.index 1]⟩] := by
  have list := (coerce_reports_components pageContext 8 []).1
    (.named "Limit" true) false rawLimits rfl rfl nofun
  obtain ⟨_, _, object⟩ := (coerce_reports_components pageContext 8 [.index 1]).2.1
    "Limit" true limitInput rawLimit _ rfl rfl rfl rfl nofun
  exact ⟨_, _, rfl, rfl, list.leaves _ rfl, (object.single _ rfl).1, rfl⟩

end CoercionContext

end GraphQL
