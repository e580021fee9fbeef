import GraphQL.Coercion
import GraphQL.Proofs.Accepted

/-!
# Reasons to stop

What stops a coercion at once stops a part of it, or else it is a name that is not registered. In an
accepted registry the fields of input objects are of registered types, so that a coercion to a
registered type never comes to such a name.
-/

namespace GraphQL

variable {α β : Type}

namespace Coercion

/-- A coercion does not stop for a reason. -/
def Avoids (why : CoercionStop) (part : Coercion α) : Prop :=
  part.outcome ≠ .error why

namespace Avoids

variable {why : CoercionStop}

protected theorem pure (value : α) : Avoids why (pure value) :=
  nofun

theorem stop {other : CoercionStop} (differs : other ≠ why) :
    Avoids why (.stop other : Coercion α) := by
  intro same
  exact differs (Except.error.inj same)

theorem fail (sudden : ∀ failure, .failed failure ≠ why) (cause : CoercionCause) (path : Path) :
    Avoids why (.fail cause path : Coercion α) :=
  stop (sudden _)

protected theorem bind {part : Coercion α} {next : α → Coercion β} (first : Avoids why part)
    (following : ∀ value, part.outcome = .ok value → Avoids why (next value)) :
    Avoids why (part >>= next) := by
  unfold Avoids at *
  rw [outcome_bind]
  cases stopped : part.outcome with
  | ok value => exact following value stopped
  | error other =>
    intro same
    cases same
    exact first stopped

protected theorem map {part : Coercion α} (change : α → β) (avoids : Avoids why part) :
    Avoids why (change <$> part) :=
  avoids.bind fun value _ => .pure (change value)

theorem of_bind {part : Coercion α} {next : α → Coercion β} (avoids : Avoids why (part >>= next)) :
    Avoids why part := by
  intro stopped
  unfold Avoids at avoids
  rw [outcome_bind, stopped] at avoids
  exact avoids rfl

/-- Parts that are attempted in turn stop for no other reasons than they do alone. -/
theorem attemptAll {parts : List (Coercion α)} (each : ∀ part ∈ parts, Avoids why part) :
    Avoids why (Coercion.attemptAll parts) := by
  induction parts with
  | nil => exact .pure _
  | cons part rest ih =>
    have others := ih fun other member => each other (List.mem_cons_of_mem _ member)
    have noted : Avoids why (⟨.ok (), part.ignored⟩ : Coercion Unit) := nofun
    unfold Coercion.attemptAll
    split
    · exact (noted.bind fun _ _ => others).bind fun _ _ => .pure _
    · exact (noted.bind fun _ _ => others).bind fun _ _ => .pure _
    · next stop _ stopped =>
      intro same
      cases same
      exact each part List.mem_cons_self stopped

theorem gather (sudden : ∀ failure, .failed failure ≠ why) {parts : List (Coercion α)}
    (each : ∀ part ∈ parts, Avoids why part) (path : Path) :
    Avoids why (Coercion.gather path parts) := by
  apply (attemptAll each).bind
  intro gathered _
  obtain ⟨values, leaves⟩ := gathered
  cases leaves with
  | nil => exact .pure values
  | cons first others => exact .stop (sudden _)

end Avoids

/-- A coercion does not stop at a name that is not registered. -/
def KnowsTypes (part : Coercion α) : Prop :=
  ∀ name, Avoids (.unknownType name) part

end Coercion

namespace CoercionContext

open Coercion (Avoids KnowsTypes)

variable {context : CoercionContext} {recur : TypeRef → Value → Path → Coercion Value}
  {why : CoercionStop}

/-- A reference leads to a registered type. -/
def Leads (context : CoercionContext) (ref : TypeRef) : Prop :=
  (context.registry.type? ref.name).isSome = true

/-- The coercions that a member may come to do not stop for a reason: that of the raw value, if one
was supplied, and that of the default where nothing came of the raw value. -/
structure MemberAvoids (recur : TypeRef → Value → Path → Coercion Value) (why : CoercionStop)
    (arg : Argument) (raw : Value) (path : Path) : Prop where
  supplied : raw.isUndefined = false → Avoids why (recur arg.type raw path)
  default : arg.hasDefault = true →
    raw.isUndefined = true ∨ (recur arg.type raw path).outcome = .ok .undefined →
    Avoids why (recur arg.type arg.default path)

theorem avoids_absent {arg : Argument} {path : Path} {missing : Coercion (Option (String × Value))}
    (default : arg.hasDefault = true → Avoids why (recur arg.type arg.default path))
    (missed : Avoids why missing) : Avoids why (absent recur arg path missing) := by
  unfold absent
  split
  · next has => exact .map _ (default has)
  · split
    · exact missed
    · exact .pure none

theorem avoids_member {arg : Argument} {raw : Value} {path : Path}
    {missing : Coercion (Option (String × Value))} (parts : MemberAvoids recur why arg raw path)
    (missed : Avoids why missing) : Avoids why (member recur arg raw path missing) := by
  unfold member
  split
  · next omitted => exact avoids_absent (fun has => parts.default has (Or.inl omitted)) missed
  · next given =>
    apply (parts.supplied (eq_false_of_ne_true given)).bind
    intro value coerced
    split
    · next nothing =>
      have undefined : value = .undefined := by
        cases value with
        | undefined => rfl
        | _ => cases nothing
      rw [undefined] at coerced
      exact avoids_absent (fun has => parts.default has (Or.inr coerced)) missed
    · exact .pure _

/-- What stops a coercion at once, unless user code does in a parse function. -/
structure Spares (context : CoercionContext) (why : CoercionStop) : Prop where
  sudden : ∀ failure, .failed failure ≠ why
  scalars : ∀ type raw path, Avoids why (context.parseScalar type raw path)

/-- Parse functions are interrupted, but nothing else stops them at once. -/
theorem spares_of_not_interrupted (sudden : ∀ failure, .failed failure ≠ why)
    (calm : ∀ fault, .interrupted fault ≠ why) : context.Spares why where
  sudden := sudden
  scalars := by
    intro type raw path
    unfold parseScalar
    split
    · exact .pure _
    · split
      · exact .stop (calm _)
      · exact .fail sudden _ _

theorem spares_unknownType (name : String) : context.Spares (.unknownType name) :=
  spares_of_not_interrupted (fun _ => nofun) (fun _ => nofun)

theorem spares_tooDeep : context.Spares .tooDeep :=
  spares_of_not_interrupted (fun _ => nofun) (fun _ => nofun)

/-- The coercion of what a supplied raw value stands for, if that is not null. -/
def coerceInside (context : CoercionContext) (recur : TypeRef → Value → Path → Coercion Value) :
    TypeRef → Value → Path → Coercion Value
  | .list item _, shown, path =>
    .list <$> Coercion.gather path (itemParts recur item path (items shown))
  | .named name _, shown, path => context.parseNamed recur name shown path

theorem coerceNullable_of_supplied {ref : TypeRef} {raw : Value} {path : Path}
    (supplied : context.isUnsupplied raw = false) (given : context.substitute raw ≠ .null) :
    context.coerceNullable recur ref raw path =
      context.coerceInside recur ref (context.substitute raw) path := by
  unfold coerceNullable
  rw [supplied, if_neg Bool.false_ne_true]
  split
  · next null => exact absurd null given
  · rfl
  · rfl

section Spares

variable (spares : context.Spares why)

include spares

theorem avoids_parseSymbol (type : EnumType) (raw : Value) (path : Path) :
    Avoids why (parseSymbol type raw path) := by
  unfold parseSymbol
  split
  · exact .pure _
  · exact .fail spares.sudden _ _

theorem avoids_unknownPart (type : InputType) (path : Path) (key : String) :
    Avoids why (context.unknownPart type path key) := by
  unfold unknownPart
  split
  · exact .fail spares.sudden _ _
  · have noted : Avoids why (Coercion.ignore ⟨key, type.name⟩) := nofun
    exact noted.bind fun _ _ => .pure none

/-- The parts of an input object avoid what its members avoid. -/
theorem avoids_objectParts (path : Path) {type : InputType} {entries : Entries Value}
    (parts : ∀ field ∈ type.fields, ∀ path,
      MemberAvoids recur why field (context.rawField entries field) path) :
    ∀ part ∈ type.fields.map (context.fieldPart recur type entries path) ++
      (unknownKeys type entries).map (context.unknownPart type path), Avoids why part := by
  intro part given
  rcases List.mem_append.mp given with declared | other
  · obtain ⟨field, among, rfl⟩ := List.mem_map.mp declared
    exact avoids_member (parts field among _) (.fail spares.sudden _ _)
  · obtain ⟨key, _, rfl⟩ := List.mem_map.mp other
    exact avoids_unknownPart spares type path key

theorem avoids_parseObject {type : InputType} {raw : Value} {path : Path}
    (parts : ∀ entries, raw = .map entries → ∀ field ∈ type.fields, ∀ path,
      MemberAvoids recur why field (context.rawField entries field) path) :
    Avoids why (context.parseObject recur type raw path) := by
  unfold parseObject
  split
  · next entries =>
    have each := avoids_objectParts spares path (parts entries rfl)
    exact (Avoids.gather spares.sudden each path).bind fun _ _ => .pure _
  · exact .fail spares.sudden _ _

theorem avoids_parseNamed {name : String} {raw : Value} {path : Path}
    (known : why = .unknownType name → (context.registry.type? name).isSome = true)
    (parts : ∀ type entries, context.registry.type? name = some (.input type) →
      context.settle raw = .map entries → ∀ field ∈ type.fields, ∀ path,
      MemberAvoids recur why field (context.rawField entries field) path) :
    Avoids why (context.parseNamed recur name raw path) := by
  unfold parseNamed
  dsimp only
  split
  · next missing =>
    apply Avoids.stop
    rintro rfl
    rw [missing] at known
    cases known rfl
  · exact spares.scalars _ _ _
  · exact avoids_parseSymbol spares _ _ _
  · next type found =>
    exact avoids_parseObject spares fun entries shown => parts type entries found shown
  · exact .fail spares.sudden _ _

omit spares in
theorem avoids_itemParts (path : Path) {item : TypeRef} {values : List Value}
    (parts : ∀ part ∈ values, ∀ path, Avoids why (recur item part path)) :
    ∀ part ∈ itemParts recur item path values, Avoids why part := by
  intro part member
  obtain ⟨index, inside, rfl⟩ := List.mem_mapIdx.mp member
  exact .map _ (parts _ (List.getElem_mem inside) _)

/-- What is not null avoids what its items and its treatment under a name avoid. -/
theorem avoids_coerceInside {ref : TypeRef} {shown : Value} {path : Path}
    (list : ∀ item nonNull, ref = .list item nonNull →
      ∀ part ∈ items shown, ∀ path, Avoids why (recur item part path))
    (named : ∀ name nonNull, ref = .named name nonNull →
      Avoids why (context.parseNamed recur name shown path)) :
    Avoids why (context.coerceInside recur ref shown path) := by
  cases ref with
  | list item nonNull =>
    have each := avoids_itemParts path (list item nonNull rfl)
    exact .map _ (Avoids.gather spares.sudden each path)
  | named name nonNull => exact named name nonNull rfl

omit spares in
theorem avoids_coerceNullable {ref : TypeRef} {raw : Value} {path : Path}
    (inside : context.isUnsupplied raw = false → context.substitute raw ≠ .null →
      Avoids why (context.coerceInside recur ref (context.substitute raw) path)) :
    Avoids why (context.coerceNullable recur ref raw path) := by
  by_cases given : context.isUnsupplied raw = false ∧ context.substitute raw ≠ .null
  · rw [coerceNullable_of_supplied given.1 given.2]
    exact inside given.1 given.2
  · unfold coerceNullable
    split
    · exact .pure _
    · next supplied =>
      have null : context.substitute raw = .null := by
        by_contra other
        exact given ⟨eq_false_of_ne_true supplied, other⟩
      rw [null]
      exact .pure _

/-- What a coercion looks at where null is admitted: the raw value, if null was admitted before or
the raw value is neither null nor a variable, or else what a supplied variable stands for. -/
inductive Looks (context : CoercionContext) (ref : TypeRef) (raw : Value) : Value → Prop where
  | asItIs : (ref.isNonNull = true → (∀ name, raw ≠ .var name) ∧ raw.isNull = false) →
      Looks context ref raw raw
  | lookedUp : context.isUnsupplied raw = false → (context.substitute raw).isNull = false →
      Looks context ref raw (context.substitute raw)

theorem avoids_coerceWith {ref : TypeRef} {raw : Value} {path : Path}
    (nullable : ∀ shown, context.Looks ref raw shown →
      Avoids why (context.coerceNullable recur ref shown path)) :
    Avoids why (context.coerceWith recur ref raw path) := by
  have required : ∀ shown, (shown.isNull = false → context.Looks ref raw shown) →
      Avoids why (coerceWith.required context recur ref path shown) := by
    intro shown looks
    unfold coerceWith.required
    split
    · exact .fail spares.sudden _ _
    · next something => exact nullable shown (looks (eq_false_of_ne_true something))
  unfold coerceWith
  split
  · split
    · split
      · exact .stop (spares.sudden _)
      · next supplied => exact required _ (.lookedUp (eq_false_of_ne_true supplied))
    · next constant => exact required _ fun something => .asItIs fun _ => ⟨constant, something⟩
  · next admitted => exact nullable _ (.asItIs fun excluded => absurd excluded admitted)

theorem avoids_argumentPart {depth : Nat} {literals : Entries Value} {arg : Argument}
    (parts : ∀ raw path, MemberAvoids (context.coerce depth) why arg raw path) :
    Avoids why (context.argumentPart depth literals arg) := by
  have supplied : ∀ raw path, Avoids why (member (context.coerce depth) arg raw path
      (argumentPart.missing arg path)) := fun raw path =>
    avoids_member (parts raw path) (.fail spares.sudden _ _)
  unfold argumentPart
  dsimp only
  split
  · exact supplied _ _
  · split
    · split
      · split
        · exact .stop (spares.sudden _)
        · exact supplied _ _
      · exact supplied _ _
    · exact supplied _ _

end Spares

section Accepted

variable (accepted : context.registry.Accepted)

include accepted

/-- What stops a coercion to a registered type at once is a parse function or the bound on the
depth. -/
theorem avoids_coerce (spares : context.Spares why) (shallow : why ≠ .tooDeep) (depth : Nat)
    {ref : TypeRef} (leads : context.Leads ref) (raw : Value) (path : Path) :
    Avoids why (context.coerce depth ref raw path) := by
  induction depth generalizing ref raw path with
  | zero => exact .stop shallow.symm
  | succ depth ih =>
    apply avoids_coerceWith spares
    intro shown _
    apply avoids_coerceNullable
    intro _ _
    apply avoids_coerceInside spares
    · rintro item nonNull rfl part _ path
      have known : context.Leads item := leads
      exact ih known part path
    · rintro name nonNull rfl
      apply avoids_parseNamed spares
      · intro _
        exact leads
      · intro type entries found _ field among path
        have refers : ⟨.inputField field.name, field.type⟩ ∈
            (TypeDefinition.input type).references := List.mem_map.mpr ⟨field, among, rfl⟩
        have known : context.Leads field.type := accepted.closed (mem_of_lookupType? found) refers
        exact ⟨fun _ => ih known _ _, fun _ _ => ih known _ _⟩

/-- A coercion to a registered type knows the types that it meets. -/
theorem knowsTypes_coerce (depth : Nat) {ref : TypeRef} (leads : context.Leads ref) (raw : Value)
    (path : Path) : KnowsTypes (context.coerce depth ref raw path) :=
  fun name => avoids_coerce accepted (spares_unknownType name) nofun depth leads raw path

/-- Coercing arguments of registered types knows the types that it meets. -/
theorem knowsTypes_coerceArguments {args : List Argument}
    (leads : ∀ arg ∈ args, context.Leads arg.type) (depth : Nat) (literals : Entries Value) :
    KnowsTypes (context.coerceArguments depth args literals) := by
  intro missing
  unfold coerceArguments
  have spares : context.Spares (.unknownType missing) := spares_unknownType missing
  refine (Avoids.gather spares.sudden (fun part given => ?_) []).bind fun _ _ => .pure _
  obtain ⟨arg, among, rfl⟩ := List.mem_map.mp given
  have known := knowsTypes_coerce accepted depth (leads arg among)
  apply avoids_argumentPart spares
  intro raw path
  exact ⟨fun _ => known _ _ _, fun _ _ => known _ _ _⟩

end Accepted

end CoercionContext

end GraphQL
