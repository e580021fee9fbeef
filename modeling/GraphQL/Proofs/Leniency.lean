import GraphQL.Proofs.Reporting

/-!
# Keys that are not declared

What happens to keys that an input object does not declare is a matter of policy. Where they are
passed over, a coercion reports what it reports where they are refused, less the leaves of these
keys, and it succeeds if nothing is left to report. The policy has no other consequence, however
deep in lists, input objects, variables and defaults the keys stand.
-/

namespace GraphQL

variable {α β : Type}

/-- Whether a value does not fit because its type does not declare a key of it. -/
def CoercionCause.isUndeclared : CoercionCause → Bool
  | unknownField .. => true
  | _ => false

/-- Whether a leaf is about a key that is not declared. -/
def CoercionLeaf.isUndeclared (leaf : CoercionLeaf) : Bool :=
  leaf.cause.isUndeclared

namespace Coercion

/-- How an end of a coercion changes when keys that are not declared are passed over: their leaves
are no longer reported, and a failure without other leaves is none. -/
inductive Pardons : Except CoercionStop α → Except CoercionStop α → Prop where
  | same {outcome : Except CoercionStop α} :
      (∀ failure, outcome ≠ .error (.failed failure)) → Pardons outcome outcome
  | pardoned {failure : CoercionFailure} {value : α} :
      (∀ leaf ∈ failure.leaves, leaf.isUndeclared = true) →
      Pardons (.error (.failed failure)) (.ok value)
  | failed {failure left : CoercionFailure} :
      left.leaves = failure.leaves.filter (fun leaf => !leaf.isUndeclared) →
      Pardons (.error (.failed failure)) (.error (.failed left))

namespace Pardons

variable {strict loose : Except CoercionStop α}

/-- An end without a leaf about such a key stays as it is. -/
theorem refl (others : ∀ leaf ∈ leavesOf strict, leaf.isUndeclared = false) :
    Pardons strict strict := by
  by_cases fails : ∃ failure, strict = .error (.failed failure)
  · obtain ⟨failure, rfl⟩ := fails
    refine .failed (List.filter_eq_self.mpr fun leaf among => ?_).symm
    rw [others leaf among]
    rfl
  · exact .same fun failure failed => fails ⟨failure, failed⟩

theorem ok (value : α) : Pardons (.ok value : Except CoercionStop α) (.ok value) :=
  .same fun _ => nofun

protected theorem map (change : α → β) (pardons : Pardons strict loose) :
    Pardons (strict.map change) (loose.map change) := by
  cases pardons with
  | same calm =>
    cases strict with
    | ok value => exact .ok _
    | error why =>
      refine .same fun failure failed => calm failure ?_
      cases failed
      rfl
  | pardoned undeclared => exact .pardoned undeclared
  | failed left => exact .failed left

/-- The leaves that stay are those about other matters. -/
theorem leaves (pardons : Pardons strict loose) :
    leavesOf loose = (leavesOf strict).filter fun leaf => !leaf.isUndeclared := by
  cases pardons with
  | same calm =>
    rcases strict with (failure | _ | _ | _) | value
    · exact absurd rfl (calm failure)
    all_goals rfl
  | pardoned undeclared =>
    refine (List.filter_eq_nil_iff.mpr fun leaf among => ?_).symm
    rw [undeclared leaf among]
    exact Bool.false_ne_true
  | failed left => exact left

/-- Nothing changes without a leaf. -/
theorem eq_of_leavesOf (pardons : Pardons strict loose) (nothing : leavesOf strict = []) :
    loose = strict := by
  cases pardons with
  | same => rfl
  | pardoned => cases nothing
  | failed => cases nothing

theorem isSudden_eq (pardons : Pardons strict loose) : isSudden loose = isSudden strict := by
  cases pardons <;> rfl

/-- Passing keys over makes nothing fail. -/
theorem exists_error {why : CoercionStop} (pardons : Pardons strict loose)
    (failed : loose = .error why) : ∃ other, strict = .error other := by
  cases pardons with
  | same => exact ⟨why, failed⟩
  | pardoned => cases failed
  | failed => exact ⟨_, rfl⟩

/-- What fails only where keys are refused fails because of such keys alone. -/
theorem exists_undeclared {value : α} {why : CoercionStop} (pardons : Pardons strict loose)
    (succeeded : loose = .ok value) (failed : strict = .error why) :
    ∃ failure, why = .failed failure ∧
      ∀ leaf ∈ failure.leaves, ∃ type key, leaf.cause = .unknownField type key := by
  cases pardons with
  | same =>
    rw [succeeded] at failed
    cases failed
  | failed => cases succeeded
  | @pardoned failure _ undeclared =>
    refine ⟨failure, (Except.error.inj failed).symm, fun leaf among => ?_⟩
    have about := undeclared leaf among
    obtain ⟨cause, place⟩ := leaf
    cases cause with
    | unknownField type key => exact ⟨type, key, rfl⟩
    | _ => cases about

theorem stops_iff {why : CoercionStop} (pardons : Pardons strict loose)
    (sudden : ∀ failure, .failed failure ≠ why) : strict = .error why ↔ loose = .error why := by
  cases pardons with
  | same => exact Iff.rfl
  | pardoned => exact ⟨fun stopped => absurd (Except.error.inj stopped) (sudden _), nofun⟩
  | failed =>
    exact ⟨fun stopped => absurd (Except.error.inj stopped) (sudden _),
      fun stopped => absurd (Except.error.inj stopped) (sudden _)⟩

section Parts

variable {stricts looses : List (Except CoercionStop α)}
  (each : List.Forall₂ Pardons stricts looses)

include each

theorem flatMap_leavesOf :
    looses.flatMap leavesOf = (stricts.flatMap leavesOf).filter fun leaf => !leaf.isUndeclared := by
  induction each with
  | nil => rfl
  | cons pardons _ ih =>
    rw [List.flatMap_cons, List.flatMap_cons, List.filter_append, ih, pardons.leaves]

theorem find?_isSudden : looses.find? isSudden = stricts.find? isSudden := by
  induction each with
  | nil => rfl
  | @cons strict loose _ _ pardons _ ih =>
    rw [List.find?_cons, List.find?_cons, pardons.isSudden_eq, ih]
    cases sudden : isSudden strict with
    | false => rfl
    | true =>
      have nothing : leavesOf strict = [] := by
        rcases strict with (_ | _ | _ | _) | _
        · cases sudden
        all_goals rfl
      rw [pardons.eq_of_leavesOf nothing]

theorem eq_of_flatMap_leavesOf (nothing : stricts.flatMap leavesOf = []) : looses = stricts := by
  induction each with
  | nil => rfl
  | cons pardons _ ih =>
    rw [List.flatMap_cons, List.append_eq_nil_iff] at nothing
    rw [pardons.eq_of_leavesOf nothing.1, ih nothing.2]

end Parts

/-- What is gathered changes as its parts do. -/
protected theorem gather {stricts looses : List (Coercion α)} (path : Path)
    (each : List.Forall₂ (fun strict loose => Pardons strict.outcome loose.outcome)
      stricts looses) :
    Pardons (gather path stricts).outcome (gather path looses).outcome := by
  have outcomes : List.Forall₂ Pardons (stricts.map outcome) (looses.map outcome) := by
    rwa [List.forall₂_map_left_iff, List.forall₂_map_right_iff]
  rw [gather_eq, gather_eq, outcome_bind, outcome_bind, outcome_attemptAll, outcome_attemptAll]
  generalize stricts.map outcome = stricts at outcomes ⊢
  generalize looses.map outcome = looses at outcomes ⊢
  unfold attempted
  rw [find?_isSudden outcomes, flatMap_leavesOf outcomes]
  cases stopped : stricts.find? isSudden with
  | some component =>
    cases component with
    | ok value => cases List.find?_some stopped
    | error why =>
      refine .same fun failure failed => ?_
      cases failed
      cases List.find?_some stopped
  | none =>
    cases leaves : stricts.flatMap leavesOf with
    | nil =>
      rw [eq_of_flatMap_leavesOf outcomes leaves]
      exact .ok _
    | cons first others =>
      show Pardons (.error (.failed { path, first, others }))
        (unlessFailed path (_, (first :: others).filter _)).outcome
      cases left : (first :: others).filter (fun leaf => !leaf.isUndeclared) with
      | nil =>
        refine .pardoned fun leaf among => ?_
        have gone := List.filter_eq_nil_iff.mp left leaf among
        rwa [Bool.not_eq_true', Bool.not_eq_false] at gone
      | cons => exact .failed left.symm

end Pardons

/-- How an end with a value changes: it does not become the absence of a value. -/
structure Relaxes (strict loose : Except CoercionStop Value) : Prop where
  pardons : Pardons strict loose
  nothing : loose = .ok .undefined → strict = .ok .undefined

/-- An end without a leaf about such a key stays as it is. -/
theorem Relaxes.refl {outcome : Except CoercionStop Value}
    (others : ∀ leaf ∈ leavesOf outcome, leaf.isUndeclared = false) : Relaxes outcome outcome :=
  ⟨.refl others, id⟩

/-- What is made of a value that is never the absence of one. -/
theorem Pardons.relaxes {strict loose : Coercion α} {change : α → Value}
    (pardons : Pardons strict.outcome loose.outcome)
    (something : ∀ value, change value ≠ .undefined) :
    Relaxes (change <$> strict).outcome (change <$> loose).outcome where
  pardons := by
    rw [outcome_map, outcome_map]
    exact pardons.map change
  nothing := by
    intro nothing
    obtain ⟨value, _, same⟩ := exists_of_outcome_map nothing
    exact absurd same (something value)

/-- A failure about another matter stays as it is. -/
theorem Relaxes.fail {cause : CoercionCause} (other : cause.isUndeclared = false) (path : Path) :
    Relaxes (fail cause path).outcome (fail cause path).outcome := by
  refine .refl fun leaf among => ?_
  rw [List.mem_singleton.mp among]
  exact other

end Coercion

namespace CoercionContext

open Coercion (Pardons Relaxes leavesOf)

/-- The same coercions under another policy. -/
def under (context : CoercionContext) (policy : UnknownFieldPolicy) : CoercionContext :=
  { context with policy }

@[simp] theorem isUnsupplied_under (context : CoercionContext) (policy : UnknownFieldPolicy)
    (raw : Value) : (context.under policy).isUnsupplied raw = context.isUnsupplied raw := rfl

@[simp] theorem substitute_under (context : CoercionContext) (policy : UnknownFieldPolicy)
    (raw : Value) : (context.under policy).substitute raw = context.substitute raw := rfl

section Parts

variable (context : CoercionContext) {strict loose : TypeRef → Value → Path → Coercion Value}
  (relaxes : ∀ ref raw path, Relaxes (strict ref raw path).outcome (loose ref raw path).outcome)

include relaxes

theorem pardons_absent (arg : Argument) (path : Path)
    {missing : Coercion (Option (String × Value))}
    (others : ∀ leaf ∈ leavesOf missing.outcome, leaf.isUndeclared = false) :
    Pardons (absent strict arg path missing).outcome
      (absent loose arg path missing).outcome := by
  unfold absent
  split
  · rw [Coercion.outcome_map, Coercion.outcome_map]
    exact (relaxes _ _ _).pardons.map _
  · split
    · exact .refl others
    · exact .ok none

theorem pardons_member (arg : Argument) (raw : Value) (path : Path)
    {missing : Coercion (Option (String × Value))}
    (others : ∀ leaf ∈ leavesOf missing.outcome, leaf.isUndeclared = false) :
    Pardons (member strict arg raw path missing).outcome
      (member loose arg raw path missing).outcome := by
  have omitted := pardons_absent relaxes arg path others
  have relaxed := relaxes arg.type raw path
  unfold member
  split
  · exact omitted
  · rw [Coercion.outcome_bind, Coercion.outcome_bind]
    generalize (strict arg.type raw path).outcome = one at relaxed ⊢
    generalize (loose arg.type raw path).outcome = other at relaxed ⊢
    obtain ⟨pardons, nothing⟩ := relaxed
    cases pardons with
    | same calm =>
      cases one with
      | error why => exact .same fun failure failed => calm failure (by cases failed; rfl)
      | ok value =>
        rw [Except.bind, Except.bind]
        split
        · exact omitted
        · exact .ok _
    | failed left => exact .failed left
    | @pardoned failure value undeclared =>
      have something : value.isUndefined = false := by
        cases value with
        | undefined => cases nothing rfl
        | _ => rfl
      rw [Except.bind, Except.bind, something, if_neg Bool.false_ne_true]
      exact .pardoned undeclared

theorem pardons_fieldPart (type : InputType) (entries : Entries Value) (path : Path)
    (field : Argument) :
    Pardons ((context.under .reject).fieldPart strict type entries path field).outcome
      ((context.under .ignore).fieldPart loose type entries path field).outcome := by
  refine pardons_member relaxes field (context.rawField entries field) _ fun leaf among => ?_
  rw [List.mem_singleton.mp among]
  rfl

omit relaxes in
theorem pardons_unknownPart (type : InputType) (path : Path) (key : String) :
    Pardons ((context.under .reject).unknownPart type path key).outcome
      ((context.under .ignore).unknownPart type path key).outcome := by
  refine .pardoned fun leaf among => ?_
  rw [List.mem_singleton.mp among]
  rfl

/-- The parts of an input object lose the leaves about keys that are not declared. -/
theorem pardons_objectParts (type : InputType) (entries : Entries Value) (path : Path) :
    List.Forall₂ (fun strict loose => Pardons strict.outcome loose.outcome)
      (type.fields.map ((context.under .reject).fieldPart strict type entries path) ++
        (unknownKeys type entries).map ((context.under .reject).unknownPart type path))
      (type.fields.map ((context.under .ignore).fieldPart loose type entries path) ++
        (unknownKeys type entries).map ((context.under .ignore).unknownPart type path)) := by
  apply List.rel_append
  · rw [List.forall₂_map_left_iff, List.forall₂_map_right_iff, List.forall₂_same]
    exact fun field _ => pardons_fieldPart context relaxes type entries path field
  · rw [List.forall₂_map_left_iff, List.forall₂_map_right_iff, List.forall₂_same]
    exact fun key _ => pardons_unknownPart context type path key

theorem relaxes_parseObject (type : InputType) (raw : Value) (path : Path) :
    Relaxes ((context.under .reject).parseObject strict type raw path).outcome
      ((context.under .ignore).parseObject loose type raw path).outcome := by
  unfold parseObject
  split
  · next entries =>
    have gathered := Pardons.gather path (pardons_objectParts context relaxes type entries path)
    have something : ∀ parts, Value.map (membersOf parts) ≠ .undefined := fun _ => nofun
    exact gathered.relaxes something
  · exact .fail rfl path

omit relaxes in
theorem relaxes_parseScalar (type : ScalarType) (raw : Value) (path : Path) :
    Relaxes (context.parseScalar type raw path).outcome
      (context.parseScalar type raw path).outcome := by
  unfold parseScalar
  split
  · exact .refl fun _ => nofun
  · split
    · exact .refl fun _ => nofun
    · exact .fail rfl path

omit relaxes in
theorem relaxes_parseSymbol (type : EnumType) (raw : Value) (path : Path) :
    Relaxes (parseSymbol type raw path).outcome (parseSymbol type raw path).outcome := by
  unfold parseSymbol
  split
  · exact .refl fun _ => nofun
  · exact .fail rfl path

theorem relaxes_parseNamed (name : String) (raw : Value) (path : Path) :
    Relaxes ((context.under .reject).parseNamed strict name raw path).outcome
      ((context.under .ignore).parseNamed loose name raw path).outcome := by
  unfold parseNamed
  dsimp only [under]
  split
  · exact .refl fun _ among => nomatch among
  · exact relaxes_parseScalar context _ _ path
  · exact relaxes_parseSymbol _ _ path
  · exact relaxes_parseObject context relaxes _ _ path
  · exact .fail rfl path

theorem relaxes_items (item : TypeRef) (raw : Value) (path : Path) :
    Relaxes (.list <$> Coercion.gather path (itemParts strict item path (items raw))).outcome
      (.list <$> Coercion.gather path (itemParts loose item path (items raw))).outcome := by
  refine (Pardons.gather path ?_).relaxes fun _ => nofun
  rw [List.forall₂_iff_get]
  refine ⟨by simp [itemParts], fun index _ _ => ?_⟩
  simp only [itemParts, List.get_eq_getElem, List.getElem_mapIdx, Coercion.outcome_map]
  exact (relaxes _ _ _).pardons.map itemValue

theorem relaxes_coerceNullable (ref : TypeRef) (raw : Value) (path : Path) :
    Relaxes ((context.under .reject).coerceNullable strict ref raw path).outcome
      ((context.under .ignore).coerceNullable loose ref raw path).outcome := by
  unfold coerceNullable
  rw [isUnsupplied_under, isUnsupplied_under, substitute_under, substitute_under]
  split
  · exact .refl fun _ among => nomatch among
  · split
    · exact .refl fun _ among => nomatch among
    · exact relaxes_items relaxes _ _ path
    · exact relaxes_parseNamed context relaxes _ _ path

theorem relaxes_coerceWith (ref : TypeRef) (raw : Value) (path : Path) :
    Relaxes ((context.under .reject).coerceWith strict ref raw path).outcome
      ((context.under .ignore).coerceWith loose ref raw path).outcome := by
  have required : ∀ shown,
      Relaxes (coerceWith.required (context.under .reject) strict ref path shown).outcome
        (coerceWith.required (context.under .ignore) loose ref path shown).outcome := by
    intro shown
    unfold coerceWith.required
    split
    · exact .fail rfl path
    · exact relaxes_coerceNullable context relaxes ref shown path
  unfold coerceWith
  split
  · split
    · rw [isUnsupplied_under, isUnsupplied_under, substitute_under, substitute_under]
      split
      · exact .fail rfl []
      · exact required _
    · exact required _
  · exact relaxes_coerceNullable context relaxes ref raw path

end Parts

/-- Passing over the keys that are not declared changes nothing but what is reported about them. -/
theorem relaxes_coerce (context : CoercionContext) (depth : Nat) (ref : TypeRef) (raw : Value)
    (path : Path) :
    Relaxes ((context.under .reject).coerce depth ref raw path).outcome
      ((context.under .ignore).coerce depth ref raw path).outcome := by
  induction depth generalizing ref raw path with
  | zero => exact .refl fun _ among => nomatch among
  | succ depth ih => exact relaxes_coerceWith context ih ref raw path

/-- The policy for keys that are not declared matters for these keys only. What is coerced where
they are refused is coerced to the same where they are passed over; what fails where they are passed
over fails where they are refused; and what fails only where they are refused has no other leaves.
A failure where they are passed over has the leaves that are about other matters, and what is not
gathered with others stops a coercion under both policies. -/
theorem coerce_under (context : CoercionContext) (depth : Nat) (ref : TypeRef) (raw : Value)
    (path : Path) :
    let refusing := ((context.under .reject).coerce depth ref raw path).outcome
    let passing := ((context.under .ignore).coerce depth ref raw path).outcome
    (∀ value, refusing = .ok value → passing = .ok value) ∧
    (∀ why, passing = .error why → ∃ other, refusing = .error other) ∧
    (∀ value why, passing = .ok value → refusing = .error why →
      ∃ failure, why = .failed failure ∧
        ∀ leaf ∈ failure.leaves, ∃ type key, leaf.cause = .unknownField type key) ∧
    leavesOf passing = (leavesOf refusing).filter (fun leaf => !leaf.isUndeclared) ∧
    ∀ why, (∀ failure, .failed failure ≠ why) →
      (refusing = .error why ↔ passing = .error why) := by
  intro refusing passing
  have pardons : Pardons refusing passing := (relaxes_coerce context depth ref raw path).pardons
  refine ⟨?_, fun _ failed => pardons.exists_error failed,
    fun _ _ succeeded failed => pardons.exists_undeclared succeeded failed, pardons.leaves,
    fun _ sudden => pardons.stops_iff sudden⟩
  intro value succeeded
  rw [pardons.eq_of_leavesOf (by rw [succeeded]; rfl), succeeded]

/-- Limits of pages, one of which has keys that are not declared. -/
def looseLimits : Value :=
  .list [rawLimit, .var "l"]

/-- Such limits are refused for these keys alone, so that they are limits where the keys are passed
over. -/
theorem coerce_under_limits :
    (∃ failure, ((pageContext.under .reject).coerce 8 (.list (.named "Limit" true)) looseLimits
        []).outcome = .error (.failed failure) ∧
      ∀ leaf ∈ failure.leaves, ∃ type key, leaf.cause = .unknownField type key) ∧
    ((pageContext.under .ignore).coerce 8 (.list (.named "Limit" true)) looseLimits []).outcome =
      .ok (.list [.map [("count", .int 2), ("within", .map [("limit", .null)])],
        .map [("count", .int 2), ("within", .map [("limit", .null)])]]) := by
  obtain ⟨_, _, apart, _⟩ :=
    coerce_under pageContext 8 (.list (.named "Limit" true)) looseLimits []
  obtain ⟨failure, same, about⟩ := apart _ _ rfl rfl
  exact ⟨⟨failure, congrArg Except.error same, about⟩, rfl⟩

end CoercionContext

end GraphQL
