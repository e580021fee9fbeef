import GraphQL.Proofs.Serialization
import GraphQL.Proofs.Substitution

/-!
# Variables in arguments

The arguments of a field come to the same whether variables are looked up or replaced before, and no
variable stands in them. A variable inside a mapping that a scalar takes as a whole is the
exception.
-/

namespace GraphQL

namespace Entries

variable {α : Type}

theorem mem_of_mem_insert {entries : Entries α} {key : String} {value : α} {entry : String × α}
    (among : entry ∈ insert entries key value) : entry = (key, value) ∨ entry ∈ entries := by
  induction entries with
  | nil => exact Or.inl (List.mem_singleton.mp among)
  | cons first rest ih =>
    unfold insert at among
    split at among
    · exact (List.mem_cons.mp among).imp_right (List.mem_cons_of_mem _)
    · rcases List.mem_cons.mp among with rfl | later
      · exact Or.inr List.mem_cons_self
      · exact (ih later).imp_right (List.mem_cons_of_mem _)

theorem mem_of_mem_insertAll {before entries : Entries α} {entry : String × α}
    (among : entry ∈ insertAll before entries) : entry ∈ before ∨ entry ∈ entries := by
  induction entries generalizing before with
  | nil => exact Or.inl among
  | cons first rest ih =>
    rcases ih among with here | later
    · rcases mem_of_mem_insert here with same | earlier
      · exact Or.inr (List.mem_cons.mpr (Or.inl same))
      · exact Or.inl earlier
    · exact Or.inr (List.mem_cons_of_mem _ later)

/-- A mapping that is made of a list has entries of the list only. -/
theorem mem_of_mem_ofList {entries : List (String × α)} {entry : String × α}
    (among : entry ∈ ofList entries) : entry ∈ entries :=
  (mem_of_mem_insertAll among).resolve_left List.not_mem_nil

end Entries

namespace BuiltinScalar

variable {scalar : BuiltinScalar} {value result : Value}

theorem isClosed_of_holds (holds : scalar.Holds result) : result.isClosed = true := by
  cases result with
  | var name => cases scalar <;> cases holds
  | list _ | tuple _ | map _ | chosen => cases scalar <;> cases holds
  | _ => rfl

/-- No variable stands in what a built-in scalar makes of a value. -/
theorem isClosed_of_convert {direction : Direction}
    (converted : scalar.convert direction value = .ok result) : result.isClosed = true := by
  rcases holds_of_convert converted with holds | ⟨b, rfl⟩
  · exact isClosed_of_holds holds
  · rfl

end BuiltinScalar

namespace CoercionContext

variable {context : CoercionContext} {ref : TypeRef} {raw value : Value} {path : Path}

/-- User code and the schema put no variables into what they make of closed values. -/
structure Tidy (context : CoercionContext) : Prop where
  parsed : ∀ {handle value result}, value.isClosed = true →
    context.convert handle value = .ok result → result.isClosed = true
  symbol : ∀ {name type}, context.registry.type? name = some (.enum type) →
    ∀ entry ∈ type.values, entry.value.isClosed = true

/-- No variable stands in what literals are coerced to at most so deep. -/
def Closes (context : CoercionContext) (depth : Nat) : Prop :=
  ∀ {ref raw path value}, context.PlainAtScalars ref raw →
    (context.coerce depth ref raw path).outcome = .ok value → value.isClosed = true

/-- No variable stands in a member, if there is one. -/
def ClosedMember : Option (String × Value) → Prop
  | none => True
  | some entry => entry.2.isClosed = true

theorem isClosed_of_members {members : List (Option (String × Value))}
    (closed : ∀ part ∈ members, ClosedMember part) :
    ∀ entry ∈ Entries.ofList (members.filterMap id), entry.2.isClosed = true := by
  intro entry among
  obtain ⟨part, member, same⟩ := List.mem_filterMap.mp (Entries.mem_of_mem_ofList among)
  have known : part = some entry := same
  have fits := closed part member
  rwa [known] at fits

section Members

variable {depth : Nat} (closes : context.Closes depth) {arg : Argument}
  (default : arg.default.isClosed = true) {missing : Coercion (Option (String × Value))}
  (fails : ∀ part, missing.outcome ≠ .ok part) {part : Option (String × Value)}

include closes default fails

theorem closedMember_of_absent
    (found : (absent (context.coerce depth) arg path missing).outcome = .ok part) :
    ClosedMember part := by
  unfold absent at found
  split at found
  · obtain ⟨value, coerced, rfl⟩ := Coercion.exists_of_outcome_map found
    exact closes (plainAtScalars_of_isClosed default) coerced
  · split at found
    · exact absurd found (fails part)
    · cases found
      trivial

theorem closedMember_of_member (plain : context.PlainAtScalars arg.type raw)
    (found : (member (context.coerce depth) arg raw path missing).outcome = .ok part) :
    ClosedMember part := by
  unfold member at found
  split at found
  · exact closedMember_of_absent closes default fails found
  · obtain ⟨value, coerced, found⟩ := Coercion.exists_of_outcome_bind found
    split at found
    · exact closedMember_of_absent closes default fails found
    · cases found
      exact closes plain coerced

end Members

section Results

variable (replaceable : context.Replaceable) (tidy : context.Tidy)

include tidy

theorem isClosed_of_apply {conversion : Conversion} (closed : raw.isClosed = true)
    (applied : conversion.apply context.convert raw = .ok value) : value.isClosed = true := by
  cases conversion with
  | identity =>
    cases applied
    exact closed
  | builtin scalar direction => exact BuiltinScalar.isClosed_of_convert applied
  | given handle =>
    apply tidy.parsed _ applied
    rwa [Value.isClosed_plain]

theorem isClosed_of_parseSymbol {name : String} {type : EnumType}
    (found : context.registry.type? name = some (.enum type))
    (parsed : (parseSymbol type raw path).outcome = .ok value) : value.isClosed = true := by
  unfold parseSymbol at parsed
  split at parsed
  · next entry symbol =>
    cases parsed
    obtain ⟨text, _, chosen⟩ := Option.bind_eq_some_iff.mp symbol
    have closed := tidy.symbol found entry (List.mem_of_find?_eq_some chosen)
    unfold EnumType.internalValue
    split
    · exact closed
    · exact closed
  · cases parsed

include replaceable

omit tidy in
theorem isClosed_of_parseObject {depth : Nat} (closes : context.Closes depth) {name : String}
    {nonNull : Bool} {type : InputType} (found : context.registry.type? name = some (.input type))
    {entries : Entries Value}
    (plain : context.PlainAtScalars (.named name nonNull) (.map entries))
    (parsed : (context.parseObject (context.coerce depth) type
      (context.settle (.map entries)) path).outcome = .ok value) : value.isClosed = true := by
  have settles := replaceable.settles
  rw [settle_map settles, parseObject] at parsed
  obtain ⟨members, gathered, made⟩ := Coercion.exists_of_outcome_bind parsed
  cases made
  rw [Value.isClosed_map]
  apply isClosed_of_members
  intro part among
  obtain ⟨coercion, given, ended⟩ :=
    exists_mem_of_forall₂ (Coercion.forall₂_of_gather gathered) among
  rcases List.mem_append.mp given with declared | other
  · obtain ⟨field, member, rfl⟩ := List.mem_map.mp declared
    rw [fieldPart, rawField_settle settles, member_settle settles] at ended
    refine closedMember_of_member closes (replaceable.default found field member) ?_
      (plainAtScalars_rawField found plain member) ended
    intro _ failed
    cases failed
  · obtain ⟨key, _, rfl⟩ := List.mem_map.mp other
    unfold unknownPart at ended
    split at ended
    · cases ended
    · cases ended
      trivial

theorem isClosed_of_parseNamed {depth : Nat} (closes : context.Closes depth) {name : String}
    {nonNull : Bool} (constant : raw.isVariable = false)
    (plain : context.PlainAtScalars (.named name nonNull) raw)
    (parsed : (context.parseNamed (context.coerce depth) name raw path).outcome = .ok value) :
    value.isClosed = true := by
  have settles := replaceable.settles
  unfold parseNamed at parsed
  dsimp only at parsed
  split at parsed
  · cases parsed
  · next type found =>
    have closed : raw.isClosed = true := by
      refine (plain raw (.scalar found)).resolve_left fun other => ?_
      rw [constant] at other
      cases other
    unfold parseScalar at parsed
    split at parsed
    · next applied =>
      cases parsed
      apply isClosed_of_apply tidy _ applied
      rwa [settles.isClosed]
    · split at parsed <;> cases parsed
  · next type found => exact isClosed_of_parseSymbol tidy found parsed
  · next type found =>
    by_cases object : ∃ entries, raw = .map entries
    · obtain ⟨entries, rfl⟩ := object
      exact isClosed_of_parseObject replaceable closes found plain parsed
    · have refused : ∀ entries, context.settle raw ≠ .map entries := by
        intro entries shown
        obtain ⟨own, same, _⟩ := settles.eq_map_iff.mp shown
        exact object ⟨own, same⟩
      rw [parseObject_of_not_map type refused] at parsed
      cases parsed
  · cases parsed

/-- No variable stands in what a literal is coerced to, however deep. -/
theorem isClosed_of_coerce (depth : Nat) : context.Closes depth := by
  induction depth with
  | zero => exact fun _ coerced => nomatch coerced
  | succ depth ih =>
    intro ref raw path result plain coerced
    rw [coerce] at coerced
    cases unsupplied : context.isUnsupplied raw with
    | true =>
      rw [← Coercion.verdict_eq_ok_iff, verdict_of_isUnsupplied unsupplied] at coerced
      cases admitted : ref.isNonNull with
      | false =>
        rw [admitted] at coerced
        cases coerced
        rfl
      | true =>
        rw [admitted] at coerced
        cases coerced
    | false =>
      have constant := replaceable.closed.not_isVariable_substitute raw
      have plain := plainAtScalars_substitute replaceable plain
      rw [← coerceWith_substitute replaceable unsupplied] at coerced
      generalize context.substitute raw = shown at constant plain coerced
      by_cases refused : ref.isNonNull = true ∧ shown.isNull = true
      · rw [coerceWith_refused constant refused.1 refused.2] at coerced
        cases coerced
      · by_cases null : shown = .null
        · subst null
          have admitted : ref.isNonNull = false := eq_false_of_ne_true fun excluded =>
            refused ⟨excluded, rfl⟩
          rw [coerceWith_null admitted] at coerced
          cases coerced
          rfl
        · have admitted : ref.isNonNull = true → shown.isNull = false := fun excluded =>
            eq_false_of_ne_true fun same => refused ⟨excluded, same⟩
          rw [coerceWith_inside constant null admitted] at coerced
          cases ref with
          | named name nonNull =>
            exact isClosed_of_parseNamed replaceable tidy ih constant plain coerced
          | list item nonNull =>
            obtain ⟨values, gathered, rfl⟩ := Coercion.exists_of_outcome_map coerced
            rw [Value.isClosed_list]
            intro value among
            obtain ⟨part, given, ended⟩ :=
              exists_mem_of_forall₂ (Coercion.forall₂_of_gather gathered) among
            obtain ⟨index, inside, rfl⟩ := List.mem_mapIdx.mp given
            obtain ⟨found, coerced, rfl⟩ := Coercion.exists_of_outcome_map ended
            have closed := ih (fun taken hands =>
              plain taken (.item (List.getElem_mem inside) hands)) coerced
            unfold itemValue
            split
            · rfl
            · exact closed

end Results

section Arguments

variable {depth : Nat} {literals : Entries Value} {arg : Argument}

theorem argumentPart_of_none (nothing : Entries.get? literals arg.name = none) :
    context.argumentPart depth literals arg =
      absent (context.coerce depth) arg [.key arg.name]
        (argumentPart.missing arg [.key arg.name]) := by
  unfold argumentPart
  rw [nothing]
  rfl

theorem argumentPart_of_supplied (given : Entries.get? literals arg.name = some raw)
    (supplied : context.isUnsupplied raw = false) :
    context.argumentPart depth literals arg =
      member (context.coerce depth) arg raw [.key arg.name]
        (argumentPart.missing arg [.key arg.name]) := by
  unfold argumentPart
  rw [given]
  dsimp only
  split
  · rw [supplied, if_neg Bool.false_ne_true]
  · rfl

/-- A variable that was not supplied leaves an argument out. -/
theorem alike_argumentPart_of_isUnsupplied (depth : Nat)
    (given : Entries.get? literals arg.name = some raw)
    (unsupplied : context.isUnsupplied raw = true) :
    Coercion.Alike (context.argumentPart depth literals arg)
      (absent (context.coerce depth) arg [.key arg.name]
        (argumentPart.missing arg [.key arg.name])) := by
  cases raw with
  | var name =>
    unfold argumentPart
    rw [given]
    dsimp only
    rw [unsupplied, if_pos rfl]
    split
    · next required =>
      have known : arg.hasDefault = false ∧ arg.type.isNonNull = true := by simpa using required
      unfold absent
      rw [known.1, known.2]
      exact .refl _
    · exact .refl _
  | _ => cases unsupplied

/-- The arguments that a coercion is about: they have names of their own, and no variable stands in
their defaults. -/
structure Declares (args : List Argument) : Prop where
  distinct : (args.map Argument.name).Nodup
  default : ∀ arg ∈ args, arg.default.isClosed = true

variable (replaceable : context.Replaceable) {args : List Argument} (declares : Declares args)
  (plain : ∀ arg ∈ args, ∀ raw, Entries.get? literals arg.name = some raw →
    context.PlainAtScalars arg.type raw)

include replaceable declares plain

theorem alike_coerceArguments (depth : Nat) {convert : Handle → Value → Except Fault Value}
    (agrees : ∀ handle value, value.isClosed = true →
      context.convert handle value = convert handle value) :
    Coercion.Alike (context.coerceArguments depth args literals)
      ((context.withoutVariables convert).coerceArguments depth args
        (context.inlineMembers args literals)) := by
  have replaces := alike_coerce replaceable agrees depth
  refine (Coercion.Alike.gather ?_ [] []).bind fun _ => .refl _
  rw [List.forall₂_map_left_iff, List.forall₂_map_right_iff, List.forall₂_same]
  intro arg among
  have declared : Member.find? args arg.name = some arg :=
    find?_of_distinct declares.distinct among
  have absence := alike_absent replaces [.key arg.name] (declares.default arg among)
    (.refl (argumentPart.missing arg [.key arg.name]))
  have inlined : Entries.get? (context.inlineMembers args literals) arg.name = _ :=
    get?_inlineMembers declared
  cases given : Entries.get? literals arg.name with
  | none =>
    rw [given] at inlined
    rw [argumentPart_of_none given, argumentPart_of_none inlined]
    exact absence
  | some raw =>
    rw [given] at inlined
    cases unsupplied : context.isUnsupplied raw with
    | true =>
      rw [Option.getD_some, unsupplied, if_pos rfl] at inlined
      rw [argumentPart_of_none inlined]
      exact (alike_argumentPart_of_isUnsupplied depth given unsupplied).trans absence
    | false =>
      rw [Option.getD_some, unsupplied, if_neg Bool.false_ne_true] at inlined
      have constant : (context.withoutVariables convert).isUnsupplied
          (context.inline arg.type raw) = false := by
        rw [isUnsupplied_withoutVariables, isVariable_inline replaceable unsupplied]
      rw [argumentPart_of_supplied given unsupplied, argumentPart_of_supplied inlined constant]
      exact alike_member replaceable replaces _ (declares.default arg among) unsupplied
        (plain arg among raw given) (.refl _)

/-- No variable stands in the arguments that are handed on. -/
theorem isClosed_of_coerceArguments (tidy : context.Tidy) {arguments : Entries Value}
    (coerced : (context.coerceArguments depth args literals).outcome = .ok arguments) :
    ∀ entry ∈ arguments, entry.2.isClosed = true := by
  have closes : context.Closes depth := isClosed_of_coerce replaceable tidy depth
  obtain ⟨members, gathered, made⟩ := Coercion.exists_of_outcome_bind coerced
  cases made
  apply isClosed_of_members
  intro part among
  obtain ⟨coercion, given, ended⟩ :=
    exists_mem_of_forall₂ (Coercion.forall₂_of_gather gathered) among
  obtain ⟨arg, member, rfl⟩ := List.mem_map.mp given
  have default := declares.default arg member
  have fails : ∀ part, (argumentPart.missing arg [.key arg.name]).outcome ≠ .ok part :=
    fun _ failed => nomatch failed
  cases found : Entries.get? literals arg.name with
  | none =>
    rw [argumentPart_of_none found] at ended
    exact closedMember_of_absent closes default fails ended
  | some raw =>
    cases unsupplied : context.isUnsupplied raw with
    | true =>
      have absence := alike_argumentPart_of_isUnsupplied depth found unsupplied
      unfold Coercion.Alike at absence
      rw [Coercion.verdict_eq_ok_iff.mpr ended] at absence
      exact closedMember_of_absent closes default fails (Coercion.verdict_eq_ok_iff.mp absence.symm)
    | false =>
      rw [argumentPart_of_supplied found unsupplied] at ended
      exact closedMember_of_member closes default fails (plain arg member raw found) ended

end Arguments

/-- Where no variable stands inside what a scalar takes as a whole, looking variables up is the same
as replacing them before: arguments are coerced in both cases or in none, and to the same. Parse
functions meet no variable, since it does not matter what they make of one; nor do resolvers, unless
user code makes one. -/
theorem coerceArguments_replaced (replaceable : context.Replaceable) {args : List Argument}
    (declares : Declares args) {literals : Entries Value}
    (plain : ∀ arg ∈ args, ∀ raw, Entries.get? literals arg.name = some raw →
      context.PlainAtScalars arg.type raw) (depth : Nat) :
    (∀ convert : Handle → Value → Except Fault Value,
      (∀ handle value, value.isClosed = true →
        context.convert handle value = convert handle value) →
      ∀ arguments, (context.coerceArguments depth args literals).outcome = .ok arguments ↔
        ((context.withoutVariables convert).coerceArguments depth args
          (context.inlineMembers args literals)).outcome = .ok arguments) ∧
    (context.Tidy →
      ∀ arguments, (context.coerceArguments depth args literals).outcome = .ok arguments →
        ∀ entry ∈ arguments, entry.2.isClosed = true) := by
  constructor
  · intro convert agrees arguments
    have alike := alike_coerceArguments replaceable declares plain depth agrees
    rw [← Coercion.verdict_eq_ok_iff, ← Coercion.verdict_eq_ok_iff, alike]
  · intro tidy arguments coerced
    exact isClosed_of_coerceArguments replaceable declares plain tidy coerced

theorem eq_of_hands {name : String} {nonNull : Bool} {taken : Value}
    (simple : raw.isSimple = true) (hands : context.Hands (.named name nonNull) raw taken) :
    taken = raw := by
  cases hands with
  | scalar => rfl
  | field => cases simple

theorem input_pointContext {name : String} {type : InputType}
    (found : pointContext.registry.type? name = some (.input type)) : type = pointInput := by
  have inputs : pointContext.registry.inputs = [pointInput] := rfl
  have among := Registry.mem_inputs found
  rw [inputs] at among
  exact List.mem_singleton.mp among

theorem replaceable_pointContext : pointContext.Replaceable where
  settles := settles_of_id rfl
  closed := by
    have closed : ∀ entry ∈ pointContext.variableValues, entry.2.isClosed = true := by decide
    exact closed
  present := by decide
  default := by
    intro name type found
    rw [input_pointContext found]
    decide
  distinct := by
    intro name type found
    rw [input_pointContext found]
    decide

theorem tidy_pointContext : pointContext.Tidy where
  parsed closed same := by
    cases same
    exact closed
  symbol := by
    have symbols : ∀ value ∈ pointContext.registry.symbolValues, value.isClosed = true := by
      decide +kernel
    intro name type found entry among
    exact symbols _ (Registry.mem_symbolValues found among)

/-- The argument for a point. -/
def pointArgument : Argument where
  name := "at"
  type := .named "Point" true

/-- Variables stand in the literal for a point, but in no literal that a scalar takes as a whole. -/
theorem plainAtScalars_rawPoint : pointContext.PlainAtScalars pointArgument.type rawPoint := by
  have point : pointContext.registry.type? "Point" = some (.input pointInput) := rfl
  intro taken hands
  cases hands with
  | scalar found =>
    rw [point] at found
    cases found
  | field found among given hands =>
    rw [point] at found
    cases found
    simp only [pointInput, List.mem_cons, List.not_mem_nil, or_false] at among
    rcases among with rfl | rfl | rfl | rfl
    · cases given
      rw [eq_of_hands rfl hands]
      exact Or.inr rfl
    · cases given
    · cases given
      cases hands with
      | @item _ _ _ part _ inside hands =>
        have parts : part = .var "shade" ∨ part = .var "gone" := by
          simpa [items] using inside
        rcases parts with rfl | rfl
        · rw [eq_of_hands rfl hands]
          exact Or.inl rfl
        · rw [eq_of_hands rfl hands]
          exact Or.inl rfl
    · cases given
      rw [eq_of_hands rfl hands]
      exact Or.inl rfl

/-- A point with variables in it comes to the same after they are replaced: one is looked up, one is
null in a list, and one leaves its field out. -/
theorem coerceArguments_replaced_point :
    pointContext.registry.Accepted ∧
      pointContext.inlineMembers [pointArgument] [("at", rawPoint)] =
        [("at", .map [("shades", .list [.str "DARK", .null]), ("x", .int 3)])] ∧
      (pointContext.coerceArguments 4 [pointArgument] [("at", rawPoint)]).outcome =
        .ok [("at", .map [("x", .int 3), ("y", .int 7), ("shade_list", .list [.int 1, .null])])] ∧
      ((pointContext.withoutVariables pointContext.convert).coerceArguments 4 [pointArgument]
        [("at", .map [("shades", .list [.str "DARK", .null]), ("x", .int 3)])]).outcome =
        .ok [("at", .map [("x", .int 3), ("y", .int 7), ("shade_list", .list [.int 1, .null])])] ∧
      ∀ arguments, (pointContext.coerceArguments 4 [pointArgument] [("at", rawPoint)]).outcome =
        .ok arguments → ∀ entry ∈ arguments, entry.2.isClosed = true := by
  have declares : Declares [pointArgument] := ⟨by decide, by decide⟩
  have plain : ∀ arg ∈ [pointArgument], ∀ raw,
      Entries.get? [("at", rawPoint)] arg.name = some raw →
      pointContext.PlainAtScalars arg.type raw := by
    intro arg among raw given
    rw [List.mem_singleton.mp among] at given ⊢
    cases given
    exact plainAtScalars_rawPoint
  obtain ⟨same, closed⟩ := coerceArguments_replaced replaceable_pointContext declares plain 4
  have coerced : (pointContext.coerceArguments 4 [pointArgument] [("at", rawPoint)]).outcome =
      .ok [("at", .map [
        ("x", .int 3), ("y", .int 7), ("shade_list", .list [.int 1, .null])])] := rfl
  refine ⟨accepted_pointContext, rfl, coerced, ?_, closed tidy_pointContext⟩
  exact (same pointContext.convert (fun _ _ _ => rfl) _).mp coerced

/-- An argument that takes anything. -/
def noteArgument : Argument where
  name := "note"
  type := .named "Any"

/-- A scalar takes a mapping as a whole and meets the variable in it, although that was supplied. -/
theorem coerceArguments_meets_variable :
    pointContext.registry.Accepted ∧ pointContext.Replaceable ∧ Declares [noteArgument] ∧
      pointContext.Tidy ∧
      pointContext.inlineMembers [noteArgument] [("note", .map [("k", .var "shade")])] =
        [("note", .map [("k", .str "DARK")])] ∧
      ((pointContext.withoutVariables pointContext.convert).coerceArguments 2 [noteArgument]
        [("note", .map [("k", .str "DARK")])]).outcome =
        .ok [("note", .map [("k", .str "DARK")])] ∧
      (pointContext.coerceArguments 2 [noteArgument]
        [("note", .map [("k", .var "shade")])]).outcome =
        .ok [("note", .map [("k", .var "shade")])] :=
  ⟨accepted_pointContext, replaceable_pointContext, ⟨by decide, by decide⟩, tidy_pointContext, rfl,
    rfl, rfl⟩

end CoercionContext

end GraphQL
