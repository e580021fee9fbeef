import GraphQL.Proofs.Arguments
import GraphQL.Proofs.SubTyping

/-!
# Calls through an interface

Who calls a field of an interface calls the field of an object type that lists it, with the same
literals. Validation compares the two argument by argument: the object type takes each argument of
the interface at the same type, and it may be called without what it takes besides. It does not
compare defaults, and it knows no literals. So a call that the interface accepts is accepted if two
more things hold: what only the interface has a default for is supplied, and what is supplied to
additional arguments fits them.
-/

namespace GraphQL

variable {α β : Type}

namespace Coercion

/-- A coercion gives a value. -/
def Succeeds (part : Coercion α) : Prop :=
  ∃ value, part.outcome = .ok value

instance (part : Coercion α) : Decidable part.Succeeds :=
  match ended : part.outcome with
  | .ok value => isTrue ⟨value, ended⟩
  | .error _ => isFalse fun ⟨_, succeeded⟩ => nomatch ended.symm.trans succeeded

namespace Succeeds

theorem of_alike {part other : Coercion α} (alike : Alike part other) :
    part.Succeeds ↔ other.Succeeds := by
  unfold Alike at alike
  simp only [Succeeds, ← verdict_eq_ok_iff, alike]

theorem not_fail (cause : CoercionCause) (path : Path) :
    ¬(Coercion.fail cause path : Coercion α).Succeeds :=
  fun ⟨_, failed⟩ => nomatch failed

theorem bind_iff {part : Coercion α} {next : α → Coercion β} :
    (part >>= next).Succeeds ↔ ∃ value, part.outcome = .ok value ∧ (next value).Succeeds := by
  constructor
  · rintro ⟨result, succeeded⟩
    obtain ⟨value, first, second⟩ := exists_of_outcome_bind succeeded
    exact ⟨value, first, result, second⟩
  · rintro ⟨value, first, result, second⟩
    refine ⟨result, ?_⟩
    rw [outcome_bind, first]
    exact second

theorem map_iff {part : Coercion α} {change : α → β} :
    (change <$> part).Succeeds ↔ part.Succeeds := by
  have steps : change <$> part = part >>= fun value => pure (change value) := rfl
  rw [steps, bind_iff]
  exact exists_congr fun value => and_iff_left ⟨_, rfl⟩

theorem attemptAll {parts : List (Coercion α)} (each : ∀ part ∈ parts, part.Succeeds) :
    ∃ values, (Coercion.attemptAll parts).outcome = .ok (values, []) := by
  induction parts with
  | nil => exact ⟨[], rfl⟩
  | cons part rest ih =>
    obtain ⟨value, first⟩ := each part List.mem_cons_self
    obtain ⟨values, others⟩ := ih fun other among => each other (List.mem_cons_of_mem _ among)
    refine ⟨value :: values, ?_⟩
    rw [Coercion.attemptAll, first]
    simp only [outcome_bind, others]
    rfl

/-- Parts are gathered if each of them gives a value. -/
theorem gather_iff {path : Path} {parts : List (Coercion α)} :
    (Coercion.gather path parts).Succeeds ↔ ∀ part ∈ parts, part.Succeeds := by
  constructor
  · rintro ⟨values, gathered⟩ part among
    exact exists_of_gather gathered part among
  · intro each
    obtain ⟨values, attempted⟩ := attemptAll each
    refine ⟨values, ?_⟩
    rw [gather_eq, outcome_bind, attempted]
    rfl

end Succeeds

end Coercion

/-- The input fields of a type. -/
def TypeDefinition.inputFields : TypeDefinition → List Argument
  | .input type => type.fields
  | _ => []

/-- The arguments and input fields that the types and directives of a registry declare. -/
def Registry.declaredInputs (registry : Registry) : List Argument :=
  registry.types.flatMap (fun type => type.outputFields.flatMap Field.args ++ type.inputFields) ++
    registry.directives.flatMap Directive.args

/-- The arguments of a field of a registered type are declared. -/
theorem Registry.mem_declaredInputs {registry : Registry} {type : TypeDefinition} {field : Field}
    {arg : Argument} (registered : type ∈ registry.types) (declared : field ∈ type.outputFields)
    (takes : arg ∈ field.args) : arg ∈ registry.declaredInputs := by
  refine List.mem_append_left _ (List.mem_flatMap.mpr ⟨type, registered, ?_⟩)
  exact List.mem_append_left _ (List.mem_flatMap.mpr ⟨field, declared, takes⟩)

namespace CoercionContext

open Coercion (Succeeds)

variable {context : CoercionContext} {depth : Nat} {literals : Entries Value}
  {arg other : Argument} {raw : Value} {path : Path}

/-- Every declared default coerces at its own type. -/
def DefaultsCoerce (context : CoercionContext) (depth : Nat) : Prop :=
  ∀ arg ∈ context.registry.declaredInputs, arg.hasDefault = true →
    (context.coerce depth arg.type arg.default [.key arg.name]).Succeeds

/-- An argument may be left out: its default coerces or, without one, it admits null. -/
def MayOmit (context : CoercionContext) (depth : Nat) (arg : Argument) : Prop :=
  if arg.hasDefault then (context.coerce depth arg.type arg.default [.key arg.name]).Succeeds
  else arg.type.isNonNull = false

/-- What literals supply to an argument, if anything, coerces at its type. -/
def Fits (context : CoercionContext) (depth : Nat) (literals : Entries Value) (arg : Argument) :
    Prop :=
  ∀ raw, Entries.get? literals arg.name = some raw → context.isUnsupplied raw = false →
    raw.isUndefined = false → (context.coerce depth arg.type raw [.key arg.name]).Succeeds

/-- Literals give a value to an argument. -/
def Supplied (context : CoercionContext) (depth : Nat) (literals : Entries Value)
    (arg : Argument) : Prop :=
  ∃ raw value, Entries.get? literals arg.name = some raw ∧ context.isUnsupplied raw = false ∧
    raw.isUndefined = false ∧
    (context.coerce depth arg.type raw [.key arg.name]).outcome = .ok value ∧
    value.isUndefined = false

theorem mayOmit_of_default (has : arg.hasDefault = true)
    (default : (context.coerce depth arg.type arg.default [.key arg.name]).Succeeds) :
    context.MayOmit depth arg := by
  unfold MayOmit
  rwa [if_pos has]

theorem mayOmit_of_nullable (hasNone : ¬arg.hasDefault = true)
    (admits : arg.type.isNonNull = false) : context.MayOmit depth arg := by
  unfold MayOmit
  rwa [if_neg hasNone]

/-- Only an argument with a default may be left out where null is excluded. -/
theorem MayOmit.hasDefault (mayOmit : context.MayOmit depth arg)
    (required : arg.type.isNonNull = true) : arg.hasDefault = true := by
  unfold MayOmit at mayOmit
  split at mayOmit
  · next has => exact has
  · rw [required] at mayOmit
    cases mayOmit

theorem succeeds_absent_iff :
    (absent (context.coerce depth) arg [.key arg.name]
      (argumentPart.missing arg [.key arg.name])).Succeeds ↔ context.MayOmit depth arg := by
  unfold absent MayOmit
  split
  · exact Succeeds.map_iff
  · split
    · next required => simp [argumentPart.missing, Succeeds.not_fail, required]
    · next admits => exact iff_of_true ⟨none, rfl⟩ (eq_false_of_ne_true admits)

/-- A supplied raw value has to coerce; where nothing comes of it, the argument is left out. -/
theorem succeeds_member_iff (given : raw.isUndefined = false) :
    (member (context.coerce depth) arg raw [.key arg.name]
      (argumentPart.missing arg [.key arg.name])).Succeeds ↔
      ∃ value, (context.coerce depth arg.type raw [.key arg.name]).outcome = .ok value ∧
        (value.isUndefined = false ∨ context.MayOmit depth arg) := by
  unfold member
  rw [if_neg (Bool.eq_false_iff.mp given), Succeeds.bind_iff]
  refine exists_congr fun value => and_congr_right fun _ => ?_
  split
  · next nothing => simp [nothing, succeeds_absent_iff]
  · next something =>
    have known : value.isUndefined = false := eq_false_of_ne_true something
    exact iff_of_true ⟨_, rfl⟩ (Or.inl known)

/-- Without a supplied raw value an argument is left out. -/
theorem succeeds_argumentPart_of_omitted
    (omitted : ∀ raw, Entries.get? literals arg.name = some raw →
      context.isUnsupplied raw = true ∨ raw.isUndefined = true) :
    (context.argumentPart depth literals arg).Succeeds ↔ context.MayOmit depth arg := by
  rw [← succeeds_absent_iff]
  cases given : Entries.get? literals arg.name with
  | none => rw [argumentPart_of_none given]
  | some raw =>
    cases unsupplied : context.isUnsupplied raw with
    | true => exact Succeeds.of_alike (alike_argumentPart_of_isUnsupplied depth given unsupplied)
    | false =>
      have nothing : raw.isUndefined = true := by
        rcases omitted raw given with missing | nothing
        · rw [unsupplied] at missing
          cases missing
        · exact nothing
      rw [argumentPart_of_supplied given unsupplied, member, if_pos nothing]

/-- An argument coerces if what is supplied to it does, and it is given a value or may be left
out. -/
theorem succeeds_argumentPart_iff :
    (context.argumentPart depth literals arg).Succeeds ↔
      context.Fits depth literals arg ∧
        (context.Supplied depth literals arg ∨ context.MayOmit depth arg) := by
  by_cases given : ∃ raw, Entries.get? literals arg.name = some raw ∧
      context.isUnsupplied raw = false ∧ raw.isUndefined = false
  · obtain ⟨raw, given, supplied, defined⟩ := given
    rw [argumentPart_of_supplied given supplied, succeeds_member_iff defined]
    constructor
    · rintro ⟨value, coerced, goesOn⟩
      refine ⟨?_, goesOn.imp
        (fun present => ⟨raw, value, given, supplied, defined, coerced, present⟩) id⟩
      intro same found _ _
      cases given.symm.trans found
      exact ⟨value, coerced⟩
    · rintro ⟨fits, goesOn⟩
      obtain ⟨value, coerced⟩ := fits raw given supplied defined
      refine ⟨value, coerced, goesOn.imp_left ?_⟩
      rintro ⟨same, result, found, _, _, resulted, present⟩
      cases given.symm.trans found
      cases coerced.symm.trans resulted
      exact present
  · have omitted : ∀ raw, Entries.get? literals arg.name = some raw →
        context.isUnsupplied raw = true ∨ raw.isUndefined = true := by
      intro raw found
      by_contra neither
      rw [not_or, Bool.not_eq_true, Bool.not_eq_true] at neither
      exact given ⟨raw, found, neither⟩
    rw [succeeds_argumentPart_of_omitted omitted]
    constructor
    · intro mayOmit
      refine ⟨fun raw found supplied defined => ?_, Or.inr mayOmit⟩
      exact absurd ⟨raw, found, supplied, defined⟩ given
    · rintro ⟨_, ⟨raw, _, found, supplied, defined, _⟩ | mayOmit⟩
      · exact absurd ⟨raw, found, supplied, defined⟩ given
      · exact mayOmit

/-- Arguments coerce if each of them does. -/
theorem succeeds_coerceArguments_iff {args : List Argument} :
    (context.coerceArguments depth args literals).Succeeds ↔
      ∀ arg ∈ args, (context.argumentPart depth literals arg).Succeeds := by
  have steps : context.coerceArguments depth args literals =
      (Entries.ofList <| ·.filterMap id) <$>
        Coercion.gather [] (args.map (context.argumentPart depth literals)) := rfl
  rw [steps, Succeeds.map_iff, Succeeds.gather_iff, List.forall_mem_map]

/-- What is supplied depends on the name and the type of an argument alone. -/
theorem Fits.of_agrees (fits : context.Fits depth literals other) (named : arg.name = other.name)
    (typed : arg.type = other.type) : context.Fits depth literals arg := by
  unfold Fits
  rwa [named, typed]

theorem Supplied.of_agrees (supplied : context.Supplied depth literals other)
    (named : arg.name = other.name) (typed : arg.type = other.type) :
    context.Supplied depth literals arg := by
  unfold Supplied
  rwa [named, typed]

/-- An argument coerces if one of the same name and type does, unless the other one is left out and
only that one has a default. -/
theorem succeeds_argumentPart_of_agrees (named : arg.name = other.name)
    (typed : arg.type = other.type)
    (default : arg.hasDefault = true →
      (context.coerce depth arg.type arg.default [.key arg.name]).Succeeds)
    (kept : other.type.isNonNull = true → other.hasDefault = true →
      context.Supplied depth literals other ∨ arg.hasDefault = true)
    (succeeds : (context.argumentPart depth literals other).Succeeds) :
    (context.argumentPart depth literals arg).Succeeds := by
  rw [succeeds_argumentPart_iff] at succeeds ⊢
  obtain ⟨fits, goesOn⟩ := succeeds
  refine ⟨fits.of_agrees named typed, ?_⟩
  rcases goesOn with supplied | mayOmit
  · exact Or.inl (supplied.of_agrees named typed)
  · by_cases has : arg.hasDefault = true
    · exact Or.inr (mayOmit_of_default has (default has))
    · cases required : other.type.isNonNull with
      | false => exact Or.inr (mayOmit_of_nullable has (typed ▸ required))
      | true =>
        have otherHas : other.hasDefault = true := mayOmit.hasDefault required
        have supplied := (kept required otherHas).resolve_right has
        exact Or.inl (supplied.of_agrees named typed)

end CoercionContext

/-- An object type has each field of an interface for which it is possible, and that field provides
what the interface asks for. -/
theorem Registry.Accepted.exists_provides {registry : Registry} (accepted : registry.Accepted)
    {name : String} {interface : InterfaceType} {object : ObjectType} {wanted : Field}
    (registered : registry.type? name = some (.interface interface))
    (possible : object ∈ registry.possibleTypes name) (declared : wanted ∈ interface.fields) :
    ∃ own, (TypeDefinition.object object).field? wanted.name = some own ∧
      own.Provides registry.type? wanted := by
  obtain ⟨found, isPossible⟩ := Registry.of_mem_possibleTypes possible
  have admitted : registry.CanBe name object := Or.inr ⟨_, registered, rfl, found, isPossible⟩
  have listed := accepted.listed_of_canBe registered admitted
  obtain ⟨silent, _⟩ := accepted.interfaceProblems_eq_nil (Registry.mem_of_type? found) listed
  obtain ⟨other, otherFound, fulfils⟩ := Validation.interfaceProblems_eq_nil_iff.mp silent
  cases registered.symm.trans otherFound
  exact fulfils.fields wanted declared

namespace CoercionContext

open Coercion (Succeeds)

variable {context : CoercionContext}

/-- An object type accepts every call that an interface for which it is possible accepts, if its
arguments are told apart by their names, all declared defaults coerce, what only the interface has a
default for is supplied, and what is supplied to additional arguments fits them. -/
theorem coerceArguments_of_interface (accepted : context.registry.Accepted) {depth : Nat}
    (defaults : context.DefaultsCoerce depth) {name : String} {interface : InterfaceType}
    (registered : context.registry.type? name = some (.interface interface)) {object : ObjectType}
    (possible : object ∈ context.registry.possibleTypes name) {wanted : Field}
    (declared : wanted ∈ interface.fields) :
    ∃ own, (TypeDefinition.object object).field? wanted.name = some own ∧
      ((own.args.map Argument.name).Nodup → ∀ literals : Entries Value,
        (∀ arg ∈ wanted.args, arg.type.isNonNull = true → arg.hasDefault = true →
          context.Supplied depth literals arg ∨
            ∃ other ∈ own.args, other.name = arg.name ∧ other.hasDefault = true) →
        (∀ arg ∈ own.args, Member.find? wanted.args arg.name = none →
          context.Fits depth literals arg) →
        (context.coerceArguments depth wanted.args literals).Succeeds →
        (context.coerceArguments depth own.args literals).Succeeds) := by
  obtain ⟨own, found, provides⟩ := accepted.exists_provides registered possible declared
  refine ⟨own, found, fun distinct literals kept additional succeeds => ?_⟩
  have objectRegistered := (Registry.of_mem_possibleTypes possible).1
  have default : ∀ arg ∈ own.args, arg.hasDefault = true →
      (context.coerce depth arg.type arg.default [.key arg.name]).Succeeds := fun arg takes =>
    defaults arg (Registry.mem_declaredInputs (Registry.mem_of_type? objectRegistered)
      (List.mem_of_find?_eq_some found) takes)
  rw [succeeds_coerceArguments_iff] at succeeds ⊢
  intro arg takes
  cases shared : Member.find? wanted.args arg.name with
  | none =>
    refine succeeds_argumentPart_iff.mpr ⟨additional arg takes shared, Or.inr ?_⟩
    by_cases has : arg.hasDefault = true
    · exact mayOmit_of_default has (default arg takes has)
    · refine mayOmit_of_nullable has ?_
      rcases provides.optional arg takes with asked | admits | hasDefault
      · rw [shared] at asked
        cases asked
      · exact admits
      · exact absurd hasDefault has
  | some asked =>
    have among : asked ∈ wanted.args := List.mem_of_find?_eq_some shared
    have named : asked.name = arg.name := key_of_find? shared
    have itself : ∀ other ∈ own.args, other.name = asked.name → other = arg :=
      fun other there same => List.inj_on_of_nodup_map distinct there takes (same.trans named)
    obtain ⟨same, provided, typed⟩ := provides.args asked among
    rw [itself same (List.mem_of_find?_eq_some provided) (key_of_find? provided)] at typed
    refine succeeds_argumentPart_of_agrees named.symm typed (default arg takes) ?_
      (succeeds asked among)
    intro required has
    refine (kept asked among required has).imp_right ?_
    rintro ⟨other, there, sameName, otherHas⟩
    rwa [itself other there sameName] at otherHas

/-- What a library asks of everything that can be searched. -/
def searchableType : InterfaceType where
  name := "Searchable"
  fields := [{
    name := "search"
    type := .named "Int"
    args := [
      { name := "text", type := .named "String" true },
      { name := "limit", type := .named "Int" true, default := .int 10 }] }]

/-- A shelf can be searched floor by floor, but has to be told a limit. -/
def shelfType : ObjectType where
  name := "Shelf"
  fields := [{
    name := "search"
    type := .named "Int"
    args := [
      { name := "floor", type := .named "Int", default := .int 1 },
      { name := "text", type := .named "String" true },
      { name := "limit", type := .named "Int" true }] }]
  interfaces := [.named "Searchable"]

/-- A schema of what can be searched. -/
def librarySchema : Schema where
  query := some (.definition (.object {
    name := "Query"
    fields := [{ name := "find", type := .named "Searchable" }] }))
  types := [.definition (.interface searchableType), .definition (.object shelfType)]

/-- Coercion in its registry, where a text is supplied. -/
def libraryContext : CoercionContext where
  registry := librarySchema.tableWithin 100
  convert := fun _ value => .ok value
  variableValues := [("words", .str "lean")]

theorem accepted_libraryContext : libraryContext.registry.Accepted :=
  Schema.accepted_of_soundWithin (by decide +kernel)

theorem defaultsCoerce_libraryContext : libraryContext.DefaultsCoerce 2 := by
  unfold DefaultsCoerce
  decide +kernel

/-- What the interface has a default for is supplied, and so is a floor, which is a number. -/
theorem coerceArguments_of_interface_shelf :
    libraryContext.registry.Accepted ∧ libraryContext.DefaultsCoerce 2 ∧
      ∃ own, (TypeDefinition.object shelfType).field? "search" = some own ∧
        (libraryContext.coerceArguments 2 own.args
          [("limit", .int 3), ("floor", .int 2), ("text", .var "words")]).Succeeds := by
  have registered : libraryContext.registry.type? "Searchable" =
      some (.interface searchableType) := rfl
  have possible : shelfType ∈ libraryContext.registry.possibleTypes "Searchable" := by
    rw [Registry.mem_possibleTypes_iff rfl]
    decide +kernel
  obtain ⟨own, found, accepts⟩ := coerceArguments_of_interface accepted_libraryContext
    defaultsCoerce_libraryContext registered possible List.mem_cons_self
  refine ⟨accepted_libraryContext, defaultsCoerce_libraryContext, own, found, ?_⟩
  cases found
  refine accepts (by decide) _ ?_ ?_ (by decide +kernel)
  · intro arg takes _ has
    rcases List.mem_cons.mp takes with rfl | takes
    · cases has
    · cases List.mem_singleton.mp takes
      exact Or.inl ⟨.int 3, .int 3, rfl, rfl, rfl, rfl, rfl⟩
  · intro arg takes other raw given _ _
    rcases List.mem_cons.mp takes with rfl | takes
    · cases given
      exact ⟨.int 2, rfl⟩
    · rcases List.mem_cons.mp takes with rfl | takes
      · cases other
      · cases List.mem_singleton.mp takes
        cases other

/-- The interface accepts a search of all floors, since it does not look at floors, and one without
a limit, since it has a default for it; a shelf accepts neither. -/
theorem coerceArguments_refused_by_shelf :
    libraryContext.registry.Accepted ∧ libraryContext.DefaultsCoerce 2 ∧
      libraryContext.registry.type? "Searchable" = some (.interface searchableType) ∧
      shelfType ∈ libraryContext.registry.possibleTypes "Searchable" ∧
      ∃ wanted own, (TypeDefinition.interface searchableType).field? "search" = some wanted ∧
        (TypeDefinition.object shelfType).field? "search" = some own ∧
        ∀ literals ∈ [[("text", .str "lean"), ("limit", .int 3), ("floor", .str "all")],
            [("text", .str "lean")]],
          (libraryContext.coerceArguments 2 wanted.args literals).Succeeds ∧
            ¬(libraryContext.coerceArguments 2 own.args literals).Succeeds := by
  have possible : shelfType ∈ libraryContext.registry.possibleTypes "Searchable" := by
    rw [Registry.mem_possibleTypes_iff rfl]
    decide +kernel
  refine ⟨accepted_libraryContext, defaultsCoerce_libraryContext, rfl, possible, _, _, rfl, rfl, ?_⟩
  intro literals among
  rcases List.mem_cons.mp among with rfl | among
  · decide +kernel
  · cases List.mem_singleton.mp among
    decide +kernel

end CoercionContext

end GraphQL
