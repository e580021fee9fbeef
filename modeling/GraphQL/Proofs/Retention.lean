import GraphQL.Proofs.InputPaths
import GraphQL.Proofs.Publication

/-!
# Coerced members are kept

Members are declared under identifiers, published under names, and handed on under keys of their
own. As long as no two of them share a key, none of them is lost in coercion: there is one entry for
each member that something was given for or that has a default, in the order of declaration, and
under the key of a member stands what was coerced for that very member. Members without sources of
their own do not share a key; but nothing keeps a source from being that of another member.
-/

namespace GraphQL

/-- What came of a member stands under its key. -/
def Argument.Labels (arg : Argument) (part : Option (String × Value)) : Prop :=
  ∀ entry, part = some entry → entry.1 = arg.key

section Parts

variable {args : List Argument} {parts : List (Option (String × Value))}
  (labels : List.Forall₂ Argument.Labels args parts)

include labels

theorem keys_subset_of_labels : ∀ key ∈ Entries.keys (parts.filterMap id),
    key ∈ args.map Argument.key := by
  induction labels with
  | nil => exact fun _ among => among
  | @cons arg part args parts label _ ih =>
    intro key among
    cases part with
    | none => exact List.mem_cons_of_mem _ (ih key among)
    | some entry =>
      rcases List.mem_cons.mp among with rfl | later
      · exact List.mem_cons.mpr (Or.inl (label entry rfl))
      · exact List.mem_cons_of_mem _ (ih key later)

/-- Under the key of a member stands what came of it. -/
theorem get?_of_labels (distinct : (args.map Argument.key).Nodup) :
    List.Forall₂ (fun arg part => Entries.get? (parts.filterMap id) arg.key = part.map Prod.snd)
      args parts := by
  induction labels with
  | nil => exact .nil
  | @cons arg part args parts label labels ih =>
    rw [List.map_cons, List.nodup_cons] at distinct
    obtain ⟨fresh, distinct⟩ := distinct
    cases part with
    | none =>
      refine .cons ?_ (ih distinct)
      exact Entries.get?_of_not_mem fun among => fresh (keys_subset_of_labels labels _ among)
    | some entry =>
      have same : entry.1 = arg.key := label entry rfl
      refine .cons ?_ (forall₂_imp_of_mem (ih distinct) fun other among part _ found => ?_)
      · rw [← same]
        exact Entries.get?_cons_self entry _
      · rw [← found]
        refine Entries.get?_cons_of_ne fun shared => fresh ?_
        rw [← same, shared]
        exact List.mem_map_of_mem among

/-- Nothing stands under the key of a member that came to nothing. -/
theorem contains_of_labels (distinct : (args.map Argument.key).Nodup) :
    List.Forall₂ (fun arg part => Entries.contains (parts.filterMap id) arg.key = part.isSome)
      args parts := by
  refine (get?_of_labels labels distinct).imp fun arg part found => ?_
  rw [Entries.contains_eq_isSome, found, Option.isSome_map]

/-- The keys are those of the members that came to something, in order. -/
theorem keys_of_labels {test : Argument → Bool}
    (tested : List.Forall₂ (fun arg part => test arg = part.isSome) args parts) :
    Entries.keys (parts.filterMap id) = (args.filter test).map Argument.key := by
  induction labels with
  | nil => rfl
  | @cons arg part args parts label _ ih =>
    obtain _ | ⟨here, later⟩ := tested
    cases part with
    | none =>
      rw [List.filter_cons_of_neg (by simp [here])]
      exact ih later
    | some entry =>
      rw [List.filter_cons_of_pos here, List.map_cons, ← label entry rfl, ← ih later]
      rfl

/-- Members with keys of their own are handed on as they come. -/
theorem membersOf_of_labels (distinct : (args.map Argument.key).Nodup) :
    CoercionContext.membersOf parts = parts.filterMap id := by
  refine Entries.ofList_of_nodup ?_
  rw [keys_of_labels labels (contains_of_labels labels distinct)]
  exact distinct.sublist (List.filter_sublist.map _)

end Parts

namespace Member

theorem key_of_source {arg : Argument} {source : String} (own : arg.source = some source)
    (proper : source ≠ "") : arg.key = source := by
  unfold Argument.key
  rw [own]
  split
  · next none => cases none
  · next empty => exact absurd (Option.some.inj empty) proper
  · next given => exact (Option.some.inj given).symm

/-- An argument is handed on under its source, or under its identifier. -/
theorem key_publish {identifier : String} {arg : Argument} (named : identifier ≠ "")
    (proper : arg.source ≠ some "") :
    (publish identifier arg).key = arg.source.getD identifier := by
  unfold publish
  dsimp only
  split
  · next own given =>
    have same : arg.source = some own := given
    have proper : own ≠ "" := fun empty => proper (same.trans (congrArg some empty))
    rw [same, Option.getD_some]
    split
    · exact key_of_source same proper
    · exact key_of_source rfl proper
  · next none =>
    have without : arg.source = .none := none
    rw [without]
    exact key_of_source rfl named

/-- The members of a type are handed on under their sources, or else under their identifiers. -/
theorem keys_of_publishAll {declared : List (String × Argument)} {args : List Argument}
    (published : publishAll declared = .ok args)
    (named : ∀ entry ∈ declared, entry.1 ≠ "" ∧ entry.2.source ≠ some "") :
    args.map Argument.key = declared.map fun entry => entry.2.source.getD entry.1 := by
  rw [(publishAll_eq_ok_iff.mp published).1, List.map_map]
  exact List.map_congr_left fun entry among =>
    key_publish (named entry among).1 (named entry among).2

end Member

namespace CoercionContext

variable {context : CoercionContext} {depth : Nat}

section Members

variable (context : CoercionContext) (depth : Nat)

/-- The value that is coerced for a member: what is given for it counts, or else its default. -/
inductive Gives (arg : Argument) (given : Option Value) (path : Path) : Value → Prop where
  | supplied {raw value : Value} :
      given = some raw → raw.isUndefined = false → context.isUnsupplied raw = false →
      (context.coerce depth arg.type raw path).outcome = .ok value → value.isUndefined = false →
      Gives arg given path value
  | defaulted {value : Value} :
      context.ComesToNothing depth arg given path → arg.hasDefault = true →
      (context.coerce depth arg.type arg.default path).outcome = .ok value →
      Gives arg given path value

/-- A mapping keeps what is coerced for members: it has one entry for each member that something is
given for or that has a default, in the order of declaration, and under the key of a member stands
the value that is coerced for it. -/
structure Keeps (args : List Argument) (given : Argument → Option Value) (place : Argument → Path)
    (mapping : Entries Value) : Prop where
  distinct : (Entries.keys mapping).Nodup
  keys : Entries.keys mapping =
    (args.filter fun arg => Entries.contains mapping arg.key).map Argument.key
  present : ∀ arg ∈ args, Entries.contains mapping arg.key = true ↔
    arg.hasDefault = true ∨ ¬ context.ComesToNothing depth arg (given arg) (place arg)
  reads : ∀ arg ∈ args, ∀ value, Entries.get? mapping arg.key = some value ↔
    context.Gives depth arg (given arg) (place arg) value

end Members

section Part

variable {arg : Argument} {given : Option Value} {path : Path} {missing : CoercionLeaf}
  {part : Option (String × Value)}
  (comes : context.MemberComes depth arg given path missing (.ok part))

include comes

/-- A member that succeeds comes to the value that is coerced for it, under its key, or to nothing
because nothing is given for it and it has no default. -/
theorem exists_gives :
    (part = none ∧ context.ComesToNothing depth arg given path ∧ arg.hasDefault = false) ∨
    ∃ value, part = some (arg.key, value) ∧ context.Gives depth arg given path value := by
  generalize ended : (Except.ok part : Except CoercionStop _) = outcome at comes
  cases comes with
  | supplied there defined supplied coerced present =>
    exact Or.inr ⟨_, Except.ok.inj ended, .supplied there defined supplied coerced present⟩
  | defaulted nothing has =>
    cases coerced : (context.coerce depth arg.type arg.default path).outcome with
    | error why =>
      rw [coerced] at ended
      cases ended
    | ok default =>
      rw [coerced] at ended
      exact Or.inr ⟨_, Except.ok.inj ended, .defaulted nothing has coerced⟩
  | omitted nothing has => exact Or.inl ⟨Except.ok.inj ended, nothing, has⟩
  | refused | required => cases ended

theorem labels_of_comes : arg.Labels part := by
  rintro entry rfl
  rcases exists_gives comes with ⟨none, _⟩ | ⟨value, same, _⟩
  · cases none
  · rw [Option.some.inj same]

/-- What a member comes to is the value that is coerced for it. -/
theorem gives_iff (value : Value) :
    part.map Prod.snd = some value ↔ context.Gives depth arg given path value := by
  constructor
  · intro found
    rcases exists_gives comes with ⟨rfl, _⟩ | ⟨own, rfl, gives⟩
    · cases found
    · cases found
      exact gives
  · intro gives
    have whole : context.MemberComes depth arg given path missing
        (.ok (some (arg.key, value))) := by
      cases gives with
      | supplied there defined supplied coerced present =>
        exact .supplied there defined supplied coerced present
      | defaulted nothing has coerced =>
        have defaulted : context.MemberComes depth arg given path missing _ :=
          .defaulted nothing has
        rwa [coerced] at defaulted
    rw [Except.ok.inj (comes.unique whole)]
    rfl

/-- A member that succeeds comes to something if something is given for it or it has a default. -/
theorem isSome_iff : part.isSome = true ↔
    arg.hasDefault = true ∨ ¬ context.ComesToNothing depth arg given path := by
  rcases exists_gives comes with ⟨rfl, nothing, has⟩ | ⟨value, rfl, gives⟩
  · simp [nothing, has]
  · refine iff_of_true rfl ?_
    cases gives with
    | supplied there defined supplied coerced present =>
      refine Or.inr fun nothing => ?_
      have undefined := nothing _ there defined supplied
      rw [coerced] at undefined
      cases undefined
      cases present
    | defaulted _ has => exact Or.inl has

end Part

/-- Members with keys of their own are kept. -/
theorem keeps_of_comes {args : List Argument} {given : Argument → Option Value}
    {place : Argument → Path} {leaf : Argument → CoercionLeaf}
    {parts : List (Option (String × Value))} (distinct : (args.map Argument.key).Nodup)
    (comes : List.Forall₂ (fun arg part =>
      context.MemberComes depth arg (given arg) (place arg) (leaf arg) (.ok part)) args parts) :
    context.Keeps depth args given place (membersOf parts) := by
  have labels : List.Forall₂ Argument.Labels args parts := comes.imp fun _ _ => labels_of_comes
  have keys := keys_of_labels labels (contains_of_labels labels distinct)
  -- What holds of a member by itself does not mention what it came to, which is forgotten.
  have each : ∀ arg ∈ args,
      (Entries.contains (parts.filterMap id) arg.key = true ↔
        arg.hasDefault = true ∨ ¬ context.ComesToNothing depth arg (given arg) (place arg)) ∧
      ∀ value, Entries.get? (parts.filterMap id) arg.key = some value ↔
        context.Gives depth arg (given arg) (place arg) value := by
    intro arg among
    have together := List.Forall₂.mp (fun _ _ => And.intro) comes (get?_of_labels labels distinct)
    obtain ⟨part, _, came, found⟩ := exists_mem_of_forall₂ together.flip among
    rw [Entries.contains_eq_isSome, found, Option.isSome_map]
    exact ⟨isSome_iff came, gives_iff came⟩
  rw [membersOf_of_labels labels distinct]
  refine ⟨?_, keys, fun arg among => (each arg among).1, fun arg among => (each arg among).2⟩
  rw [keys]
  exact distinct.sublist (List.filter_sublist.map _)

/-- What is supplied for the members of a mapping, and where. -/
def KeepsAt (context : CoercionContext) (depth : Nat) (args : List Argument)
    (entries : Entries Value) (path : Path) : Entries Value → Prop :=
  context.Keeps depth args (fun arg => Entries.get? entries arg.name)
    (fun arg => path ++ [.key arg.name])

theorem keeps_of_coerceArguments {args : List Argument}
    (distinct : (args.map Argument.key).Nodup) {literals mapping : Entries Value}
    (coerced : (context.coerceArguments depth args literals).outcome = .ok mapping) :
    context.KeepsAt depth args literals [] mapping := by
  have whole : context.coerceArguments depth args literals =
      membersOf <$> Coercion.gather [] (args.map (context.argumentPart depth literals)) := rfl
  rw [whole] at coerced
  obtain ⟨parts, gathered, rfl⟩ := Coercion.exists_of_outcome_map coerced
  have ended := List.forall₂_map_left_iff.mp (Coercion.forall₂_of_gather gathered)
  have comes : List.Forall₂ (fun arg part => context.MemberComes depth arg
      (Entries.get? literals arg.name) [.key arg.name]
      (context.missingArgument arg (Entries.get? literals arg.name)) (.ok part)) args parts := by
    refine ended.imp fun arg part ended => ?_
    rw [← ended]
    exact memberComes_argumentPart literals arg
  exact keeps_of_comes distinct comes

/-- What stands for a mapping is coerced to an input object field by field. -/
theorem IsObject.coerce_eq (settles : context.Settles) {name : String} {nonNull : Bool}
    {raw : Value} {type : InputType} {entries : Entries Value}
    (object : context.IsObject name nonNull raw type entries) (depth : Nat) (path : Path) :
    context.coerce (depth + 1) (.named name nonNull) raw path =
      (fun parts => Value.map (membersOf parts)) <$> Coercion.gather path
        (type.fields.map (context.fieldPart (context.coerce depth) type entries path) ++
          (unknownKeys type entries).map (context.unknownPart type path)) := by
  obtain ⟨found, opens, shown⟩ := object
  have inside : context.coerce (depth + 1) (.named name nonNull) raw path =
      context.coerceInside (context.coerce depth) (.named name nonNull)
        (context.standsFor (.named name nonNull) raw) path := by
    cases nonNull with
    | false => exact coerceNullable_of_supplied opens.supplied opens.given
    | true =>
      have again : context.Opens (.named name true) (context.substitute raw) :=
        opens_of_map settles shown
      rw [coerce, coerceWith_of_nonNull rfl opens.supplied, coerceWith.required,
        opens.admitted rfl, if_neg Bool.false_ne_true,
        coerceNullable_of_supplied again.supplied again.given]
      rfl
  rw [inside, coerceInside, parseNamed, found, shown]
  rfl

theorem IsObject.keeps (settles : context.Settles) {name : String} {nonNull : Bool}
    {raw value : Value} {type : InputType} {entries : Entries Value}
    (object : context.IsObject name nonNull raw type entries)
    (distinct : (type.fields.map Argument.key).Nodup) {path : Path}
    (coerced : (context.coerce (depth + 1) (.named name nonNull) raw path).outcome = .ok value) :
    ∃ mapping, value = .map mapping ∧ context.KeepsAt depth type.fields entries path mapping := by
  rw [object.coerce_eq settles] at coerced
  obtain ⟨parts, gathered, rfl⟩ := Coercion.exists_of_outcome_map coerced
  refine ⟨_, rfl, ?_⟩
  have ended := Coercion.forall₂_of_gather gathered
  have declared := List.forall₂_take type.fields.length ended
  have others := List.forall₂_drop type.fields.length ended
  rw [List.take_left' (List.length_map _), List.forall₂_map_left_iff] at declared
  rw [List.drop_left' (List.length_map _)] at others
  have same : membersOf parts = membersOf (parts.take type.fields.length) := by
    unfold membersOf
    nth_rewrite 1 [← List.take_append_drop type.fields.length parts]
    rw [List.filterMap_append, filterMap_of_unknownPart others, List.append_nil]
  have comes : List.Forall₂ (fun field part => context.MemberComes depth field
      (Entries.get? entries field.name) (path ++ [.key field.name])
      ⟨.missingField type.name field.name field.type, path⟩ (.ok part))
      type.fields (parts.take type.fields.length) := by
    refine declared.imp fun field part ended => ?_
    rw [← ended]
    exact memberComes_fieldPart type entries path field
  rw [same]
  exact keeps_of_comes distinct comes

/-- No coerced member is lost where members are handed on under keys of their own. What arguments
are coerced to, and what a mapping is coerced to at an input object type, has exactly one entry for
each member that something is given for or that has a default; under the key of a member stands
what is coerced for it. The keys are the sources of the members, or else their identifiers. -/
theorem coerced_members_kept (settles : context.Settles) (depth : Nat) :
    (∀ args literals mapping, (args.map Argument.key).Nodup →
      (context.coerceArguments depth args literals).outcome = .ok mapping →
      context.KeepsAt depth args literals [] mapping) ∧
    (∀ name nonNull raw type entries path value,
      context.IsObject name nonNull raw type entries → (type.fields.map Argument.key).Nodup →
      (context.coerce (depth + 1) (.named name nonNull) raw path).outcome = .ok value →
      ∃ mapping, value = .map mapping ∧
        context.KeepsAt depth type.fields entries path mapping) ∧
    ∀ declared args, Member.publishAll declared = .ok args →
      (∀ entry ∈ declared, entry.1 ≠ "" ∧ entry.2.source ≠ some "") →
      args.map Argument.key = declared.map fun entry => entry.2.source.getD entry.1 := by
  refine ⟨fun _ _ _ distinct coerced => keeps_of_coerceArguments distinct coerced,
    fun _ _ _ _ _ _ _ object distinct coerced => object.keeps settles distinct coerced,
    fun _ _ published named => Member.keys_of_publishAll published named⟩

/-- The ends of a span: the first is declared with a source, the second has a default. -/
def spanDeclared : List (String × Argument) :=
  [("first_day", { type := .named "Int", source := some "start" }),
    ("last_day", { type := .named "Int", default := .int 7 })]

/-- The ends of a span as they are published. -/
def spanArgs : List Argument :=
  [{ type := .named "Int", name := "firstDay", source := some "start" },
    { type := .named "Int", default := .int 7, name := "lastDay", source := some "last_day" }]

/-- The ends of another span, the second of which has the identifier of the first for a source. -/
def clashDeclared : List (String × Argument) :=
  [("start", { type := .named "Int" }), ("stop", { type := .named "Int", source := some "start" })]

/-- These ends as they are published. -/
def clashArgs : List Argument :=
  [{ type := .named "Int", name := "start", source := some "start" },
    { type := .named "Int", name := "stop", source := some "start" }]

/-- A schema with both spans, as arguments and as input objects. -/
def spanSchema : Schema where
  query := some (.definition (.object {
    name := "Query"
    fields := [
      { name := "span", type := .named "Int", args := spanArgs },
      { name := "clash", type := .named "Int", args := clashArgs },
      { name := "both", type := .named "Int"
        args := [{ name := "span", type := .named "Span" },
          { name := "clash", type := .named "Clash" }] }] }))
  types := [.definition (.input { name := "Span", fields := spanArgs }),
    .definition (.input { name := "Clash", fields := clashArgs })]

/-- Coercion in its registry. -/
def spanContext : CoercionContext where
  registry := spanSchema.tableWithin 100
  convert := fun _ value => .ok value

/-- The end of a span is left to its default, and the start is kept under its source. -/
theorem coerced_members_kept_span :
    Member.publishAll spanDeclared = .ok spanArgs ∧
      spanArgs.map Argument.key = ["start", "last_day"] ∧
      (spanContext.coerceArguments 2 spanArgs [("firstDay", .int 1)]).outcome =
        .ok [("start", .int 1), ("last_day", .int 7)] ∧
      spanContext.KeepsAt 2 spanArgs [("firstDay", .int 1)] []
        [("start", .int 1), ("last_day", .int 7)] ∧
      ∃ mapping, spanContext.KeepsAt 2 spanArgs [("lastDay", .null)] [.index 0] mapping ∧
        mapping = [("last_day", .null)] := by
  have settles : spanContext.Settles := settles_of_id rfl
  obtain ⟨arguments, objects, keys⟩ := coerced_members_kept settles 2
  have published : Member.publishAll spanDeclared = .ok spanArgs := rfl
  have sources := keys _ _ published (by decide)
  have distinct : (spanArgs.map Argument.key).Nodup := by decide
  have object : spanContext.IsObject "Span" true (.map [("lastDay", .null)])
      { name := "Span", fields := spanArgs } [("lastDay", .null)] :=
    ⟨rfl, ⟨rfl, nofun, fun _ => rfl⟩, rfl⟩
  obtain ⟨mapping, same, kept⟩ := objects _ _ _ _ _ [.index 0] _ object distinct rfl
  cases same
  exact ⟨published, sources, rfl, arguments _ _ _ distinct rfl, _, kept, rfl⟩

/-- Both ends of a span are given, and one of them is lost: the constructor accepts two members that
are handed on under one key. -/
theorem coerced_member_lost_span :
    spanContext.registry.Accepted ∧ Member.publishAll clashDeclared = .ok clashArgs ∧
      (spanContext.coerceArguments 2 clashArgs [("start", .int 1), ("stop", .int 2)]).outcome =
        .ok [("start", .int 2)] ∧
      (spanContext.coerce 3 (.named "Clash") (.map [("start", .int 1), ("stop", .int 2)])
        []).outcome = .ok (.map [("start", .int 2)]) ∧
      (∀ arg ∈ clashArgs, ∃ value, spanContext.Gives 2 arg
        (Entries.get? [("start", .int 1), ("stop", .int 2)] arg.name) [.key arg.name] value) ∧
      ¬ spanContext.KeepsAt 2 clashArgs [("start", .int 1), ("stop", .int 2)] []
        [("start", .int 2)] := by
  refine ⟨Schema.accepted_of_soundWithin (by decide +kernel), rfl, rfl, rfl, ?_, ?_⟩
  · intro arg among
    rcases List.mem_pair.mp among with rfl | rfl
    · exact ⟨.int 1, .supplied rfl rfl rfl rfl rfl⟩
    · exact ⟨.int 2, .supplied rfl rfl rfl rfl rfl⟩
  · intro kept
    have keys := kept.keys
    revert keys
    decide

end CoercionContext

end GraphQL
