import GraphQL.Definition.Declaration
import GraphQL.Proofs.Naming
import GraphQL.Proofs.Run
import Mathlib.Data.List.Nodup

/-!
# Publishing members

Members are published when their public names are distinct, in the order in which they are declared
and each with a name and a source. A member that has both is published as it is, so that what has
been published may be published again under its names: a type is rebuilt from its own members.
-/

namespace GraphQL

/-- Members that have the name and the source they are given. -/
class LawfulMember (α : Type) [Member α] : Prop where
  name_relabel (member : α) (title source : String) :
    Member.name (Member.relabel member title source) = title
  source_relabel (member : α) (title source : String) :
    Member.source (Member.relabel member title source) = some source

instance : LawfulMember Argument where
  name_relabel _ _ _ := rfl
  source_relabel _ _ _ := rfl

instance : LawfulMember Field where
  name_relabel _ _ _ := rfl
  source_relabel _ _ _ := rfl

namespace Member

variable {α : Type} [Member α]

/-- Members under their names. -/
def keyed (members : List α) : List (String × α) :=
  members.map fun member => (name member, member)

/-- What is published for a list of declarations. -/
structure Publishes (declared : List (String × α)) (members : List α) : Prop where
  /-- Each member is its own declaration, in the place of that one. -/
  made : members = declared.map fun entry => publish entry.1 entry.2
  /-- Each member has the public name of its declaration. -/
  named : members.map name = declared.map fun entry => publicName entry.1 entry.2
  distinct : (members.map name).Nodup
  /-- Each member is found under its name. -/
  found : ∀ member ∈ members, find? members (name member) = some member
  sourced : ∀ member ∈ members, (source member).isSome
  /-- The members under their names are published as they are. -/
  again : publishAll (keyed members) = .ok members

section Names

theorem publicName_name (member : α) : publicName (name member) member = name member := by
  unfold publicName
  split
  · next empty =>
    rw [empty]
    rfl
  · rfl

theorem publish_of_source {member : α} (sourced : (source member).isSome) :
    publish (name member) member = member := by
  obtain ⟨own, given⟩ := Option.isSome_iff_exists.mp sourced
  unfold publish
  rw [given]
  exact if_pos (publicName_name member).symm

/-- A member is found under a name that no other has. -/
theorem find?_name_of_nodup {members : List α} (distinct : (members.map name).Nodup) {member : α}
    (among : member ∈ members) : find? members (name member) = some member := by
  obtain ⟨other, found⟩ : ∃ other, find? members (name member) = some other :=
    Option.isSome_iff_exists.mp (List.find?_isSome.mpr ⟨member, among, beq_self_eq_true _⟩)
  have same : name other = name member := by simpa using List.find?_some found
  rw [found, List.inj_on_of_nodup_map distinct (List.mem_of_find?_eq_some found) among same]

variable [LawfulMember α]

theorem name_publish (identifier : String) (member : α) :
    name (publish identifier member) = publicName identifier member := by
  unfold publish
  dsimp only
  split
  · split
    · next same => exact same
    · exact LawfulMember.name_relabel _ _ _
  · exact LawfulMember.name_relabel _ _ _

theorem isSome_source_publish (identifier : String) (member : α) :
    (source (publish identifier member)).isSome := by
  unfold publish
  dsimp only
  split
  · next own given =>
    split
    · exact Option.isSome_of_eq_some given
    · exact Option.isSome_of_eq_some (LawfulMember.source_relabel _ _ _)
  · exact Option.isSome_of_eq_some (LawfulMember.source_relabel _ _ _)

end Names

section Acceptance

variable [LawfulMember α] {declared : List (String × α)} {published members : List α}

theorem publishAfter_eq_ok_iff (distinct : (published.map name).Nodup) :
    publishAfter published declared = .ok members ↔
      members = published ++ declared.map (fun entry => publish entry.1 entry.2) ∧
        (members.map name).Nodup := by
  induction declared generalizing published with
  | nil =>
    rw [List.map_nil, List.append_nil]
    exact ⟨fun same => by cases same; exact ⟨rfl, distinct⟩, fun same => congrArg _ same.1.symm⟩
  | cons entry rest ih =>
    have assembled : published ++ (entry :: rest).map (fun entry => publish entry.1 entry.2) =
        published ++ [publish entry.1 entry.2] ++
          rest.map fun entry => publish entry.1 entry.2 := by
      rw [List.append_assoc, List.singleton_append, List.map_cons]
    unfold publishAfter
    dsimp only
    by_cases taken : publicName entry.1 entry.2 ∈ published.map name
    · rw [if_pos, assembled]
      · refine ⟨nofun, fun ⟨same, all⟩ => ?_⟩
        rw [same, List.map_append, List.map_append] at all
        have two := (List.nodup_append.mp (List.nodup_append.mp all).1).2.2
        refine absurd rfl (two _ taken _ ?_)
        rw [List.map_singleton, name_publish]
        exact List.mem_singleton_self _
      · obtain ⟨other, among, same⟩ := List.mem_map.mp taken
        exact List.any_eq_true.mpr ⟨other, among, beq_iff_eq.mpr same⟩
    · rw [if_neg, assembled, ih]
      · rw [List.map_append, List.map_singleton, name_publish, ← List.concat_eq_append]
        exact distinct.concat taken
      · intro hit
        obtain ⟨other, among, same⟩ := List.any_eq_true.mp hit
        exact taken (List.mem_map.mpr ⟨other, among, beq_iff_eq.mp same⟩)

/-- Members are published when their public names are distinct, and none but their declarations
are. -/
theorem publishAll_eq_ok_iff :
    publishAll declared = .ok members ↔
      members = declared.map (fun entry => publish entry.1 entry.2) ∧ (members.map name).Nodup :=
  publishAfter_eq_ok_iff List.nodup_nil

theorem nodup_of_publishAll (published : publishAll declared = .ok members) :
    (members.map name).Nodup :=
  (publishAll_eq_ok_iff.mp published).2

theorem map_name_map_publish (declared : List (String × α)) :
    (declared.map fun entry => publish entry.1 entry.2).map name =
      declared.map fun entry => publicName entry.1 entry.2 := by
  rw [List.map_map]
  exact List.map_congr_left fun entry _ => name_publish entry.1 entry.2

/-- Members with distinct names and a source each are published as they are. -/
theorem publishAll_keyed (distinct : (members.map name).Nodup)
    (sourced : ∀ member ∈ members, (source member).isSome) :
    publishAll (keyed members) = .ok members := by
  refine publishAll_eq_ok_iff.mpr ⟨?_, distinct⟩
  rw [keyed, List.map_map]
  exact (List.map_id members).symm.trans
    (List.map_congr_left fun member among => (publish_of_source (sourced member among)).symm)

theorem publishes_of_publishAll (published : publishAll declared = .ok members) :
    Publishes declared members := by
  obtain ⟨made, distinct⟩ := publishAll_eq_ok_iff.mp published
  have sourced : ∀ member ∈ members, (source member).isSome := fun member among => by
    rw [made] at among
    obtain ⟨entry, _, rfl⟩ := List.mem_map.mp among
    exact isSome_source_publish entry.1 entry.2
  exact
    { made
      named := made ▸ map_name_map_publish declared
      distinct
      found := fun _ among => find?_name_of_nodup distinct among
      sourced
      again := publishAll_keyed distinct sourced }

end Acceptance

end Member

/-! ## Rebuilding types -/

theorem DirectiveLocation.ofSymbol?_symbol (location : DirectiveLocation) :
    ofSymbol? location.symbol = some location := by
  cases location <;> rfl

theorem TypeRef.ofValue_typeRef (ref : TypeRef) : ofValue (.typeRef ref) = .ok ref :=
  rfl

theorem mapM_map_of_inverse {ε α β : Type} {parse : β → Except ε α} {print : α → β}
    (inverse : ∀ item, parse (print item) = .ok item) (items : List α) :
    (items.map print).mapM parse = .ok items := by
  induction items with
  | nil => rfl
  | cons item items ih =>
    rw [List.map_cons, List.mapM_cons, inverse, ih]
    rfl

section Rebuilding

open Member

variable {α : Type} [Member α] [LawfulMember α] {declared : List (String × α)} {members : List α}

theorem Member.publishAll_publishAll (published : publishAll declared = .ok members) :
    publishAll (keyed members) = .ok members :=
  (publishes_of_publishAll published).again

variable {args : List (String × Argument)} {fields : List (String × Field)}
  {interfaces : List Value}

theorem Field.declare_declare {field : TypeRef → Field} {type : Value} {built : Field}
    (done : Field.declare type field args = .ok built) :
    Field.declare (.typeRef built.type) (fun type => { built with type }) (keyed built.args) =
      .ok built := by
  obtain ⟨ref, -, done⟩ := exists_of_bind_eq_ok done
  obtain ⟨published, accepted, done⟩ := exists_of_bind_eq_ok done
  cases done
  unfold declare
  rw [publishAll_publishAll accepted]
  rfl

theorem ObjectType.declare_declare {type built : ObjectType}
    (done : type.declare fields interfaces = .ok built) :
    built.declare (keyed built.fields) (built.interfaces.map .typeRef) = .ok built := by
  obtain ⟨published, accepted, done⟩ := exists_of_bind_eq_ok done
  obtain ⟨refs, -, done⟩ := exists_of_bind_eq_ok done
  cases done
  unfold declare
  rw [publishAll_publishAll accepted, mapM_map_of_inverse TypeRef.ofValue_typeRef]
  rfl

theorem InterfaceType.declare_declare {type built : InterfaceType}
    (done : type.declare fields interfaces = .ok built) :
    built.declare (keyed built.fields) (built.interfaces.map .typeRef) = .ok built := by
  obtain ⟨published, accepted, done⟩ := exists_of_bind_eq_ok done
  obtain ⟨refs, -, done⟩ := exists_of_bind_eq_ok done
  cases done
  unfold declare
  rw [publishAll_publishAll accepted, mapM_map_of_inverse TypeRef.ofValue_typeRef]
  rfl

theorem InputType.declare_declare {type built : InputType}
    (done : type.declare args = .ok built) : built.declare (keyed built.fields) = .ok built := by
  obtain ⟨published, accepted, done⟩ := exists_of_bind_eq_ok done
  cases done
  unfold declare
  rw [publishAll_publishAll accepted]
  rfl

theorem Directive.declare_declare {directive built : Directive} {locations : List String}
    (done : directive.declare locations args = .ok built) :
    built.declare (built.locations.map DirectiveLocation.symbol) (keyed built.args) =
      .ok built := by
  obtain ⟨places, -, done⟩ := exists_of_bind_eq_ok done
  obtain ⟨published, accepted, done⟩ := exists_of_bind_eq_ok done
  cases done
  unfold declare
  rw [publishAll_publishAll accepted, mapM_map_of_inverse fun location => ?_]
  · rfl
  · rw [DirectiveLocation.ofSymbol?_symbol]

end Rebuilding

open Member in
/-- Publishing members is stable: what is published has names and sources and is published as it is,
so that all that has members is rebuilt from them. A name in camel case is its own camel case. -/
theorem publication_stable :
    (∀ (declared : List (String × Argument)) members, publishAll declared = .ok members →
      Publishes declared members) ∧
    (∀ (declared : List (String × Field)) members, publishAll declared = .ok members →
      Publishes declared members) ∧
    (∀ type field args built, Field.declare type field args = .ok built →
      Field.declare (.typeRef built.type) (fun type => { built with type }) (keyed built.args) =
        .ok built) ∧
    (∀ (type : ObjectType) fields interfaces built,
      type.declare fields interfaces = .ok built →
      built.declare (keyed built.fields) (built.interfaces.map .typeRef) = .ok built) ∧
    (∀ (type : InterfaceType) fields interfaces built,
      type.declare fields interfaces = .ok built →
      built.declare (keyed built.fields) (built.interfaces.map .typeRef) = .ok built) ∧
    (∀ (type : InputType) fields built, type.declare fields = .ok built →
      built.declare (keyed built.fields) = .ok built) ∧
    (∀ (directive : Directive) locations args built,
      directive.declare locations args = .ok built →
      built.declare (built.locations.map DirectiveLocation.symbol) (keyed built.args) =
        .ok built) ∧
    ∀ identifier, camelCase (camelCase identifier) = camelCase identifier ∧
      (camelCase identifier).toList.takeWhile (· == '_') =
        identifier.toList.takeWhile (· == '_') ∧
      Joined ((camelCase identifier).toList.dropWhile (· == '_')) := by
  refine ⟨fun _ _ => publishes_of_publishAll, fun _ _ => publishes_of_publishAll,
    fun _ _ _ _ => Field.declare_declare, fun _ _ _ _ => ObjectType.declare_declare,
    fun _ _ _ _ => InterfaceType.declare_declare, fun _ _ _ => InputType.declare_declare,
    fun _ _ _ _ => Directive.declare_declare, fun identifier => ?_⟩
  obtain ⟨_, lead, behind, joined, -⟩ := span_camelCaseChars identifier.toList
  refine ⟨?_, ?_, ?_⟩
  · unfold camelCase
    rw [String.toList_ofList, camelCaseChars_camelCaseChars]
  · rw [camelCase, String.toList_ofList, lead]
  · rw [camelCase, String.toList_ofList, behind]
    exact joined

/-- Two fields, one of which has a name of its own. -/
def personFields : List (String × Field) :=
  [("home_planet", { type := .named "String" }),
    ("url", { type := .named "String", name := "URL" })]

open Member in
/-- A type with both fields is rebuilt from them. -/
theorem publication_stable_person :
    ∃ built : ObjectType, ObjectType.declare { name := "Person" } personFields [] = .ok built ∧
      Publishes personFields built.fields ∧ built.fields.map name = ["homePlanet", "URL"] ∧
      built.declare (keyed built.fields) (built.interfaces.map .typeRef) = .ok built ∧
      camelCase (camelCase "__type_kind") = "__typeKind" := by
  obtain ⟨-, fields, -, objects, -, -, -, names⟩ := publication_stable
  obtain ⟨built, done⟩ :
      ∃ built, ObjectType.declare { name := "Person" } personFields [] = .ok built := ⟨_, rfl⟩
  refine ⟨built, done, ?_, ?_, objects _ _ _ _ done, (names _).1.trans (by decide)⟩
  · exact fields _ _ (by cases done; rfl)
  · cases done
    decide

end GraphQL
