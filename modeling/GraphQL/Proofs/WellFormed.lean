import GraphQL.Registry.Validation

/-!
# Well-formed definitions

What a definition has to be among others, said without a table of them: sub-typing as a relation
between references, what an interface asks of the types that list it, and which members a type of
each kind may have. Validation finds no problem with exactly those tables and directives in which
everything is well-formed.
-/

namespace GraphQL

/-- The definitions by name. -/
abbrev Lookup := String → Option TypeDefinition

variable {types : Lookup} {table : List TypeDefinition}

/-- A reference leads to a definition that passes a test. -/
def TypeRef.LeadsTo (types : Lookup) (test : TypeDefinition → Bool) (ref : TypeRef) : Prop :=
  ∃ type, types ref.name = some type ∧ test type = true

/-- A reference may stand in for another one. -/
inductive SubType (types : Lookup) : TypeRef → TypeRef → Prop
  | same (ref : TypeRef) : SubType types ref ref
  | member {union : UnionType} {sub super : String} (found : types super = some (.union union))
      (inside : .named sub ∈ union.members) : SubType types (.named sub) (.named super)
  | listed {interface : InterfaceType} {type : TypeDefinition} {sub super : String}
      (found : types super = some (.interface interface)) (own : types sub = some type)
      (lists : .named super ∈ type.interfaces) : SubType types (.named sub) (.named super)
  | list {sub super : TypeRef} (items : SubType types sub super) :
      SubType types (.list sub) (.list super)
  | required {sub super : TypeRef} (inner : SubType types sub super) :
      SubType types sub.required super.required
  | stronger {sub super : TypeRef} (inner : SubType types sub super) :
      SubType types sub.required super

/-- A field may stand where an interface asks for another one. -/
structure Field.Provides (types : Lookup) (own wanted : Field) : Prop where
  type : SubType types own.type wanted.type
  args : ∀ arg ∈ wanted.args, ∃ other,
    Member.find? own.args arg.name = some other ∧ other.type = arg.type
  optional : ∀ arg ∈ own.args, (Member.find? wanted.args arg.name).isSome = true ∨
    arg.type.isNonNull = false ∨ arg.hasDefault = true

/-- A type has what an interface asks of the types that list it. -/
structure TypeDefinition.Fulfils (types : Lookup) (type : TypeDefinition)
    (interface : InterfaceType) : Prop where
  other : interface.name ≠ type.name
  transitive : ∀ ref ∈ interface.interfaces, ref ∈ type.interfaces
  fields : ∀ wanted ∈ interface.fields, ∃ own,
    type.field? wanted.name = some own ∧ own.Provides types wanted

/-- The fields of a type can be selected, and it conforms to what it lists. -/
structure TypeDefinition.Selectable (types : Lookup) (type : TypeDefinition) : Prop where
  inhabited : type.outputFields ≠ []
  output : ∀ field ∈ type.outputFields, field.type.LeadsTo types TypeDefinition.isOutput
  input : ∀ field ∈ type.outputFields, ∀ arg ∈ field.args,
    arg.type.LeadsTo types TypeDefinition.isInput
  interfaces : ∀ ref ∈ type.interfaces, ∃ interface,
    types ref.name = some (.interface interface) ∧ type.Fulfils types interface

/-- A type has members of the right kinds. -/
def TypeDefinition.WellFormed (types : Lookup) : TypeDefinition → Prop
  | .object type => (TypeDefinition.object type).Selectable types
  | .interface type => (TypeDefinition.interface type).Selectable types
  | .union type => type.members ≠ [] ∧ ∀ member ∈ type.members, ∃ object,
      types member.name = some (.object object)
  | .input type => ∀ field ∈ type.fields, field.type.LeadsTo types TypeDefinition.isInput
  | .enum type => type.values ≠ []
  | .scalar _ => True
  | .custom _ _ => False

/-- A directive has arguments of the right kind. -/
def Directive.WellFormed (types : Lookup) (directive : Directive) : Prop :=
  ∀ arg ∈ directive.args, arg.type.LeadsTo types TypeDefinition.isInput

/-! ## Sub-types -/

theorem TypeRef.eq_nullable_or_required (ref : TypeRef) :
    (ref = ref.nullable ∧ ref.isNonNull = false) ∨
      (ref = ref.nullable.required ∧ ref.isNonNull = true) := by
  cases ref with
  | named _ required | list _ required =>
    cases required with
    | false => exact Or.inl ⟨rfl, rfl⟩
    | true => exact Or.inr ⟨rfl, rfl⟩

namespace SubType

/-- Null may be excluded on the left alone or on both sides. -/
theorem of_nullable {sub super : TypeRef} (inner : SubType types sub.nullable super.nullable)
    (excludes : (!super.isNonNull || sub.isNonNull) = true) : SubType types sub super := by
  rcases sub.eq_nullable_or_required with ⟨own, ownNull⟩ | ⟨own, ownNull⟩ <;>
    rcases super.eq_nullable_or_required with ⟨other, otherNull⟩ | ⟨other, otherNull⟩ <;>
    rw [own, other]
  · exact inner
  · rw [ownNull, otherNull] at excludes
    cases excludes
  · exact inner.stronger
  · exact inner.required

end SubType

theorem namedSubType_iff {sub super : String} :
    namedSubType table sub super = true ↔
      (∃ union, lookupType? table super = some (.union union) ∧ .named sub ∈ union.members) ∨
      ∃ interface type, lookupType? table super = some (.interface interface) ∧
        lookupType? table sub = some type ∧ .named super ∈ type.interfaces := by
  unfold namedSubType
  split
  · next union found => simp [found]
  · next interface found =>
    cases own : lookupType? table sub with
    | none => simp [found]
    | some type => simp [found]
  · next noUnion noInterface =>
    simp only [Bool.false_eq_true, false_iff, not_or]
    refine ⟨fun ⟨union, found, _⟩ => noUnion union found, fun ⟨interface, _, found, _⟩ => ?_⟩
    exact noInterface interface found

theorem isSubType_self (ref : TypeRef) : isSubType table ref ref = true := by
  induction ref with
  | named name required => simp [isSubType]
  | list item required ih => simp [isSubType, ih]

theorem isSubType_required {sub super : TypeRef} (inner : isSubType table sub super = true) :
    isSubType table sub.required super.required = true ∧
      isSubType table sub.required super = true := by
  unfold isSubType at inner ⊢
  cases sub <;> cases super <;> simp_all [TypeRef.required, TypeRef.isNonNull]

/-- Sub-typing by a table is the relation. -/
theorem isSubType_iff {sub super : TypeRef} :
    isSubType table sub super = true ↔ SubType (lookupType? table) sub super := by
  constructor
  · intro standsIn
    induction sub generalizing super with
    | named name required =>
      unfold isSubType at standsIn
      obtain ⟨excludes, names⟩ := Bool.and_eq_true_iff.mp standsIn
      cases super with
      | list _ _ => cases names
      | named other _ =>
        refine SubType.of_nullable ?_ excludes
        rcases Bool.or_eq_true_iff.mp names with same | different
        · rw [eq_of_beq same]
          exact .same _
        · rcases namedSubType_iff.mp different with
            ⟨union, found, inside⟩ | ⟨interface, type, found, own, lists⟩
          · exact .member found inside
          · exact .listed found own lists
    | list item required ih =>
      unfold isSubType at standsIn
      obtain ⟨excludes, items⟩ := Bool.and_eq_true_iff.mp standsIn
      cases super with
      | named _ _ => cases items
      | list other _ => exact SubType.of_nullable (.list (ih items)) excludes
  · intro related
    have byName : ∀ {sub super : String}, namedSubType table sub super = true →
        isSubType table (.named sub) (.named super) = true := by
      intro sub super different
      simp [isSubType, TypeRef.isNonNull, different]
    induction related with
    | same ref => exact isSubType_self ref
    | member found inside => exact byName (namedSubType_iff.mpr (Or.inl ⟨_, found, inside⟩))
    | listed found own lists =>
      exact byName (namedSubType_iff.mpr (Or.inr ⟨_, _, found, own, lists⟩))
    | list items ih => simpa [isSubType, TypeRef.isNonNull] using ih
    | required inner ih => exact (isSubType_required ih).1
    | stronger inner ih => exact (isSubType_required ih).2

/-! ## Problems -/

namespace Validation

theorem demand_eq_nil_iff {holds : Bool} {problem : Problem} :
    demand holds problem = [] ↔ holds = true := by
  unfold demand
  split <;> simp_all

theorem underneath_iff {test : TypeDefinition → Bool} {ref : TypeRef} :
    underneath table test ref = true ↔ ref.LeadsTo (lookupType? table) test := by
  unfold underneath TypeRef.LeadsTo
  exact Option.any_eq_true _ _

/-- What passes a test for object types leads to one. -/
theorem underneath_object_iff {test : TypeDefinition → Bool} {ref : TypeRef}
    (tests : ∀ type, test type = true ↔ ∃ object, type = .object object) :
    underneath table test ref = true ↔
      ∃ object, lookupType? table ref.name = some (.object object) := by
  rw [underneath_iff]
  constructor
  · rintro ⟨type, found, passes⟩
    obtain ⟨object, rfl⟩ := (tests type).mp passes
    exact ⟨object, found⟩
  · rintro ⟨object, found⟩
    exact ⟨_, found, (tests _).mpr ⟨object, rfl⟩⟩

theorem fieldProblems_eq_nil_iff {type : String} {field : Field} :
    fieldProblems table type field = [] ↔
      field.type.LeadsTo (lookupType? table) TypeDefinition.isOutput ∧
        ∀ arg ∈ field.args, arg.type.LeadsTo (lookupType? table) TypeDefinition.isInput := by
  unfold fieldProblems
  simp only [List.append_eq_nil_iff, List.flatMap_eq_nil_iff, demand_eq_nil_iff, underneath_iff]

theorem argumentProblems_eq_nil_iff {expected found : FieldPlace} {field : Field}
    {arg : Argument} :
    argumentProblems expected found field arg = [] ↔ ∃ other,
      Member.find? field.args arg.name = some other ∧ other.type = arg.type := by
  unfold argumentProblems
  split
  · next missing => simp [missing]
  · next other found => simp [found, demand_eq_nil_iff]

theorem conformingFieldProblems_eq_nil_iff {type : TypeDefinition} {interface : String}
    {wanted : Field} :
    conformingFieldProblems table type interface wanted = [] ↔ ∃ own,
      type.field? wanted.name = some own ∧ own.Provides (lookupType? table) wanted := by
  unfold conformingFieldProblems
  dsimp only
  split
  · next missing => simp [missing]
  · next own found =>
    simp only [List.append_eq_nil_iff, List.flatMap_eq_nil_iff, demand_eq_nil_iff,
      argumentProblems_eq_nil_iff, isSubType_iff, Bool.or_eq_true, Bool.not_eq_true', found,
      Option.some.injEq, exists_eq_left', or_assoc]
    exact ⟨fun ⟨⟨type, args⟩, optional⟩ => ⟨type, args, optional⟩,
      fun provides => ⟨⟨provides.type, provides.args⟩, provides.optional⟩⟩

theorem interfaceProblems_eq_nil_iff {type : TypeDefinition} {ref : TypeRef} :
    interfaceProblems table type ref = [] ↔ ∃ interface,
      lookupType? table ref.name = some (.interface interface) ∧
        type.Fulfils (lookupType? table) interface := by
  unfold interfaceProblems
  split
  · next interface found =>
    rw [found]
    simp only [Option.some.injEq, TypeDefinition.interface.injEq, exists_eq_left']
    split
    · next same =>
      simp only [reduceCtorEq, false_iff]
      exact fun fulfils => fulfils.other (eq_of_beq same)
    · next different =>
      simp only [List.append_eq_nil_iff, List.flatMap_eq_nil_iff, demand_eq_nil_iff,
        conformingFieldProblems_eq_nil_iff, List.contains_iff_mem]
      exact ⟨fun ⟨transitive, fields⟩ => ⟨fun same => different (beq_iff_eq.mpr same), transitive,
        fields⟩, fun fulfils => ⟨fulfils.transitive, fulfils.fields⟩⟩
  · next noInterface =>
    simp only [reduceCtorEq, false_iff]
    exact fun ⟨interface, found, _⟩ => noInterface interface found

theorem selectableProblems_eq_nil_iff {type : TypeDefinition} :
    selectableProblems table type = [] ↔ type.Selectable (lookupType? table) := by
  unfold selectableProblems
  simp only [List.append_eq_nil_iff, List.flatMap_eq_nil_iff, demand_eq_nil_iff,
    fieldProblems_eq_nil_iff, interfaceProblems_eq_nil_iff, Bool.not_eq_true',
    List.isEmpty_eq_false_iff]
  constructor
  · rintro ⟨⟨inhabited, fields⟩, interfaces⟩
    exact ⟨inhabited, fun field among => (fields field among).1,
      fun field among => (fields field among).2, interfaces⟩
  · intro selectable
    exact ⟨⟨selectable.inhabited, fun field among =>
      ⟨selectable.output field among, selectable.input field among⟩⟩, selectable.interfaces⟩

theorem typeProblems_eq_nil_iff {type : TypeDefinition} :
    typeProblems table type = [] ↔ type.WellFormed (lookupType? table) := by
  unfold typeProblems TypeDefinition.WellFormed
  cases type with
  | object _ | interface _ => exact selectableProblems_eq_nil_iff
  | union union =>
    simp only [List.append_eq_nil_iff, List.flatMap_eq_nil_iff, demand_eq_nil_iff,
      Bool.not_eq_true', List.isEmpty_eq_false_iff]
    refine and_congr_right fun _ => forall₂_congr fun ref _ => underneath_object_iff fun type => ?_
    cases type with
    | object object => exact ⟨fun _ => ⟨object, rfl⟩, fun _ => rfl⟩
    | scalar _ | enum _ | interface _ | union _ | input _ | custom _ _ =>
      constructor
      · intro passes
        cases passes
      · rintro ⟨object, same⟩
        cases same
  | input input => simp only [List.flatMap_eq_nil_iff, demand_eq_nil_iff, underneath_iff]
  | enum enum => simp only [demand_eq_nil_iff, Bool.not_eq_true', List.isEmpty_eq_false_iff]
  | scalar _ => exact ⟨fun _ => trivial, fun _ => rfl⟩
  | custom _ _ =>
    refine ⟨fun silent => ?_, False.elim⟩
    cases silent

/-- Validation finds no problem exactly where everything is well-formed. -/
theorem problems_eq_nil_iff {directives : List Directive} :
    problems table directives = [] ↔
      (∀ type ∈ table, type.WellFormed (lookupType? table)) ∧
        ∀ directive ∈ directives, directive.WellFormed (lookupType? table) := by
  unfold problems directiveProblems Directive.WellFormed
  simp only [List.append_eq_nil_iff, List.flatMap_eq_nil_iff, typeProblems_eq_nil_iff,
    demand_eq_nil_iff, underneath_iff]

end Validation

/-! ## Obstacles -/

namespace TypeDefinition

/-- Whether a type is of one of the six kinds and lists interfaces and members by plain names. -/
def isPlain (type : TypeDefinition) : Bool :=
  type.kind?.isSome && type.interfaces.all (·.plainName?.isSome) &&
    match type with
    | union type => type.members.all (·.plainName?.isSome)
    | _ => true

/-- The references of a type that have to be plain names: its interfaces or its members. -/
def nominals : TypeDefinition → List TypeRef
  | union type => type.members
  | type => type.interfaces

theorem isPlain_iff {type : TypeDefinition} :
    type.isPlain = true ↔
      type.kind?.isSome = true ∧ ∀ ref ∈ type.nominals, ref.plainName?.isSome = true := by
  unfold isPlain nominals
  cases type <;> simp [interfaces]

end TypeDefinition

namespace Validation

theorem kindObstacles_eq_nil (kinds : ∀ type ∈ table, type.kind?.isSome = true) (ref : TypeRef) :
    kindObstacles table ref = [] := by
  unfold kindObstacles
  refine if_neg fun unkind => ?_
  obtain ⟨type, found, without⟩ := underneath_iff.mp unkind
  have kind := kinds type (mem_of_lookupType? found)
  rw [Option.isNone_iff_eq_none.mp without] at kind
  cases kind

/-- Each reference that is no plain name is an obstacle where names are listed. -/
theorem flatMap_nameObstacles (refs : List TypeRef) :
    refs.flatMap nameObstacles = (refs.filter (·.plainName?.isNone)).map .brokenReference := by
  induction refs with
  | nil => rfl
  | cons ref rest ih =>
    rw [List.flatMap_cons, ih, List.filter_cons]
    unfold nameObstacles
    split <;> rfl

/-- Where all types are of one of the six kinds, the obstacles in one are what it has to name and
does not. -/
theorem typeObstacles_of_kinds (kinds : ∀ type ∈ table, type.kind?.isSome = true)
    (type : TypeDefinition) :
    typeObstacles table type = type.nominals.flatMap nameObstacles := by
  have fields : ∀ field : Field, fieldObstacles table field = [] := by
    intro field
    unfold fieldObstacles
    simp only [kindObstacles_eq_nil kinds, List.nil_append, List.flatMap_eq_nil_iff, implies_true]
  unfold typeObstacles
  cases type with
  | object _ | interface _ =>
    dsimp only
    rw [List.flatMap_eq_nil_iff.mpr fun field _ => fields field]
    rfl
  | union _ => rfl
  | input _ => exact List.flatMap_eq_nil_iff.mpr fun field _ => kindObstacles_eq_nil kinds _
  | scalar _ | enum _ | custom _ _ => rfl

/-- Where all types are of one of the six kinds, validation is hindered by the first reference that
has to be a plain name and is none. -/
theorem obstacle?_of_kinds {directives : List Directive}
    (kinds : ∀ type ∈ table, type.kind?.isSome = true) :
    obstacle? table directives =
      ((table.flatMap TypeDefinition.nominals).find? (·.plainName?.isNone)).map
        .brokenReference := by
  have arguments : (directives.flatMap fun directive =>
      directive.args.flatMap fun arg => kindObstacles table arg.type) = [] := by
    simp only [kindObstacles_eq_nil kinds, List.flatMap_eq_nil_iff, implies_true]
  have types : typeObstacles table = fun type => type.nominals.flatMap nameObstacles :=
    funext (typeObstacles_of_kinds kinds)
  unfold obstacle?
  rw [arguments, types, List.append_nil, ← List.flatMap_assoc, flatMap_nameObstacles,
    List.head?_map, List.head?_filter]

/-- Nothing hinders the validation of types that are plain. -/
theorem obstacle?_eq_none {directives : List Directive}
    (plain : ∀ type ∈ table, type.isPlain = true) : obstacle? table directives = none := by
  rw [obstacle?_of_kinds fun type among => (TypeDefinition.isPlain_iff.mp (plain type among)).1,
    Option.map_eq_none_iff, List.find?_eq_none]
  intro ref listed broken
  obtain ⟨type, among, nominal⟩ := List.mem_flatMap.mp listed
  have named := (TypeDefinition.isPlain_iff.mp (plain type among)).2 ref nominal
  rw [Option.isNone_iff_eq_none.mp broken] at named
  cases named

end Validation

end GraphQL
