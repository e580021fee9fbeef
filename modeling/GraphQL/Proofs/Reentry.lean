import GraphQL.Proofs.Conformance
import GraphQL.Proofs.Silence
import GraphQL.Proofs.Substitution
import GraphQL.Proofs.Symbols

/-!
# Leaves that are fed back

What a response shows of an enum or of a built-in scalar other than Float is taken as input of the
same type, and what it is coerced to is shown as before. The exception is a Boolean that stands for
an Int: it comes from a flag, and is refused.
-/

namespace GraphQL

variable {σ : Type}

/-- A keyword as the text that it is. -/
def Value.spoken : Value → Value
  | .keyword _ text => .str text
  | value => value

namespace BuiltinScalar

variable {scalar : BuiltinScalar} {value result : Value}

theorem convert_serialize (serialized : scalar.serialize value = .ok result) :
    scalar.convert .serialize value = .ok result := by
  unfold convert
  dsimp only
  rw [serialized]

theorem convert_parse (parsed : scalar.parse value = .ok result) :
    scalar.convert .parse value = .ok result := by
  unfold convert
  dsimp only
  rw [parsed]

theorem checkRange_of_holds {n : Int} (held : int.Holds (.int n)) :
    checkRange n = .ok (.int n) := by
  obtain ⟨low, high⟩ := held
  unfold checkRange
  rw [if_neg (Int.not_lt.mpr high), if_neg (Int.not_lt.mpr low)]

/-- A value of a scalar in a response is parsed, as a literal, to one that is serialized to it. Both
look the same wherever they are shown. -/
structure Returns (scalar : BuiltinScalar) (value : Value) : Prop where
  parse : scalar.parse value = .ok value.spoken
  serialize : scalar.serialize value.spoken = .ok value.spoken
  shown : ∀ change, (value.mapFaults change).plain = value
  spoken : ∀ change, (value.spoken.mapFaults change).plain = value.spoken
  constant : value.isVariable = false
  present : value.isNull = false ∧ value.spoken.isNull = false

/-- The values of the scalars other than Float return. -/
theorem Holds.returns (held : scalar.Holds value) (exact : scalar ≠ float) :
    scalar.Returns value := by
  cases scalar with
  | float => exact absurd rfl exact
  | int =>
    cases value with
    | int n =>
      exact ⟨checkRange_of_holds held, checkRange_of_holds held, fun _ => rfl, fun _ => rfl, rfl,
        rfl, rfl⟩
    | _ => cases held
  | string | boolean | id =>
    cases value <;> first
      | exact ⟨rfl, rfl, fun _ => rfl, fun _ => rfl, rfl, rfl, rfl⟩
      | cases held

/-- A flag is one whatever has become of the error objects in it. -/
theorem IsFlag.of_mapFaults {b : Bool} {change : Fault → Fault}
    (flag : IsFlag b (value.mapFaults change)) : IsFlag b value := by
  obtain ⟨enumeration, symbol, symbols, others, shows⟩ := flag
  cases value with
  | member _ _ behind _ _ =>
    injection shows with _ _ behindShows
    cases behind with
    | bool _ =>
      cases behindShows
      exact ⟨_, _, _, _, rfl⟩
    | _ => cases behindShows
  | _ => cases shows

end BuiltinScalar

/-! ## Coercing what is shown -/

/-- Coercing a literal at the type of a name gives a value, wherever that is done. -/
def Registry.Coerces (registry : Registry) (name : String) (literal value : Value) : Prop :=
  ∀ (context : CoercionContext) (depth : Nat) (required : Bool) (path : Path),
    context.registry = registry → context.Settles →
      (context.coerce (depth + 1) (.named name required) literal path).outcome = .ok value

/-- Coercing a literal at the type of a name fails, wherever that is done. -/
def Registry.Refuses (registry : Registry) (name : String) (literal : Value) : Prop :=
  ∀ (context : CoercionContext) (depth : Nat) (required : Bool) (path : Path),
    context.registry = registry → context.Settles →
      ∃ failure, (context.coerce (depth + 1) (.named name required) literal path).outcome =
        .error (.failed failure)

section

variable {registry : Registry} {name : String} {literal : Value} {context : CoercionContext}

/-- A literal that is neither null nor a variable is looked into. -/
theorem CoercionContext.coerce_literal (constant : literal.isVariable = false)
    (present : literal.isNull = false) (depth : Nat) (required : Bool) (path : Path) :
    context.coerce (depth + 1) (.named name required) literal path =
      context.parseNamed (context.coerce depth) name literal path := by
  have given : literal ≠ .null := by
    rintro rfl
    cases present
  exact coerceWith_inside constant given fun _ => present

theorem Registry.coerces_symbol {type : EnumType} {entry : EnumValue}
    (found : registry.type? name = some (.enum type))
    (known : type.valueFor? entry.symbol = some entry) :
    registry.Coerces name (.str entry.symbol) (type.internalValue entry) := by
  rintro context depth required path rfl settles
  have shown : (context.settle (.str entry.symbol)).text? = some entry.symbol :=
    settles.text? _
  rw [CoercionContext.coerce_literal rfl rfl, CoercionContext.parseNamed, found]
  dsimp only
  rw [CoercionContext.parseSymbol, shown, Option.bind_some, known]
  rfl

/-- A scalar gets a literal as it is, if that looks the same wherever it is shown. -/
theorem CoercionContext.apply_settle {scalar : BuiltinScalar} (settles : context.Settles)
    (shown : ∀ change, (literal.mapFaults change).plain = literal) :
    scalar.type.parse.apply context.convert (context.settle literal) =
      scalar.convert .parse literal := by
  obtain ⟨change, _, shows⟩ := settles
  show scalar.convert .parse (context.settle literal).plain = _
  rw [shows, shown]

theorem Registry.coerces_scalar {scalar : BuiltinScalar}
    (found : registry.type? scalar.name = some (.scalar scalar.type))
    (returns : scalar.Returns literal) :
    registry.Coerces scalar.name literal literal.spoken := by
  rintro context depth required path rfl settles
  rw [CoercionContext.coerce_literal returns.constant returns.present.1,
    CoercionContext.parseNamed, found]
  dsimp only
  rw [CoercionContext.parseScalar, CoercionContext.apply_settle settles returns.shown,
    BuiltinScalar.convert_parse returns.parse]
  rfl

/-- A Boolean is no Int. -/
theorem Registry.refuses_bool
    (found : registry.type? BuiltinScalar.int.name = some (.scalar BuiltinScalar.int.type))
    (b : Bool) : registry.Refuses BuiltinScalar.int.name (.bool b) := by
  rintro context depth required path rfl settles
  rw [CoercionContext.coerce_literal rfl rfl, CoercionContext.parseNamed, found]
  dsimp only
  rw [CoercionContext.parseScalar, CoercionContext.apply_settle settles fun _ => rfl]
  exact ⟨_, rfl⟩

end

/-- Whether all enums of a registry are as declared: with distinct symbols, whose values have no
parts and remember nothing. -/
def Registry.hasDeclaredEnums (registry : Registry) : Bool :=
  registry.types.all fun
    | .enum type =>
      decide (type.values.map EnumValue.symbol).Nodup && type.values.all fun entry =>
        match entry.value with
        | .list _ | .tuple _ | .map _ | .chosen .. => false
        | _ => true
    | _ => true

theorem Registry.isDeclared_of_hasDeclaredEnums {registry : Registry}
    (all : registry.hasDeclaredEnums = true) (name : String) (type : EnumType)
    (found : registry.type? name = some (.enum type)) : type.IsDeclared := by
  obtain ⟨distinct, simple⟩ := Bool.and_eq_true_iff.mp
    (List.all_eq_true.mp all _ (mem_of_lookupType? found))
  refine ⟨of_decide_eq_true distinct, fun entry among => ?_⟩
  have own := List.all_eq_true.mp simple entry among
  cases value : entry.value with
  | list _ | tuple _ | map _ | chosen _ _ _ =>
    rw [value] at own
    cases own
  | _ => rfl

/-! ## Completing what was coerced -/

namespace Environment

variable {env : Environment σ} {execute : ObjectExecution σ} {target : Target} {required : Bool}
  {name : String} {path : Path} {raw shown : Value} {before after : Executor σ}

variable (env) in
/-- Completing a value at the type of a name shows a value, wherever that is done. -/
def Completes (name : String) (value shown : Value) : Prop :=
  ∀ (execute : ObjectExecution σ) (target : Target) (required : Bool) (path : Path)
    (before : Executor σ),
      Exec.runFrom (env.complete execute target (.named name required) path value).run before =
        (.ok (.ok (.leaf shown)), before)

variable (env) in
/-- What is shown at the type of a name is taken as input there, and what it is coerced to is shown
as before. A keyword comes back as its text. -/
def FeedsBack (name : String) (shown : Value) : Prop :=
  ∃ value, env.registry.Coerces name shown value ∧ env.Completes name value shown.spoken

/-- What is shown as a leaf was not null. -/
theorem isNull_of_completed
    (completed : Exec.runFrom (env.complete execute target (.named name required) path raw).run
      before = (.ok (.ok (.leaf shown)), after)) : raw.isNull = false := by
  unfold complete at completed
  cases null : raw.isNull with
  | false => rfl
  | true =>
    rw [null, if_pos rfl] at completed
    unfold complete.completeNull at completed
    cases required with
    | true => cases completed
    | false => cases completed

theorem runFrom_complete_of_enum {type : EnumType}
    (found : env.registry.type? name = some (.enum type)) (present : raw.isNull = false)
    (before : Executor σ) :
    Exec.runFrom (env.complete execute target (.named name required) path raw).run before =
      Exec.runFrom (completeEnum type (before.world.settleValue raw)).run before := by
  unfold complete completeNamed
  rw [present, if_neg Bool.false_ne_true, Attempt.runFrom_get_bind]
  dsimp only
  rw [found]

theorem runFrom_complete_of_scalar {type : ScalarType}
    (found : env.registry.type? name = some (.scalar type)) (present : raw.isNull = false)
    (before : Executor σ) :
    Exec.runFrom (env.complete execute target (.named name required) path raw).run before =
      Exec.runFrom (env.completeScalar type (before.world.settleValue raw)).run before := by
  unfold complete completeNamed
  rw [present, if_neg Bool.false_ne_true, Attempt.runFrom_get_bind]
  dsimp only
  rw [found]

/-- A value that leads to a symbol, however it is shown, is completed to that. -/
theorem completes_symbol {type : EnumType} {value : Value} {symbol : String}
    (found : env.registry.type? name = some (.enum type)) (present : value.isNull = false)
    (leads : ∀ change : Fault → Fault,
      (∀ fault, (change fault).identity = fault.identity ∧ (change fault).kind = fault.kind) →
        type.symbolFor? (value.mapFaults change) = some symbol) :
    env.Completes name value (.str symbol) := by
  intro execute target required path before
  have symbolised : type.symbolFor? (before.world.settleValue value) = some symbol := by
    rw [World.settleValue_eq]
    exact leads _ before.world.settleFault_keeps
  rw [runFrom_complete_of_enum found present, completeEnum, symbolised]
  rfl

theorem completes_scalar {scalar : BuiltinScalar} {value : Value}
    (found : env.registry.type? scalar.name = some (.scalar scalar.type))
    (returns : scalar.Returns value) :
    env.Completes scalar.name value.spoken value.spoken := by
  intro execute target required path before
  have applied : scalar.type.serialize.apply env.behaviour.convert
      (before.world.settleValue value.spoken) = .ok value.spoken := by
    show scalar.convert .serialize (before.world.settleValue value.spoken).plain = _
    rw [World.settleValue_eq, returns.spoken]
    exact BuiltinScalar.convert_serialize returns.serialize
  rw [runFrom_complete_of_scalar found returns.present.2, completeScalar, applied]
  dsimp only
  rw [returns.present.2]
  rfl

/-- What is shown of an enum is fed back. -/
theorem feedsBack_symbol {type : EnumType} (found : env.registry.type? name = some (.enum type))
    (declared : type.IsDeclared) (genuine : type.IsGenuine raw)
    (completed : Exec.runFrom (env.complete execute target (.named name required) path raw).run
      before = (.ok (.ok (.leaf shown)), after)) : env.FeedsBack name shown := by
  have present := isNull_of_completed completed
  rw [runFrom_complete_of_enum found present, completeEnum, World.settleValue_eq] at completed
  split at completed
  · next symbol symbolised =>
    cases completed
    obtain ⟨entry, among, rfl, leads, null⟩ := declared.exists_of_symbolFor? genuine symbolised
    refine ⟨type.internalValue entry,
      Registry.coerces_symbol found (declared.valueFor?_symbol among), ?_⟩
    refine completes_symbol found ?_ fun change keeps =>
      declared.symbolFor?_internalValue keeps among leads
    rw [EnumType.isNull_internalValue]
    exact eq_false_of_ne_true fun isNull => by simp [null isNull] at present
  · cases completed

/-- What a built-in scalar shows is what it serializes. -/
theorem serialize_of_completed {scalar : BuiltinScalar}
    (found : env.registry.type? name = some (.scalar scalar.type))
    (completed : Exec.runFrom (env.complete execute target (.named name required) path raw).run
      before = (.ok (.ok (.leaf shown)), after)) :
    scalar.serialize (raw.plain.mapFaults before.world.settleFault) = .ok shown := by
  have present := isNull_of_completed completed
  rw [runFrom_complete_of_scalar found present, completeScalar, World.settleValue_eq] at completed
  split at completed
  · split at completed <;> cases completed
  · next serialized applied =>
    split at completed
    · cases completed
    · cases completed
      rw [← Value.plain_mapFaults]
      exact BuiltinScalar.serialize_of_convert applied

/-- What is shown of a built-in scalar other than Float is fed back, unless it is a Boolean from a
flag where an Int is declared. -/
theorem feedsBack_scalar (accepted : env.registry.Accepted) {scalar : BuiltinScalar}
    (exact : scalar ≠ .float)
    (completed : Exec.runFrom (env.complete execute target (.named scalar.name required) path
      raw).run before = (.ok (.ok (.leaf shown)), after)) :
    (env.FeedsBack scalar.name shown ∧ scalar.Holds shown) ∨
      scalar = .int ∧ ∃ b, shown = .bool b ∧ BuiltinScalar.IsFlag b raw.plain := by
  have found := accepted.type?_scalar scalar
  have serialized := serialize_of_completed found completed
  rcases BuiltinScalar.holds_of_serialize serialized with held | ⟨rfl, b, rfl⟩
  · have returns := held.returns exact
    refine Or.inl ⟨⟨shown.spoken, Registry.coerces_scalar found returns, ?_⟩, held⟩
    exact completes_scalar found returns
  · refine Or.inr ⟨rfl, b, rfl, ?_⟩
    exact (BuiltinScalar.serialize_int_eq_bool_iff.mp serialized).of_mapFaults

variable (env) in
/-- **Leaves can be fed back as input.** What completing a value shows of an enum or of a built-in
scalar other than Float is accepted as a literal of that type, and what it is coerced to is shown as
before; an Int is an integer in range. The exception is a flag that is completed to an Int: it shows
its Boolean, which is refused. And a symbol of an enum without null values and without values of one
type that are equal comes back, whatever was executed in between. -/
theorem leaves_feed_back (accepted : env.registry.Accepted)
    (declared : ∀ name type, env.registry.type? name = some (.enum type) → type.IsDeclared) :
    (∀ (name : String) (raw shown : Value) (execute : ObjectExecution σ) (target : Target)
      (required : Bool) (path : Path) (before after : Executor σ),
      ((∃ type, env.registry.type? name = some (.enum type) ∧ type.IsGenuine raw) ∨
        ∃ scalar : BuiltinScalar, scalar ≠ .float ∧ name = scalar.name) →
      Exec.runFrom (env.complete execute target (.named name required) path raw).run before =
        (.ok (.ok (.leaf shown)), after) →
      (env.FeedsBack name shown ∧
          (name = BuiltinScalar.int.name → BuiltinScalar.int.Holds shown)) ∨
        (name = BuiltinScalar.int.name ∧ ∃ b, shown = .bool b ∧
          BuiltinScalar.IsFlag b raw.plain ∧ env.registry.Refuses name shown)) ∧
    ∀ (name : String) (type : EnumType), env.registry.type? name = some (.enum type) →
      (∀ entry ∈ type.values, entry.value.isNull = false) →
      (∀ one ∈ type.values, ∀ other ∈ type.values, one.value.sameType other.value = true →
        one.value.equals other.value = true → one.symbol = other.symbol) →
      ∀ entry ∈ type.values, ∃ value, env.registry.Coerces name (.str entry.symbol) value ∧
        env.Completes name value (.str entry.symbol) := by
  constructor
  · rintro name raw shown execute target required path before after
      (⟨type, found, genuine⟩ | ⟨scalar, exact, rfl⟩) completed
    · refine Or.inl ⟨feedsBack_symbol found (declared name type found) genuine completed, ?_⟩
      rintro rfl
      rw [accepted.type?_scalar] at found
      cases found
    · rcases feedsBack_scalar accepted exact completed with ⟨feeds, held⟩ | ⟨rfl, b, rfl, flag⟩
      · refine Or.inl ⟨feeds, fun same => ?_⟩
        obtain rfl : scalar = .int := by
          cases scalar <;> first | rfl | exact absurd same (by decide)
        exact held
      · exact Or.inr ⟨rfl, b, rfl, flag, Registry.refuses_bool (accepted.type?_scalar .int) b⟩
  · intro name type found present unique entry among
    have own := declared name type found
    refine ⟨type.internalValue entry,
      Registry.coerces_symbol found (own.valueFor?_symbol among), ?_⟩
    refine completes_symbol found ?_ fun change keeps =>
      own.symbolFor?_internalValue keeps among fun interned =>
        EnumType.leadsTo_of_unique among interned fun other member typed equal => ?_
    · rw [EnumType.isNull_internalValue]
      exact present entry among
    · exact List.inj_on_of_nodup_map own.distinct member among
        (unique other member entry among typed equal)

/-- An enum in which two symbols stand for equal values that are not one object. -/
def paintType : EnumType where
  name := "Paint"
  values := [{ symbol := "RED", value := .str "crimson" },
    { symbol := "ROUGE", value := .str "crimson" }]

/-- An enum of which no two values are equal. -/
def shadeType : EnumType where
  name := "Shade"
  values := [{ symbol := "DARK", value := .int 0 }, { symbol := "LIGHT", value := .bool false }]

/-- A schema with fields of these enums. -/
def paintSchema : Schema where
  query := some (.definition (.object {
    name := "Query"
    fields := [{ name := "paint", type := .named "Paint" },
      { name := "shade", type := .named "Shade" }] }))
  types := [.definition (.enum paintType), .definition (.enum shadeType)]

/-- The registry of that schema. -/
def paintRegistry : Registry :=
  paintSchema.tableWithin 100

theorem accepted_paintRegistry : paintRegistry.Accepted :=
  Schema.accepted_of_soundWithin (by decide +kernel)

/-- Where paints and shades are asked for. -/
def painting : Environment Unit where
  registry := paintRegistry
  behaviour := {
    resolve := fun _ _ _ _ => .finish .null
    hook := fun _ value => .ok value
    convert := fun _ value => .ok value }
  request := { operation := { selections := [] } }

/-- A field for which leaves are completed; what is shown does not depend on it. -/
def leafTarget : Target where
  parent := "Query"
  field := { name := "paint", type := .named "Paint" }
  group := { first := { name := "paint", responseKey := "paint" } }

/-- A value handed on for the second of two symbols with equal values is fed back as that symbol,
and a value that is equal to another, but not of its type, as its own. -/
theorem leaves_feed_back_rouge :
    paintRegistry.Accepted ∧
      (∀ name type, paintRegistry.type? name = some (.enum type) → type.IsDeclared) ∧
      Exec.runFrom (painting.complete (painting.executeObject 1) leafTarget (.named "Paint") []
        (.chosen "Paint" "ROUGE" (.str "crimson"))).run { world := { user := () } } =
          (.ok (.ok (.leaf (.str "ROUGE"))), { world := { user := () } }) ∧
      painting.FeedsBack "Paint" (.str "ROUGE") ∧
      ∃ value, paintRegistry.Coerces "Shade" (.str "LIGHT") value ∧
        painting.Completes "Shade" value (.str "LIGHT") := by
  have declared : ∀ name type, paintRegistry.type? name = some (.enum type) → type.IsDeclared :=
    Registry.isDeclared_of_hasDeclaredEnums (by decide +kernel)
  have completed : Exec.runFrom (painting.complete (painting.executeObject 1) leafTarget
      (.named "Paint") [] (.chosen "Paint" "ROUGE" (.str "crimson"))).run
        { world := { user := () } } =
          (.ok (.ok (.leaf (.str "ROUGE"))), { world := { user := () } }) := rfl
  have paints : paintRegistry.type? "Paint" = some (.enum paintType) := rfl
  have shades : paintRegistry.type? "Shade" = some (.enum shadeType) := rfl
  have genuine : paintType.IsGenuine (.chosen "Paint" "ROUGE" (.str "crimson")) :=
    fun _ _ _ => ⟨_, List.mem_cons_of_mem _ List.mem_cons_self, rfl⟩
  obtain ⟨shown, symbols⟩ := painting.leaves_feed_back accepted_paintRegistry declared
  refine ⟨accepted_paintRegistry, declared, completed, ?_, ?_⟩
  · rcases shown _ _ _ _ _ _ _ _ _ (Or.inl ⟨paintType, paints, genuine⟩) completed with
      ⟨feeds, _⟩ | ⟨named, _⟩
    · exact feeds
    · exact absurd named (by decide)
  · refine symbols "Shade" shadeType shades ?_ ?_ { symbol := "LIGHT", value := .bool false }
      (List.mem_cons_of_mem _ List.mem_cons_self)
    · simp [shadeType, Value.isNull, Value.bare]
    · simp [shadeType, Value.sameType]

/-- A flag that is completed to an Int shows a Boolean, which is no Int and is refused as one. -/
theorem leaves_refuse_flag :
    countRegistry.Accepted ∧
      Exec.runFrom ((counting countedFlag).complete ((counting countedFlag).executeObject 1)
        leafTarget (.named "Int") [] countedFlag).run { world := { user := () } } =
          (.ok (.ok (.leaf (.bool true))), { world := { user := () } }) ∧
      countRegistry.Refuses "Int" (.bool true) ∧
      ¬ (counting countedFlag).FeedsBack "Int" (.bool true) ∧
      ¬ BuiltinScalar.int.Holds (.bool true) := by
  have refuses : countRegistry.Refuses "Int" (.bool true) :=
    Registry.refuses_bool (accepted_countRegistry.type?_scalar .int) true
  refine ⟨accepted_countRegistry, rfl, refuses, ?_, nofun⟩
  rintro ⟨value, coerces, _⟩
  have settles : CoercionContext.Settles
      { registry := countRegistry, convert := fun _ value => .ok value } :=
    CoercionContext.settles_of_id rfl
  obtain ⟨_, failed⟩ := refuses _ 0 false [] rfl settles
  rw [coerces _ 0 false [] rfl settles] at failed
  cases failed

end Environment

end GraphQL
