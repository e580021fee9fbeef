import GraphQL.Proofs.Equality

/-!
# Agreement of definitions is an equivalence

Definitions whose members have distinct names and whose values are proper agree in either order, and
of three definitions two agree if both agree with the third.
-/

namespace GraphQL

namespace Argument

/-- Whether arguments have distinct names and proper defaults. -/
def areProper (args : List Argument) : Bool :=
  decide (args.map Argument.name).Nodup && args.all fun arg => arg.default.isProper

theorem agrees_trans {a b c : Argument} (first : a.agrees b = true) (second : b.agrees c = true) :
    a.agrees c = true := by
  unfold agrees at *
  simp only [Bool.and_eq_true, beq_iff_eq] at *
  obtain ⟨⟨⟨⟨types, defaults⟩, descriptions⟩, names⟩, sources⟩ := first
  rw [types, descriptions, names, sources]
  exact ⟨⟨⟨⟨second.1.1.1.1, Value.equals_trans defaults second.1.1.1.2⟩, second.1.1.2⟩, second.1.2⟩,
    second.2⟩

theorem agrees_symm {a b : Argument} (proper : a.default.isProper = true)
    (same : a.agrees b = true) : b.agrees a = true := by
  unfold agrees at *
  simp only [Bool.and_eq_true, beq_iff_eq] at *
  obtain ⟨⟨⟨⟨types, defaults⟩, descriptions⟩, names⟩, sources⟩ := same
  exact ⟨⟨⟨⟨types.symm, Value.equals_symm proper defaults⟩, descriptions.symm⟩, names.symm⟩,
    sources.symm⟩

theorem agreeByKey_symm_of_areProper {args others : List Argument} (proper : areProper args = true)
    (same : agreeByKey (·.name) agrees args others = true) :
    agreeByKey (·.name) agrees others args = true := by
  obtain ⟨distinct, defaults⟩ := Bool.and_eq_true_iff.mp proper
  refine agreeByKey_symm (of_decide_eq_true distinct) (fun arg among => ?_) same
  exact agrees_symm (List.all_eq_true.mp defaults arg among)

end Argument

namespace Field

/-- Whether fields have distinct names and proper arguments. -/
def areProper (fields : List Field) : Bool :=
  decide (fields.map Field.name).Nodup && fields.all fun field => Argument.areProper field.args

theorem agrees_trans {a b c : Field} (first : a.agrees b = true) (second : b.agrees c = true) :
    a.agrees c = true := by
  unfold agrees at *
  simp only [Bool.and_eq_true, beq_iff_eq] at *
  obtain ⟨⟨⟨⟨⟨⟨types, args⟩, resolvers⟩, descriptions⟩, deprecations⟩, names⟩, sources⟩ := first
  rw [types, resolvers, descriptions, deprecations, names, sources]
  refine ⟨⟨⟨⟨⟨⟨second.1.1.1.1.1.1, ?_⟩, second.1.1.1.1.2⟩, second.1.1.1.2⟩, second.1.1.2⟩,
    second.1.2⟩, second.2⟩
  exact agreeByKey_trans (fun _ _ => Argument.agrees_trans) args second.1.1.1.1.1.2

theorem agrees_symm {a b : Field} (proper : Argument.areProper a.args = true)
    (same : a.agrees b = true) : b.agrees a = true := by
  unfold agrees at *
  simp only [Bool.and_eq_true, beq_iff_eq] at *
  obtain ⟨⟨⟨⟨⟨⟨types, args⟩, resolvers⟩, descriptions⟩, deprecations⟩, names⟩, sources⟩ := same
  exact ⟨⟨⟨⟨⟨⟨types.symm, Argument.agreeByKey_symm_of_areProper proper args⟩, resolvers.symm⟩,
    descriptions.symm⟩, deprecations.symm⟩, names.symm⟩, sources.symm⟩

theorem agreeByKey_symm_of_areProper {fields others : List Field} (proper : areProper fields = true)
    (same : agreeByKey (·.name) agrees fields others = true) :
    agreeByKey (·.name) agrees others fields = true := by
  obtain ⟨distinct, args⟩ := Bool.and_eq_true_iff.mp proper
  refine agreeByKey_symm (of_decide_eq_true distinct) (fun field among => ?_) same
  exact agrees_symm (List.all_eq_true.mp args field among)

end Field

namespace EnumValue

/-- Whether symbols are distinct and stand for proper values. -/
def areProper (entries : List EnumValue) : Bool :=
  decide (entries.map EnumValue.symbol).Nodup && entries.all fun entry => entry.value.isProper

theorem agrees_trans {a b c : EnumValue} (first : a.agrees b = true)
    (second : b.agrees c = true) : a.agrees c = true := by
  unfold agrees at *
  simp only [Bool.and_eq_true, beq_iff_eq] at *
  obtain ⟨⟨⟨symbols, values⟩, descriptions⟩, deprecations⟩ := first
  rw [symbols, descriptions, deprecations]
  exact ⟨⟨⟨second.1.1.1, Value.equals_trans values second.1.1.2⟩, second.1.2⟩, second.2⟩

theorem agrees_symm {a b : EnumValue} (proper : a.value.isProper = true)
    (same : a.agrees b = true) : b.agrees a = true := by
  unfold agrees at *
  simp only [Bool.and_eq_true, beq_iff_eq] at *
  obtain ⟨⟨⟨symbols, values⟩, descriptions⟩, deprecations⟩ := same
  exact ⟨⟨⟨symbols.symm, Value.equals_symm proper values⟩, descriptions.symm⟩, deprecations.symm⟩

theorem agreeByKey_symm_of_areProper {entries others : List EnumValue}
    (proper : areProper entries = true)
    (same : agreeByKey (·.symbol) agrees entries others = true) :
    agreeByKey (·.symbol) agrees others entries = true := by
  obtain ⟨distinct, values⟩ := Bool.and_eq_true_iff.mp proper
  refine agreeByKey_symm (of_decide_eq_true distinct) (fun entry among => ?_) same
  exact agrees_symm (List.all_eq_true.mp values entry among)

end EnumValue

namespace TypeDefinition

/-- Whether the members of a type have distinct names and its values are proper. -/
def isProper : TypeDefinition → Bool
  | enum type => EnumValue.areProper type.values
  | object type => Field.areProper type.fields
  | interface type => Field.areProper type.fields
  | input type => Argument.areProper type.fields
  | _ => true

theorem agrees_trans {a b c : TypeDefinition} (first : a.agrees b = true)
    (second : b.agrees c = true) : a.agrees c = true := by
  cases a <;> cases b <;> try cases first
  all_goals cases c <;> try cases second
  all_goals
    unfold agrees at *
    simp only [Bool.and_eq_true, beq_iff_eq] at *
  case scalar.scalar.scalar =>
    exact ⟨⟨⟨⟨first.1.1.1.1.trans second.1.1.1.1, first.1.1.1.2.trans second.1.1.1.2⟩,
      first.1.1.2.trans second.1.1.2⟩, first.1.2.trans second.1.2⟩, first.2.trans second.2⟩
  case enum.enum.enum =>
    exact ⟨⟨first.1.1.trans second.1.1,
      agreeByKey_trans (fun _ _ => EnumValue.agrees_trans) first.1.2 second.1.2⟩,
      first.2.trans second.2⟩
  case object.object.object | interface.interface.interface =>
    exact ⟨⟨⟨⟨first.1.1.1.1.trans second.1.1.1.1,
      agreeByKey_trans (fun _ _ => Field.agrees_trans) first.1.1.1.2 second.1.1.1.2⟩,
      first.1.1.2.trans second.1.1.2⟩, first.1.2.trans second.1.2⟩, first.2.trans second.2⟩
  case union.union.union =>
    exact ⟨⟨⟨first.1.1.1.trans second.1.1.1, first.1.1.2.trans second.1.1.2⟩,
      first.1.2.trans second.1.2⟩, first.2.trans second.2⟩
  case input.input.input =>
    exact ⟨⟨first.1.1.trans second.1.1,
      agreeByKey_trans (fun _ _ => Argument.agrees_trans) first.1.2 second.1.2⟩,
      first.2.trans second.2⟩

theorem agrees_symm {a b : TypeDefinition} (proper : a.isProper = true)
    (same : a.agrees b = true) : b.agrees a = true := by
  cases a <;> cases b <;> try cases same
  all_goals
    unfold agrees at *
    simp only [Bool.and_eq_true, beq_iff_eq] at *
  case scalar.scalar =>
    exact ⟨⟨⟨⟨same.1.1.1.1.symm, same.1.1.1.2.symm⟩, same.1.1.2.symm⟩, same.1.2.symm⟩,
      same.2.symm⟩
  case enum.enum =>
    exact ⟨⟨same.1.1.symm, EnumValue.agreeByKey_symm_of_areProper proper same.1.2⟩, same.2.symm⟩
  case object.object | interface.interface =>
    exact ⟨⟨⟨⟨same.1.1.1.1.symm, Field.agreeByKey_symm_of_areProper proper same.1.1.1.2⟩,
      same.1.1.2.symm⟩, same.1.2.symm⟩, same.2.symm⟩
  case union.union =>
    exact ⟨⟨⟨same.1.1.1.symm, same.1.1.2.symm⟩, same.1.2.symm⟩, same.2.symm⟩
  case input.input =>
    exact ⟨⟨same.1.1.symm, Argument.agreeByKey_symm_of_areProper proper same.1.2⟩, same.2.symm⟩

end TypeDefinition

end GraphQL
