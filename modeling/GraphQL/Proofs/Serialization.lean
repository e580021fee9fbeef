import GraphQL.Scalar

/-!
# Serialized values

What the built-in scalars give in a response: an integer in range for Int, a Boolean for Boolean and
texts for String and ID. One slip is known: an Int that is serialized from a member of an
enumeration with a Boolean behind it is that Boolean.
-/

namespace GraphQL

namespace BuiltinScalar

/-- The values of a scalar in a response. -/
def Holds : BuiltinScalar → Value → Prop
  | int, .int n => minInt ≤ n ∧ n ≤ maxInt
  | float, .float _ => True
  | string, .str _ | string, .keyword .. | id, .str _ | id, .keyword .. => True
  | boolean, .bool _ => True
  | _, _ => False

variable {value result : Value}

theorem holds_of_checkRange {n : Int} (checked : checkRange n = .ok result) : int.Holds result := by
  unfold checkRange at checked
  split at checked
  · cases checked
  · next below =>
    split at checked
    · cases checked
    · next above =>
      cases checked
      exact ⟨Int.not_lt.mp above, Int.not_lt.mp below⟩

theorem holds_of_checkFinite {x : Float} (checked : checkFinite x = .ok result) :
    float.Holds result := by
  unfold checkFinite at checked
  split at checked
  · cases checked
    trivial
  · cases checked

theorem holds_of_intToFloat {n : Int} (converted : intToFloat n = .ok result) :
    float.Holds result := by
  unfold intToFloat at converted
  dsimp only at converted
  split at converted
  · cases converted
    trivial
  · cases converted

theorem holds_of_floatToInt {x : Float} (converted : floatToInt x = .ok result) :
    int.Holds result := by
  unfold floatToInt at converted
  split at converted
  · split at converted
    · cases converted
    · split at converted
      · exact holds_of_checkRange converted
      · cases converted
  · cases converted

theorem holds_of_textToInt {text : String} (converted : textToInt text = .ok result) :
    int.Holds result := by
  unfold textToInt at converted
  split at converted
  · cases converted
  · cases converted
  · exact holds_of_checkRange converted

theorem holds_of_textToFloat {text : String} (converted : textToFloat text = .ok result) :
    float.Holds result := by
  unfold textToFloat at converted
  split at converted
  · cases converted
  · exact holds_of_checkFinite converted

/-- A member of an enumeration of user code with a Boolean behind it. -/
def IsFlag (b : Bool) (value : Value) : Prop :=
  ∃ enumeration symbol symbols others,
    value = .member enumeration symbol (.bool b) symbols others

theorem serialize_int (serialized : int.serialize value = .ok result) :
    int.Holds result ∨ ∃ b, IsFlag b value ∧ result = .bool b := by
  cases value with
  | int n => exact Or.inl (holds_of_checkRange serialized)
  | bool b =>
    cases serialized
    cases b with
    | true => exact Or.inl ⟨by decide, by decide⟩
    | false => exact Or.inl ⟨by decide, by decide⟩
  | float x => exact Or.inl (holds_of_floatToInt serialized)
  | str text => exact Or.inl (holds_of_textToInt serialized)
  | keyword family text => exact Or.inl (holds_of_textToInt serialized)
  | bytes data =>
    change
      ((decodeText? data).map textToInt).getD (.error .notIntegerText) = .ok result at serialized
    cases decoded : decodeText? data with
    | none =>
      rw [decoded] at serialized
      cases serialized
    | some text =>
      rw [decoded] at serialized
      exact Or.inl (holds_of_textToInt serialized)
  | member enumeration symbol behind symbols others =>
    cases behind with
    | int n => exact Or.inl (holds_of_checkRange serialized)
    | bool b =>
      cases serialized
      exact Or.inr ⟨b, ⟨enumeration, symbol, symbols, others, rfl⟩, rfl⟩
    | _ => cases serialized
  | _ => cases serialized

/-- An Int is serialized to a Boolean from a flag, and from nothing else. -/
theorem serialize_int_eq_bool_iff {b : Bool} :
    int.serialize value = .ok (.bool b) ↔ IsFlag b value := by
  constructor
  · intro serialized
    rcases serialize_int serialized with held | ⟨_, flag, same⟩
    · exact held.elim
    · cases same
      exact flag
  · rintro ⟨enumeration, symbol, symbols, others, rfl⟩
    rfl

theorem serialize_float (serialized : float.serialize value = .ok result) :
    float.Holds result := by
  cases value with
  | int n => exact holds_of_intToFloat serialized
  | float x => exact holds_of_checkFinite serialized
  | bool b =>
    cases serialized
    trivial
  | str text | keyword family text =>
    rw [serialize] at serialized
    exact holds_of_textToFloat serialized
  | bytes data =>
    rw [serialize] at serialized
    cases decoded : decodeText? data with
    | none =>
      rw [decoded] at serialized
      cases serialized
    | some text =>
      rw [decoded, Option.map_some, Option.getD_some] at serialized
      exact holds_of_textToFloat serialized
  | _ => cases serialized

theorem serialize_string (serialized : string.serialize value = .ok result) :
    string.Holds result := by
  cases value with
  | str _ | keyword _ _ | bool _ | int _ =>
    cases serialized
    trivial
  | float x =>
    unfold serialize at serialized
    dsimp only at serialized
    split at serialized
    · cases serialized
      trivial
    · cases serialized
  | _ => cases serialized

theorem serialize_boolean (serialized : boolean.serialize value = .ok result) :
    boolean.Holds result := by
  cases value with
  | bool _ | int _ =>
    cases serialized
    trivial
  | float x =>
    unfold serialize at serialized
    dsimp only at serialized
    split at serialized
    · cases serialized
      trivial
    · cases serialized
  | _ => cases serialized

theorem serialize_id (serialized : id.serialize value = .ok result) : id.Holds result := by
  cases value with
  | str _ | keyword _ _ | int _ =>
    cases serialized
    trivial
  | _ => cases serialized

/-- Serializing gives a value of the scalar, unless it gives a Boolean for an Int. -/
theorem holds_of_serialize {scalar : BuiltinScalar}
    (serialized : scalar.serialize value = .ok result) :
    scalar.Holds result ∨ scalar = int ∧ ∃ b, result = .bool b := by
  cases scalar with
  | int =>
    refine (serialize_int serialized).imp_right ?_
    rintro ⟨b, _, same⟩
    exact ⟨rfl, b, same⟩
  | float => exact Or.inl (serialize_float serialized)
  | string => exact Or.inl (serialize_string serialized)
  | boolean => exact Or.inl (serialize_boolean serialized)
  | id => exact Or.inl (serialize_id serialized)

variable {scalar : BuiltinScalar}

theorem serialize_of_convert
    (converted : scalar.convert .serialize value = .ok result) :
    scalar.serialize value = .ok result := by
  unfold convert at converted
  dsimp only at converted
  split at converted
  · next given =>
    cases converted
    exact given
  · cases converted

/-- What a built-in scalar parses is a value of the scalar. -/
theorem holds_of_parse (parsed : scalar.parse value = .ok result) : scalar.Holds result := by
  unfold parse at parsed
  split at parsed
  · exact holds_of_checkRange parsed
  · cases parsed
  · exact holds_of_checkFinite parsed
  · exact holds_of_intToFloat parsed
  all_goals
    cases parsed
    try trivial

/-- Converting in either direction gives a value of the scalar, or a Boolean. -/
theorem holds_of_convert {direction : Direction}
    (converted : scalar.convert direction value = .ok result) :
    scalar.Holds result ∨ ∃ b, result = .bool b := by
  cases direction with
  | parse =>
    unfold convert at converted
    dsimp only at converted
    split at converted
    · next parsed =>
      cases converted
      exact Or.inl (holds_of_parse parsed)
    · cases converted
  | serialize =>
    exact (holds_of_serialize (serialize_of_convert converted)).imp_right And.right

end BuiltinScalar

end GraphQL
