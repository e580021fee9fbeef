import GraphQL.Proofs.Arguments
import GraphQL.Proofs.Reporting

/-!
# Input that comes to the same

What input comes to does not depend on the place where it stands, apart from the paths of leaves.
Nor does it depend on whether a sequence is a list or a tuple, or on how a mapping is arranged: as
long as the items and the fields of two inputs resemble each other, they are coerced to the same.
-/

namespace GraphQL

namespace CoercionContext

open Coercion (Alike)

/-- Two raw values have the same parts, as far as the coercion to a type looks at them, or a type
takes both of them alike. -/
inductive Resembles (context : CoercionContext) : TypeRef → Value → Value → Prop where
  | same (ref : TypeRef) (raw : Value) : Resembles context ref raw raw
  | list {item : TypeRef} {nonNull : Bool} {raw other : Value} :
      raw.isVariable = false → raw.isNull = false →
      other.isVariable = false → other.isNull = false →
      (items raw).length = (items other).length →
      (∀ (index : Nat) (part shown : Value), (items raw)[index]? = some part →
        (items other)[index]? = some shown → Resembles context item part shown) →
      Resembles context (.list item nonNull) raw other
  | named {name : String} {nonNull : Bool} {raw other : Value} :
      raw.isVariable = false → raw.isNull = false →
      other.isVariable = false → other.isNull = false →
      (∀ recur place elsewhere, Alike (context.parseNamed recur name raw place)
        (context.parseNamed recur name other elsewhere)) →
      Resembles context (.named name nonNull) raw other
  | object {name : String} {nonNull : Bool} {type : InputType} {entries others : Entries Value} :
      context.registry.type? name = some (.input type) →
      unknownKeys type entries = unknownKeys type others →
      (∀ field ∈ type.fields, (context.rawField entries field).isUndefined =
        (context.rawField others field).isUndefined) →
      (∀ field ∈ type.fields,
        Resembles context field.type (context.rawField entries field)
          (context.rawField others field)) →
      Resembles context (.named name nonNull) (.map entries) (.map others)

/-- Values that resemble each other are coerced to the same, wherever they stand. -/
def Follows (context : CoercionContext) (depth : Nat) : Prop :=
  ∀ {ref raw other}, context.Resembles ref raw other → ∀ place elsewhere,
    Alike (context.coerce depth ref raw place) (context.coerce depth ref other elsewhere)

variable {context : CoercionContext} {depth : Nat}

section Parts

variable (follows : context.Follows depth) (place elsewhere : Path)

include follows

theorem Follows.alike_absent (arg : Argument) {missing missed : Coercion (Option (String × Value))}
    (alike : Alike missing missed) :
    Alike (absent (context.coerce depth) arg place missing)
      (absent (context.coerce depth) arg elsewhere missed) := by
  unfold absent
  split
  · exact (follows (.same _ _) place elsewhere).map _
  · split
    · exact alike
    · exact .refl _

theorem Follows.alike_member {arg : Argument} {raw other : Value}
    (resembles : context.Resembles arg.type raw other) (both : raw.isUndefined = other.isUndefined)
    {missing missed : Coercion (Option (String × Value))} (alike : Alike missing missed) :
    Alike (member (context.coerce depth) arg raw place missing)
      (member (context.coerce depth) arg other elsewhere missed) := by
  have absence := follows.alike_absent place elsewhere arg alike
  unfold member
  rw [both]
  split
  · exact absence
  · refine (follows resembles place elsewhere).bind fun value => ?_
    split
    · exact absence
    · exact .refl _

theorem Follows.alike_items {item : TypeRef} {raws others : List Value}
    (long : raws.length = others.length)
    (resemble : ∀ (index : Nat) (part shown : Value), raws[index]? = some part →
      others[index]? = some shown → context.Resembles item part shown) :
    Alike (Coercion.gather place (itemParts (context.coerce depth) item place raws))
      (Coercion.gather elsewhere (itemParts (context.coerce depth) item elsewhere others)) := by
  apply Alike.gather
  rw [List.forall₂_iff_get]
  refine ⟨by simp only [itemParts, List.length_mapIdx, long], fun index inside there => ?_⟩
  simp only [itemParts, List.length_mapIdx] at inside there
  simp only [itemParts, List.get_eq_getElem, List.getElem_mapIdx]
  exact (follows (resemble index _ _ (List.getElem?_eq_getElem inside)
    (List.getElem?_eq_getElem there)) _ _).map _

/-- Mappings with fields that resemble each other and with the same keys that are not declared have
parts that come to the same. -/
theorem Follows.alike_objectParts {type : InputType} {entries others : Entries Value}
    (unknown : unknownKeys type entries = unknownKeys type others)
    (both : ∀ field ∈ type.fields, (context.rawField entries field).isUndefined =
      (context.rawField others field).isUndefined)
    (resemble : ∀ field ∈ type.fields, context.Resembles field.type
      (context.rawField entries field) (context.rawField others field)) :
    Alike (Coercion.gather place
        (type.fields.map (context.fieldPart (context.coerce depth) type entries place) ++
          (unknownKeys type entries).map (context.unknownPart type place)))
      (Coercion.gather elsewhere
        (type.fields.map (context.fieldPart (context.coerce depth) type others elsewhere) ++
          (unknownKeys type others).map (context.unknownPart type elsewhere))) := by
  refine .gather (List.rel_append ?_ ?_) place elsewhere
  · rw [List.forall₂_map_left_iff, List.forall₂_map_right_iff, List.forall₂_same]
    exact fun field among => follows.alike_member _ _ (resemble field among) (both field among)
      (.fail _ _ place elsewhere)
  · rw [unknown, List.forall₂_map_left_iff, List.forall₂_map_right_iff, List.forall₂_same]
    intro key _
    unfold unknownPart
    split
    · exact .fail _ _ place elsewhere
    · exact .refl _

theorem Follows.alike_parseNamed (name : String) (raw : Value) :
    Alike (context.parseNamed (context.coerce depth) name raw place)
      (context.parseNamed (context.coerce depth) name raw elsewhere) := by
  unfold parseNamed
  dsimp only
  split
  · exact .refl _
  · unfold parseScalar
    split
    · exact .refl _
    · split
      · exact .refl _
      · exact .fail _ _ place elsewhere
  · exact alike_parseSymbol _ rfl
  · unfold parseObject
    split
    · refine (follows.alike_objectParts place elsewhere rfl (fun _ _ => rfl) ?_).map _
      exact fun _ _ => .same _ _
    · exact .fail _ _ place elsewhere
  · exact .fail _ _ place elsewhere

theorem Follows.alike_coerceWith (ref : TypeRef) (raw : Value) :
    Alike (context.coerceWith (context.coerce depth) ref raw place)
      (context.coerceWith (context.coerce depth) ref raw elsewhere) := by
  have nullable : ∀ shown, Alike (context.coerceNullable (context.coerce depth) ref shown place)
      (context.coerceNullable (context.coerce depth) ref shown elsewhere) := by
    intro shown
    unfold coerceNullable
    split
    · exact .refl _
    · split
      · exact .refl _
      · refine (follows.alike_items place elsewhere rfl fun index part shown here there => ?_).map _
        cases here.symm.trans there
        exact .same _ _
      · exact follows.alike_parseNamed place elsewhere _ _
  have required : ∀ shown,
      Alike (coerceWith.required context (context.coerce depth) ref place shown)
        (coerceWith.required context (context.coerce depth) ref elsewhere shown) := by
    intro shown
    unfold coerceWith.required
    split
    · exact .fail _ _ place elsewhere
    · exact nullable shown
  unfold coerceWith
  split
  · split
    · split
      · exact .refl _
      · exact required _
    · exact required _
  · exact nullable raw

end Parts

section Settled

variable (settles : context.Settles)

include settles

/-- A mapping is coerced to an input object field by field. -/
theorem coerce_map {name : String} {type : InputType}
    (found : context.registry.type? name = some (.input type)) (depth : Nat) (nonNull : Bool)
    (entries : Entries Value) (path : Path) :
    context.coerce (depth + 1) (.named name nonNull) (.map entries) path =
      (fun parts => Value.map (membersOf parts)) <$> Coercion.gather path
        (type.fields.map (context.fieldPart (context.coerce depth) type entries path) ++
          (unknownKeys type entries).map (context.unknownPart type path)) := by
  have fields : context.fieldPart (context.coerce depth) type
      (entries.map fun entry => (entry.1, context.settle entry.2)) path =
      context.fieldPart (context.coerce depth) type entries path := by
    funext field
    unfold fieldPart
    rw [rawField_settle settles, member_settle settles]
  have given : Value.map entries ≠ .null := nofun
  rw [coerce, coerceWith_inside rfl given fun _ => rfl, coerceInside, parseNamed, found,
    settle_map settles]
  dsimp only
  rw [parseObject, fields, unknownKeys_settle]
  rfl

/-- Input that resembles other input comes to the same. -/
theorem follows_coerce (depth : Nat) : context.Follows depth := by
  induction depth with
  | zero => exact fun _ _ _ => .refl _
  | succ depth follows =>
    intro ref raw other resembles place elsewhere
    have inside : ∀ {shown : Value} (path : Path), shown.isVariable = false →
        shown.isNull = false → context.coerce (depth + 1) ref shown path =
          context.coerceInside (context.coerce depth) ref shown path := by
      intro shown path constant given
      rw [coerce, coerceWith_inside constant _ fun _ => given]
      rintro rfl
      cases given
    cases resembles with
    | same => exact follows.alike_coerceWith place elsewhere ref raw
    | list constant given still present long resemble =>
      rw [inside place constant given, inside elsewhere still present]
      exact (follows.alike_items place elsewhere long resemble).map _
    | named constant given still present alike =>
      rw [inside place constant given, inside elsewhere still present]
      exact alike _ place elsewhere
    | object found unknown both resemble =>
      rw [coerce_map settles found, coerce_map settles found]
      exact (follows.alike_objectParts place elsewhere unknown both resemble).map _

end Settled

end CoercionContext

end GraphQL
