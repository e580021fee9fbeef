import GraphQL.Proofs.Coercion
import Mathlib.Data.List.Forall2

/-!
# Deeper coercions

A coercion that does not meet the bound on its depth is the same where it may go deeper.
-/

namespace GraphQL

variable {α β : Type}

namespace Coercion

/-- Going deeper changes nothing unless the bound is met. -/
def Deepens (part deeper : Coercion α) : Prop :=
  Avoids .tooDeep part → deeper = part

namespace Deepens

variable {part deeper : Coercion α}

theorem refl (part : Coercion α) : Deepens part part :=
  fun _ => rfl

protected theorem bind {next more : α → Coercion β} (first : Deepens part deeper)
    (following : ∀ value, Deepens (next value) (more value)) :
    Deepens (part >>= next) (deeper >>= more) := by
  intro avoids
  rw [first avoids.of_bind]
  rcases part with ⟨stop | value, ignored⟩
  · rfl
  · have rest : Avoids .tooDeep (next value) := avoids
    show (⟨(more value).outcome, ignored ++ (more value).ignored⟩ : Coercion β) =
      ⟨(next value).outcome, ignored ++ (next value).ignored⟩
    rw [following value rest]

protected theorem map (change : α → β) (deepens : Deepens part deeper) :
    Deepens (change <$> part) (change <$> deeper) :=
  deepens.bind fun _ => .refl _

theorem attemptAll {parts deepers : List (Coercion α)}
    (each : List.Forall₂ Deepens parts deepers) :
    Deepens (Coercion.attemptAll parts) (Coercion.attemptAll deepers) := by
  induction each with
  | nil => exact .refl _
  | @cons part deeper rest others first _ ih =>
    have noted : Deepens (⟨.ok (), part.ignored⟩ : Coercion Unit) ⟨.ok (), part.ignored⟩ := .refl _
    have goesOn := noted.bind fun _ => ih
    intro avoids
    have single : Avoids .tooDeep part := by
      intro stopped
      apply avoids
      rw [Coercion.attemptAll, stopped]
    have same := first single
    revert avoids
    rw [same]
    unfold Coercion.attemptAll
    split
    · exact goesOn.bind fun _ => .refl _
    · exact goesOn.bind fun _ => .refl _
    · exact fun _ => rfl

theorem gather (path : Path) {parts deepers : List (Coercion α)}
    (each : List.Forall₂ Deepens parts deepers) :
    Deepens (Coercion.gather path parts) (Coercion.gather path deepers) :=
  (attemptAll each).bind fun _ => .refl _

end Deepens

end Coercion

namespace CoercionContext

open Coercion (Avoids Deepens)

variable {context : CoercionContext} {recur deeper : TypeRef → Value → Path → Coercion Value}
  (deepens : ∀ ref raw path, Deepens (recur ref raw path) (deeper ref raw path))

include deepens

theorem deepens_absent (arg : Argument) (path : Path)
    (missing : Coercion (Option (String × Value))) :
    Deepens (absent recur arg path missing) (absent deeper arg path missing) := by
  unfold absent
  split
  · exact (deepens _ _ _).map _
  · exact .refl _

theorem deepens_member (arg : Argument) (raw : Value) (path : Path)
    (missing : Coercion (Option (String × Value))) :
    Deepens (member recur arg raw path missing) (member deeper arg raw path missing) := by
  have absence := deepens_absent deepens arg path missing
  unfold member
  split
  · exact absence
  · apply (deepens _ _ _).bind
    intro value
    split
    · exact absence
    · exact .refl _

theorem deepens_parseNamed (name : String) (raw : Value) (path : Path) :
    Deepens (context.parseNamed recur name raw path) (context.parseNamed deeper name raw path) := by
  unfold parseNamed
  dsimp only
  split
  · exact .refl _
  · exact .refl _
  · exact .refl _
  · next type _ =>
    unfold parseObject
    split
    · next entries _ =>
      have declared : List.Forall₂ Deepens
          (type.fields.map (context.fieldPart recur type entries path))
          (type.fields.map (context.fieldPart deeper type entries path)) := by
        rw [List.forall₂_map_left_iff, List.forall₂_map_right_iff, List.forall₂_same]
        intro field _
        exact deepens_member deepens _ _ _ _
      have others : List.Forall₂ Deepens
          ((unknownKeys type entries).map (context.unknownPart type path))
          ((unknownKeys type entries).map (context.unknownPart type path)) := by
        rw [List.forall₂_same]
        exact fun part _ => .refl part
      exact (Deepens.gather path (List.rel_append declared others)).bind fun _ => .refl _
    · exact .refl _
  · exact .refl _

theorem deepens_coerceNullable (ref : TypeRef) (raw : Value) (path : Path) :
    Deepens (context.coerceNullable recur ref raw path)
      (context.coerceNullable deeper ref raw path) := by
  unfold coerceNullable
  split
  · exact .refl _
  · split
    · exact .refl _
    · next item nonNull _ =>
      have each : List.Forall₂ Deepens (itemParts recur item path (items (context.substitute raw)))
          (itemParts deeper item path (items (context.substitute raw))) := by
        apply List.forall₂_iff_get.mpr
        refine ⟨by simp [itemParts], fun index _ _ => ?_⟩
        simp only [itemParts, List.get_eq_getElem, List.getElem_mapIdx]
        exact (deepens _ _ _).map _
      exact (Deepens.gather path each).map _
    · exact deepens_parseNamed deepens _ _ _

theorem deepens_coerceWith (ref : TypeRef) (raw : Value) (path : Path) :
    Deepens (context.coerceWith recur ref raw path) (context.coerceWith deeper ref raw path) := by
  have required : ∀ shown, Deepens (coerceWith.required context recur ref path shown)
      (coerceWith.required context deeper ref path shown) := by
    intro shown
    unfold coerceWith.required
    split
    · exact .refl _
    · exact deepens_coerceNullable deepens _ _ _
  unfold coerceWith
  split
  · split
    · split
      · exact .refl _
      · exact required _
    · exact required _
  · exact deepens_coerceNullable deepens _ _ _

omit deepens in
/-- A coercion that does not meet the bound on its depth is the same for any greater bound. -/
theorem coerce_deeper {depth more : Nat} (above : depth ≤ more) (ref : TypeRef) (raw : Value)
    (path : Path) :
    Deepens (context.coerce depth ref raw path) (context.coerce more ref raw path) := by
  induction depth generalizing more ref raw path with
  | zero => exact fun avoids => absurd rfl avoids
  | succ depth ih =>
    obtain ⟨less, rfl⟩ := Nat.exists_eq_add_of_le' (Nat.le_of_add_left_le above)
    apply deepens_coerceWith
    intro ref raw path
    exact ih (by omega) ref raw path

end CoercionContext

end GraphQL
