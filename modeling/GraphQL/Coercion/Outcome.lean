import GraphQL.Coercion.Failure
import GraphQL.Log

/-!
# Outcomes of coercion

A coercion gives a value or stops, and notes the keys that it passed over on the way. Its parts are
attempted one after another; those that fail are gathered, and the whole fails with all of their
leaves.
-/

namespace GraphQL

/-- A key of an input object that no field declares and that was passed over. -/
structure IgnoredKey where
  key : String
  type : String
  deriving DecidableEq

/-- What is reported for a key that was passed over. -/
def IgnoredKey.record (ignored : IgnoredKey) : LogRecord :=
  ⟨.debug, .coercion,
    "Ignoring unknown field " ++ Text.quoted ignored.key ++ " for input type " ++ ignored.type⟩

/-- Why a coercion gives no value. Only failures are gathered with others; what else stops a
coercion stops it at once. -/
inductive CoercionStop where
  | failed (failure : CoercionFailure)
  | unknownType (name : String)
  | interrupted (fault : Fault)
  | tooDeep

/-- The outcome of a coercion, with the keys it passed over. -/
structure Coercion (α : Type) where
  outcome : Except CoercionStop α
  ignored : List IgnoredKey := []

namespace Coercion

variable {α β : Type}

instance : Monad Coercion where
  pure value := ⟨.ok value, []⟩
  bind first next :=
    match first.outcome with
    | .ok value => ⟨(next value).outcome, first.ignored ++ (next value).ignored⟩
    | .error stop => ⟨.error stop, first.ignored⟩

@[simp] theorem outcome_pure (value : α) : (pure value : Coercion α).outcome = .ok value := rfl

@[simp] theorem outcome_bind (first : Coercion α) (next : α → Coercion β) :
    (first >>= next).outcome = first.outcome.bind fun value => (next value).outcome := by
  show (match first.outcome with
    | .ok value => (⟨(next value).outcome, first.ignored ++ (next value).ignored⟩ : Coercion β)
    | .error stop => ⟨.error stop, first.ignored⟩).outcome = _
  cases first.outcome <;> rfl

/-- A coercion that stops. -/
def stop (why : CoercionStop) : Coercion α :=
  ⟨.error why, []⟩

/-- A coercion that fails with one leaf. -/
def fail (cause : CoercionCause) (path : Path) : Coercion α :=
  stop (.failed { path, first := ⟨cause, path⟩ })

/-- Notes a key that is passed over. -/
def ignore (key : IgnoredKey) : Coercion Unit :=
  ⟨.ok (), [key]⟩

/-- The values of the parts that succeed and the leaves of those that fail. -/
def attemptAll : List (Coercion α) → Coercion (List α × List CoercionLeaf)
  | [] => pure ([], [])
  | part :: rest =>
    match part.outcome with
    | .ok value => do
      let (values, leaves) ← ⟨.ok (), part.ignored⟩ >>= fun () => attemptAll rest
      pure (value :: values, leaves)
    | .error (.failed failure) => do
      let (values, leaves) ← ⟨.ok (), part.ignored⟩ >>= fun () => attemptAll rest
      pure (values, failure.leaves ++ leaves)
    | .error why => ⟨.error why, part.ignored⟩

/-- The values of all parts of the input at `path`, or a failure with the leaves of all parts. -/
def gather (path : Path) (parts : List (Coercion α)) : Coercion (List α) := do
  let (values, leaves) ← attemptAll parts
  match leaves with
  | [] => pure values
  | first :: others => stop (.failed { path, first, others })

end Coercion

end GraphQL
