import GraphQL.Operation
import GraphQL.Settings

/-!
# User code

The engine calls user code for three purposes: to resolve a field, to ask which object type a value
has, and to convert a scalar. What a resolver does is a tree of the steps in which the engine takes
part, so that an execution is a function of the behaviour alone. Hooks and conversions only look at
a value and give one back or raise a fault.
-/

namespace GraphQL

/-- What a resolver does, step by step, over a state of its own of type `σ`. -/
inductive UserCode (σ : Type) where
  /-- Gives a value. -/
  | finish (value : Value)
  /-- Raises a fault. -/
  | fail (fault : Fault)
  /-- Waits forever. -/
  | hang
  /-- Lets others run before it goes on. -/
  | pause (next : UserCode σ)
  /-- Stops the execution that called it, and goes on. -/
  | stop (reason : String) (next : UserCode σ)
  /-- Changes the state and goes on with what it was before. -/
  | access (change : σ → σ) (next : σ → UserCode σ)
  /-- Makes a value anew and goes on with it. -/
  | renew (value : Value) (next : Value → UserCode σ)
  /-- Takes the elements of a value and goes on with them; a value without elements gives none. -/
  | takeElements (value : Value) (next : Option (List Value) → UserCode σ)
  /-- Goes on with the promise of what other code gives, which begins when it is awaited. -/
  | promise (body : UserCode σ) (next : Value → UserCode σ)

/-- Everything a resolver may ask about the request it serves. -/
structure Request where
  operation : Operation
  fragments : Entries Fragment := []
  /-- The values of the variables, those of defaults included. -/
  variableValues : Entries Value := []
  root : Value := .null
  context : Value := .null
  settings : Settings := {}

/-- The user code of a schema, by the handles that its definitions carry. -/
structure Behaviour (σ : Type) where
  /-- What a resolver does with a parent and coerced arguments. One that is a method of the parent
  is called without a request. -/
  resolve : Handle → Value → Entries Value → Option Request → UserCode σ
  /-- What a hook answers about a value, once its answer is there. -/
  hook : Handle → Value → Except Fault Value
  /-- What a scalar conversion makes of a value. -/
  convert : Handle → Value → Except Fault Value

/-- What a hook gives that answers with a promise; a value that is no promise is its own. -/
def Value.await (value : Value) : Except Fault Value :=
  match value.bare with
  | .pending inner => .ok inner
  | .failing cause => .error cause
  | _ => .ok value

/-- What a hook answers about a value, which does not show from which symbol it came. -/
def Behaviour.answer {σ : Type} (behaviour : Behaviour σ) (handle : Handle) (value : Value) :
    Except Fault Value :=
  behaviour.hook handle value.plain

end GraphQL
