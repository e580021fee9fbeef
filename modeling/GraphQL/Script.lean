import GraphQL.Behaviour
import GraphQL.Execution.Resolution
import GraphQL.Value.Equality

/-!
# Scripts

Small programs that stand for user code: scripts for resolvers, questions for hooks, and conversions
for scalars. Scripts share a state that outlives the execution they run in.
-/

namespace GraphQL

/-- What the scripts of a session share: counters, a store of values, and a log. -/
structure ScriptState where
  counters : Entries Nat := []
  store : Entries Value := []
  log : List String := []

/-- What a script may ask about its request. -/
inductive Inquiry where
  | context
  | root
  | variableValues
  | operationName
  | operation
  | fragments
  | settings
  deriving DecidableEq

/-- The inquiry of a keyword. -/
def Inquiry.ofKeyword? : String → Option Inquiry
  | "context" => some context
  | "root" => some root
  | "variables" => some variableValues
  | "operationName" => some operationName
  | "operation" => some operation
  | "fragments" => some fragments
  | "settings" => some settings
  | _ => none

/-- The answer to an inquiry. -/
def Request.answer (request : Request) : Inquiry → Value
  | .context => request.context
  | .root => request.root
  | .variableValues => .map request.variableValues
  | .operationName => .ofText? request.operation.name
  | .operation => .str request.operation.kind.keyword
  | .fragments => .list ((Entries.keys request.fragments).map Value.str)
  | .settings => .map request.settings.toEntries

/-- The attribute of a request that an inquiry reads. -/
def Inquiry.attributeName : Inquiry → String
  | context => "context_value"
  | root => "root_value"
  | variableValues => "variable_values"
  | operationName | operation => "operation"
  | fragments => "fragments"
  | settings => "settings"

/-- The fault of an inquiry where there is no request. -/
def Inquiry.withoutRequest (inquiry : Inquiry) : Fault where
  kind := .missingAttribute
  message := missingAttributeText Value.null.typeName inquiry.attributeName

/-- A script for a resolver. -/
inductive Script where
  /-- Gives a value that is made anew in each call. -/
  | constant (value : Value)
  | argument (key : String)
  /-- Gives an argument, or else what another script gives. -/
  | argumentOr (key : String) (fallback : Script)
  | arguments
  | parent
  | parentKey (key : String)
  | inquire (what : Inquiry)
  /-- Joins the texts that stand for values. -/
  | concat (parts : List Script)
  | raise (fault : Fault)
  /-- Promises what another script gives, after others were let run so many times. -/
  | afterPauses (count : Nat) (next : Script)
  /-- Promises what never comes. -/
  | hang
  | stop (reason : String) (next : Script)
  | log (text : String) (next : Script)
  /-- Counts its calls. -/
  | counter (name : String)
  /-- Stores a value and gives it. -/
  | store (key : String) (value : Script)
  /-- Adds a value to the elements of what is stored, and gives and stores the list of them. -/
  | push (key : String) (value : Script)
  /-- Gives a stored value. -/
  | fetch (key : String)

/-- What a script is called with; a method is called without a request. -/
structure ScriptCall where
  parent : Value
  arguments : Entries Value
  request : Option Request

namespace Script

/-- The script that gives a value, or fails as making the value does. -/
def giving : Except Fault Value → Script
  | .ok value => .constant value
  | .error fault => .raise fault

/-- A piece of user code over the state of scripts. -/
abbrev Code := UserCode ScriptState

/-- Pauses before going on. -/
def pauses : Nat → Code → Code
  | 0, next => next
  | count + 1, next => .pause (pauses count next)

/-- The value under a key of a parent, null where there is none. -/
def keyOf (parent : Value) (key : String) : Value :=
  (parent.read key key).toValue

/-- The fault of adding to a stored value that has no elements. -/
def notExtensible (stored : Value) : Fault where
  kind := .type
  message := "Value after * must be an iterable, not " ++ stored.typeName

mutual

/-- The code of a script that goes on with its value. -/
def code (call : ScriptCall) (next : Value → Code) : Script → Code
  | constant value => .renew value next
  | argument key =>
    match Entries.get? call.arguments key with
    | some value => next value
    | none => .fail { kind := .key, message := key }
  | argumentOr key fallback =>
    match Entries.get? call.arguments key with
    | some value => next value
    | none => code call next fallback
  | arguments => next (.map call.arguments)
  | parent => next call.parent
  | parentKey key => next (keyOf call.parent key)
  | inquire what =>
    match call.request with
    | some request => next (request.answer what)
    | none => .fail what.withoutRequest
  | concat parts =>
    codes call (fun values => next (.str (String.join (values.map Value.display)))) parts
  | raise fault => .fail fault
  | afterPauses count inner => .promise (pauses count (code call .finish inner)) next
  | hang => .promise .hang next
  | stop reason inner => .stop reason (code call next inner)
  | log text inner =>
    .access (fun state => { state with log := state.log ++ [text] })
      fun _ => code call next inner
  | counter name =>
    let count (state : ScriptState) := (Entries.get? state.counters name).getD 0 + 1
    .access
      (fun state => { state with counters := Entries.insert state.counters name (count state) })
      fun state => next (.int (count state))
  | store key inner => code call (fun value =>
      .access (fun state => { state with store := Entries.insert state.store key value })
        fun _ => next value) inner
  | push key inner => code call (fun value =>
      .access id fun state =>
        let stored := (Entries.get? state.store key).getD (.list [])
        .takeElements stored fun elements =>
          match elements with
          | none => .fail (notExtensible stored)
          | some elements =>
            let pushed := .list (elements ++ [value])
            .access (fun state => { state with store := Entries.insert state.store key pushed })
              fun _ => next pushed) inner
  | fetch key =>
    .access id fun state => next ((Entries.get? state.store key).getD .null)

/-- The code of scripts, one after another, that goes on with their values. -/
def codes (call : ScriptCall) (next : List Value → Code) : List Script → Code
  | [] => next []
  | part :: rest =>
    code call (fun value => codes call (fun values => next (value :: values)) rest) part

end

/-- The code of a whole script. -/
def wholeCode (script : Script) (call : ScriptCall) : Code :=
  script.code call .finish

end Script

/-- A question for a hook. -/
inductive HookScript where
  | constant (value : Value)
  | hasKey (key : String)
  /-- Asks whether a key of a mapping has a value, which may fail to be made. -/
  | keyIs (key : String) (expected : Except Fault Value)
  | ofClass (className : String)
  /-- Gives the entry of a mapping. -/
  | entry (key : String)
  | definition (name : String)
  | raise (fault : Fault)
  /-- Promises the answer of another. -/
  | promise (next : HookScript)

namespace HookScript

/-- The hook that answers with a value, or fails as making the value does. -/
def giving : Except Fault Value → HookScript
  | .ok value => .constant value
  | .error fault => .raise fault

/-- The fault of reading a text key from a value. -/
def keyFault (value : Value) (key : String) : Fault :=
  match value with
  | .map _ => { kind := .key, message := key }
  | .str _ | .keyword .. =>
    { kind := .type, message := "string indices must be integers, not 'str'" }
  | .list _ => { kind := .type, message := "list indices must be integers or slices, not str" }
  | .tuple _ => { kind := .type, message := "tuple indices must be integers or slices, not str" }
  | .bytes _ => { kind := .type, message := "byte indices must be integers or slices, not str" }
  | other =>
    { kind := .type, message := Text.quoted other.typeName ++ " object is not subscriptable" }

/-- Whether a value is a mapping in which a key has a value, null if it is missing. -/
def hasAt (value : Value) (key : String) (expected : Except Fault Value) : Except Fault Bool :=
  match value.bare with
  | .map entries => expected.map ((Entries.get? entries key).getD .null).equals
  | _ => .ok false

/-- The answer of a hook about a value, where some definitions are known by name. -/
def answer (known : List String) (value : Value) : HookScript → Except Fault Value
  | constant result => .ok result
  | hasKey key => .ok (.bool (value.entry? key).isSome)
  | keyIs key expected => (hasAt value key expected).map Value.bool
  | ofClass className => .ok (.bool (value.typeName == className))
  | entry key =>
    match value.entry? key with
    | some result => .ok result
    | none => .error (keyFault value key)
  | definition name =>
    if known.contains name then .ok (.definition name)
    else .error { kind := .key, message := name }
  | raise fault => .error fault
  | promise _ => .ok (.promise 0)

/-- The answer of a hook about a value, once it is there; what a promise gives is taken as it is. -/
def settled (known : List String) (value : Value) (hook : HookScript) : Except Fault Value :=
  match hook with
  | promise next => next.answer known value
  | _ => (hook.answer known value).bind Value.await

end HookScript

/-- A conversion of scalars. -/
inductive ConversionScript where
  | nothing
  /-- Puts the value into a list after another. -/
  | wrap (before : Value)
  /-- Puts a text before a text. -/
  | prepend (text : String)
  | raise (fault : Fault)

/-- The conversion that puts a value before others, or fails as making the value does. -/
def ConversionScript.wrapping : Except Fault Value → ConversionScript
  | .ok before => .wrap before
  | .error fault => .raise fault

/-- What a conversion makes of a value. -/
def ConversionScript.convert (value : Value) : ConversionScript → Except Fault Value
  | nothing => .ok .null
  | wrap before => .ok (.list [before, value])
  | prepend text =>
    match value.text? with
    | some rest => .ok (.str (text ++ rest))
    | none => .error { kind := .type, message := "prefix expects a string" }
  | raise fault => .error fault

/-- All scripts of a session, where a handle is an index, and the names of all definitions that they
know. -/
structure Scripts where
  known : List String := []
  resolvers : Array Script := #[]
  hooks : Array HookScript := #[]
  conversions : Array ConversionScript := #[]

namespace Scripts

/-- Adds a resolver, with its handle. -/
def addResolver (script : Script) (scripts : Scripts) : Handle × Scripts :=
  (scripts.resolvers.size, { scripts with resolvers := scripts.resolvers.push script })

/-- Adds a hook, with its handle. -/
def addHook (script : HookScript) (scripts : Scripts) : Handle × Scripts :=
  (scripts.hooks.size, { scripts with hooks := scripts.hooks.push script })

/-- Adds a conversion, with its handle. -/
def addConversion (script : ConversionScript) (scripts : Scripts) : Handle × Scripts :=
  (scripts.conversions.size, { scripts with conversions := scripts.conversions.push script })

/-- The behaviour that scripts give. A handle without a script gives null. -/
def behaviour (scripts : Scripts) : Behaviour ScriptState where
  resolve handle parent arguments request :=
    match scripts.resolvers[handle]? with
    | some script => script.wholeCode { parent, arguments, request }
    | none => .finish .null
  hook handle value :=
    match scripts.hooks[handle]? with
    | some script => script.settled scripts.known value
    | none => .ok .null
  convert handle value :=
    match scripts.conversions[handle]? with
    | some script => script.convert value
    | none => .ok .null

end Scripts

end GraphQL
