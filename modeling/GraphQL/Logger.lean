import GraphQL.Text.Lines
import GraphQL.Text.Quoted
import GraphQL.Value.Text

/-!
# Loggers

Loggers have names with points in them, and a logger hands what it lets pass on to the handlers of
its own and of all loggers above it. A logger without a level takes that of the next logger above
with one; the logger at the root has one. A handler lets pass what reaches its own level.
-/

namespace GraphQL

/-- A level as it is given: a number, or a Boolean that counts as one or zero. -/
inductive GivenLevel where
  | number (n : Int)
  | truth (b : Bool)
  deriving DecidableEq

namespace GivenLevel

/-- The number that a level counts as. -/
def amount : GivenLevel → Int
  | number n => n
  | truth b => if b then 1 else 0

/-- The level as a value. -/
def toValue : GivenLevel → Value
  | number n => .int n
  | truth b => .bool b

end GivenLevel

/-- What listens to a logger: the handler of the engine, known by number, or one of somebody else,
which writes elsewhere. -/
inductive LogHandler where
  | own (number : Nat) (level : GivenLevel)
  | foreign
  deriving DecidableEq

/-- A logger. Its level is zero as long as it takes that of another. -/
structure Logger where
  name : String
  level : GivenLevel := .number 0
  handlers : List LogHandler := []

/-- All loggers that are known, which are those that were named so far, and how many handlers the
engine has made. -/
structure Loggers where
  known : List Logger := []
  made : Nat := 0

/-- Why a level or the name of a logger is refused. -/
inductive LoggerError where
  | unknown (name : String)
  | notALevel (value : Value)
  /-- A message has a level that is no number. -/
  | notANumber
  | notAName

namespace LoggerError

/-- The text of a refusal. -/
def message : LoggerError → String
  | unknown name => "Unknown level: " ++ Text.quoted name
  | notALevel value => "Level not an integer or a valid string: " ++ value.describe
  | notANumber => "level must be an integer"
  | notAName => "A logger name must be a string"

/-- The class of a refusal. -/
def kind : LoggerError → FaultKind
  | unknown _ => .value
  | notALevel _ | notANumber | notAName => .type

/-- The refusal as an error object. -/
def fault (error : LoggerError) : Fault where
  kind := error.kind
  message := error.message

end LoggerError

namespace Loggers

/-- The named levels; for a number with two names the first is shown. -/
def namedLevels : List (String × Int) :=
  [("CRITICAL", 50), ("FATAL", 50), ("ERROR", 40), ("WARNING", 30), ("WARN", 30), ("INFO", 20),
    ("DEBUG", 10), ("NOTSET", 0)]

/-- The level of the logger at the root. -/
def rootLevel : Int := 30

/-- The format of a line; a line is shown here without its time. -/
def lineFormat : String :=
  "%(asctime)s - %(name)s - %(levelname)s - %(message)s"

/-- The level that a number or a name stands for. -/
def levelOf : Value → Except LoggerError GivenLevel
  | .int n => .ok (.number n)
  | .bool b => .ok (.truth b)
  | .str name =>
    match namedLevels.find? (·.1 == name) with
    | some (_, level) => .ok (.number level)
    | none => .error (.unknown name)
  | value => .error (.notALevel value)

/-- The name of a level. One without a name is shown as it was given. -/
def levelName (level : GivenLevel) : String :=
  match namedLevels.find? (·.2 == level.amount) with
  | some (name, _) => name
  | none => "Level " ++ level.toValue.display

/-- The name of the logger at the root. -/
def rootName : String := "root"

/-- The name under which a logger is kept; the root has two. -/
def canonical (name : String) : String :=
  if name = rootName then "" else name

/-- The logger of a name. -/
def get (loggers : Loggers) (name : String) : Logger :=
  let name := canonical name
  (loggers.known.find? (·.name == name)).getD
    { name, level := .number (if name = "" then rootLevel else 0) }

/-- Puts a logger in place of the one of its name. -/
def put (logger : Logger) : List Logger → List Logger
  | [] => [logger]
  | other :: rest =>
    if other.name == logger.name then logger :: rest else other :: put logger rest

/-- The names above a name, nearest first, the root left out. The name is given from its last
character on. What stands before a point is such a name if it is not empty; of two points in a row
only the second counts. -/
def above (reversed : List Char) : List String :=
  match _rest : reversed.dropWhile (· != '.') with
  | _ :: last :: rest => String.ofList (rest.reverse ++ [last]) :: above rest
  | _ => []
termination_by reversed.length
decreasing_by
  have shorter := (List.dropWhile_sublist (· != '.') (l := reversed)).length_le
  rw [_rest, List.length_cons, List.length_cons] at shorter
  omega

/-- When a logger became known, counted from the first one; one that is not known comes last. -/
def age (loggers : Loggers) (name : String) : Nat :=
  loggers.known.findIdx (·.name == name)

/-- Whether a logger stays below the root although one with a name above its own became known: the
newcomer takes over those before it that are below another name than its own, which is judged by how
the names begin, so that `r` leaves them to `root`. -/
def isPassedOver (loggers : Loggers) (lower upper : String) : Bool :=
  rootName.startsWith upper && loggers.age lower < loggers.age upper

/-- The known loggers above a name, nearest first, the root left out. The next above a logger is the
known one of the nearest name, from which the search goes on, unless that one is passed over. The
steps are at most `fuel`. -/
def knownAbove (loggers : Loggers) : Nat → String → List Logger
  | 0, _ => []
  | fuel + 1, name =>
    match (above name.toList.reverse).findSome? fun upper =>
      loggers.known.find? (·.name == upper) with
    | some logger =>
      if loggers.isPassedOver name logger.name then []
      else logger :: loggers.knownAbove fuel logger.name
    | none => []

/-- A logger and the known loggers above it, nearest first. -/
def chain (loggers : Loggers) (name : String) : List Logger :=
  let name := canonical name
  if name = "" then [loggers.get ""]
  else loggers.get name ::
    (loggers.knownAbove name.length name ++ [loggers.get ""])

/-- The level from which on a logger lets pass. -/
def effectiveLevel (loggers : Loggers) (name : String) : Int :=
  (((loggers.chain name).map fun logger => logger.level.amount).find? (· != 0)).getD 0

/-- The handler of the engine at a logger. -/
def ownHandler? (logger : Logger) : Option Nat :=
  logger.handlers.findSome? fun
    | .own number _ => some number
    | .foreign => none

/-- Handlers of which that of the engine has a level. -/
def setHandlerLevel (level : GivenLevel) (handlers : List LogHandler) : List LogHandler :=
  handlers.map fun
    | .own number _ => .own number level
    | .foreign => .foreign

/-- Gives a logger a level and the handler of the engine, which it gets only once. The result is
the number of the handler. -/
def setUp (loggers : Loggers) (name : String) (level : GivenLevel) : Nat × Loggers :=
  let logger := loggers.get name
  match ownHandler? logger with
  | some number =>
    let changed := { logger with level, handlers := setHandlerLevel level logger.handlers }
    (number, { loggers with known := put changed loggers.known })
  | none =>
    let changed :=
      { logger with level, handlers := logger.handlers ++ [.own loggers.made level] }
    (loggers.made, { known := put changed loggers.known, made := loggers.made + 1 })

/-- Makes a logger known. -/
def mention (loggers : Loggers) (name : String) : Loggers :=
  { loggers with known := put (loggers.get name) loggers.known }

/-- The name of a logger that is given as a value. What counts as false is the name of the root. -/
def nameOf : Value → Except LoggerError String
  | .str name => .ok name
  | value => if value.truthy then .error .notAName else .ok ""

/-- Does something with a logger whose name is given as a value. -/
def withName {α : Type} (loggers : Loggers) (name : Value)
    (action : String → Except LoggerError α × Loggers) : Except LoggerError α × Loggers :=
  match nameOf name with
  | .error refusal => (.error refusal, loggers)
  | .ok name => action name

/-- Sets a logger up with a level that is given as a value: the logger, the number of the handler
and the level. -/
def configure (loggers : Loggers) (name level : Value) :
    Except LoggerError (Logger × Nat × GivenLevel) × Loggers :=
  loggers.withName name fun name =>
    match levelOf level with
    | .error refusal => (.error refusal, loggers.mention name)
    | .ok level =>
      let (number, loggers) := loggers.setUp name level
      (.ok (loggers.get name, number, level), loggers)

/-- Gives a logger a handler of somebody else. -/
def addForeign (loggers : Loggers) (name : Value) : Except LoggerError Logger × Loggers :=
  loggers.withName name fun name =>
    let logger := loggers.get name
    let changed := { logger with handlers := logger.handlers ++ [.foreign] }
    (.ok changed, { loggers with known := put changed loggers.known })

/-- The name of a logger as a line shows it. -/
def shownName (name : String) : String :=
  if canonical name = "" then rootName else name

/-- The lines that the handlers of the engine write about a message. Messages without a positive
level pass nowhere. -/
def lines (loggers : Loggers) (name : String) (level : GivenLevel) (message : String) :
    List String :=
  if level.amount ≤ 0 ∨ level.amount < loggers.effectiveLevel name then []
  else
    let text := shownName name ++ " - " ++ levelName level ++ " - " ++ message
    (loggers.chain name).flatMap fun logger => logger.handlers.flatMap fun
      | .own _ threshold =>
        if level.amount < threshold.amount then []
        else (Text.lines (text ++ "\n").toList).map String.ofList
      | .foreign => []

/-- Hands a message to a logger: the lines that are written. -/
def emit (loggers : Loggers) (name level message : Value) :
    Except LoggerError (List String) × Loggers :=
  loggers.withName name fun name =>
    let outcome := match level with
      | .int n => .ok (loggers.lines name (.number n) message.display)
      | .bool b => .ok (loggers.lines name (.truth b) message.display)
      | _ => .error .notANumber
    (outcome, loggers.mention name)

end Loggers

/-- The number from which on reports are kept for a reader who asks for a level. Who asks for no
level gets that of the root. -/
def LogLevel.threshold (level : Value) : Except LoggerError Int := do
  let amount := (← Loggers.levelOf level).amount
  return if amount = 0 then Loggers.rootLevel else amount

end GraphQL
