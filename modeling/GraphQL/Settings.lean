import GraphQL.Coercion
import GraphQL.Decimal.Reader
import GraphQL.Value.Text

/-!
# Settings

The settings of an execution, read from named values of any type. Values that say the same in
another form are accepted; every setting that cannot be read is reported.
-/

namespace GraphQL

/-- The levels at which a log may be kept. -/
inductive LogThreshold where
  | debug
  | info
  | warning
  | error
  | critical
  deriving DecidableEq

namespace LogThreshold

/-- The thresholds from the least urgent on. -/
def all : List LogThreshold :=
  [debug, info, warning, error, critical]

/-- The keyword of a threshold. -/
def keyword : LogThreshold → String
  | debug => "DEBUG"
  | info => "INFO"
  | warning => "WARNING"
  | error => "ERROR"
  | critical => "CRITICAL"

end LogThreshold

/-- The settings of an execution. -/
structure Settings where
  logLevel : LogThreshold := .info
  unknownFields : UnknownFieldPolicy := .reject
  /-- How many seconds an execution may take. -/
  timeout : Option Float := none
  /-- Whether finished root fields are kept when an execution is interrupted. -/
  partialResults : Bool := false
  /-- Whether plain resolvers run beside the engine instead of inside it. -/
  threads : Bool := false

/-- The names of the settings. -/
inductive SettingName where
  | logLevel
  | unknownFields
  | timeout
  | partialResults
  | threads
  deriving DecidableEq

/-- The key of a setting. -/
def SettingName.key : SettingName → String
  | logLevel => "log_level"
  | unknownFields => "unknown_input_fields"
  | timeout => "timeout"
  | partialResults => "partial_results"
  | threads => "sync_resolvers_in_threads"

/-- Why a setting cannot be read. -/
inductive SettingFault where
  | notPositive
  | unreadableNumber
  | notANumber
  | unreadableBoolean
  | notABoolean
  | notAChoice (choices : List String)
  deriving DecidableEq

namespace SettingFault

/-- The code of a fault. -/
def code : SettingFault → String
  | notPositive => "greater_than"
  | unreadableNumber => "float_parsing"
  | notANumber => "float_type"
  | unreadableBoolean => "bool_parsing"
  | notABoolean => "bool_type"
  | notAChoice _ => "literal_error"

/-- Choices as a message lists them. -/
def listChoices : List String → String
  | [] => ""
  | [last] => Text.quoted last
  | [first, last] => Text.quoted first ++ " or " ++ Text.quoted last
  | first :: rest => Text.quoted first ++ ", " ++ listChoices rest

/-- The text of a fault. -/
def message : SettingFault → String
  | notPositive => "Input should be greater than 0"
  | unreadableNumber => "Input should be a valid number, unable to parse string as a number"
  | notANumber => "Input should be a valid number"
  | unreadableBoolean => "Input should be a valid boolean, unable to interpret input"
  | notABoolean => "Input should be a valid boolean"
  | notAChoice choices => "Input should be " ++ listChoices choices

end SettingFault

/-- A setting that cannot be read. -/
structure SettingProblem where
  setting : SettingName
  fault : SettingFault
  deriving DecidableEq

namespace Settings

/-- One of some choices, given by its keyword. -/
def readChoice {α : Type} (choices : List α) (keyword : α → String) (value : Value) :
    Except SettingFault α :=
  let found := match value with
    | .str text => choices.find? (keyword · == text)
    | _ => none
  match found with
  | some choice => .ok choice
  | none => .error (.notAChoice (choices.map keyword))

/-- The words that stand for a Boolean. -/
def booleanWord? (text : String) : Option Bool :=
  let word := String.ofList (text.toList.map Char.toLower)
  if ["0", "off", "f", "false", "n", "no"].contains word then some false
  else if ["1", "on", "t", "true", "y", "yes"].contains word then some true
  else none

/-- The Boolean that zero and one stand for. -/
def booleanOfInt (n : Int) : Except SettingFault Bool :=
  if n = 0 then .ok false else if n = 1 then .ok true else .error .unreadableBoolean

/-- Whether an integer has a signed representation of 64 bits. -/
def isWord (n : Int) : Bool :=
  -(Nat.pow 2 63 : Int) ≤ n && n < (Nat.pow 2 63 : Int)

/-- A Boolean, given as such, as zero or one, or by a word. An integer counts only if it is a word,
and a float only if it is whole. -/
def readBoolean (value : Value) : Except SettingFault Bool :=
  match value with
  | .bool b => .ok b
  | .int n => if isWord n then booleanOfInt n else .error .notABoolean
  | .float x =>
    match (Decimal.wholeNumber? x).filter BuiltinScalar.hasWordSize with
    | some n => booleanOfInt n
    | none => .error .notABoolean
  | .str text =>
    match booleanWord? text with
    | some b => .ok b
    | none => .error .unreadableBoolean
  | .bytes data =>
    match (BuiltinScalar.decodeText? data).bind booleanWord? with
    | some b => .ok b
    | none => .error .unreadableBoolean
  | _ => .error .notABoolean

/-- A number of seconds that is positive. -/
def checkPositive (x : Float) : Except SettingFault (Option Float) :=
  if 0 < x then .ok (some x) else .error .notPositive

/-- A number of seconds, or none. -/
def readTimeout (value : Value) : Except SettingFault (Option Float) :=
  match value with
  | .null => .ok none
  | .float x => checkPositive x
  | .int n =>
    match BuiltinScalar.intToFloat n with
    | .ok (.float x) => checkPositive x
    | _ => .error .notANumber
  | .bool b => checkPositive (if b then 1 else 0)
  | .str text => readText text
  | .bytes data => ((BuiltinScalar.decodeText? data).map readText).getD (.error .unreadableNumber)
  | _ => .error .notANumber
where
  /-- A number of seconds written as text. -/
  readText (text : String) : Except SettingFault (Option Float) :=
    match Decimal.readFloat text with
    | some x => checkPositive x
    | none => .error .unreadableNumber

/-- Reads one setting, if a value is given for it. -/
def readSetting {α : Type} (values : Entries Value) (setting : SettingName) (default : α)
    (reader : Value → Except SettingFault α) : α × List SettingProblem :=
  match Entries.get? values setting.key with
  | none => (default, [])
  | some value =>
    match reader value with
    | .ok result => (result, [])
    | .error fault => (default, [⟨setting, fault⟩])

/-- Reads the settings from named values; names that mean no setting are passed over. -/
def read (values : Entries Value) : Except (List SettingProblem) Settings :=
  let (logLevel, p₁) := readSetting values .logLevel LogThreshold.info
    (readChoice LogThreshold.all LogThreshold.keyword)
  let (unknownFields, p₂) := readSetting values .unknownFields UnknownFieldPolicy.reject
    (readChoice [.reject, .ignore] UnknownFieldPolicy.keyword)
  let (timeout, p₃) := readSetting values .timeout none readTimeout
  let (partialResults, p₄) := readSetting values .partialResults false readBoolean
  let (threads, p₅) := readSetting values .threads false readBoolean
  match p₁ ++ p₂ ++ p₃ ++ p₄ ++ p₅ with
  | [] => .ok { logLevel, unknownFields, timeout, partialResults, threads }
  | problems => .error problems

/-- The settings as named values. -/
def toEntries (settings : Settings) : Entries Value :=
  [(SettingName.logLevel.key, .str settings.logLevel.keyword),
    (SettingName.unknownFields.key, .str settings.unknownFields.keyword),
    (SettingName.timeout.key, (settings.timeout.map Value.float).getD .null),
    (SettingName.partialResults.key, .bool settings.partialResults),
    (SettingName.threads.key, .bool settings.threads)]

end Settings

end GraphQL
