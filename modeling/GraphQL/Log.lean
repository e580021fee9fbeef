/-!
# Log records

What the parts of the engine report while they work, each under the logger of its part.
-/

namespace GraphQL

/-- The levels at which the engine reports. -/
inductive LogLevel where
  | debug
  | info
  | warning
  | error
  deriving DecidableEq

namespace LogLevel

/-- The name of a level. -/
def name : LogLevel → String
  | debug => "DEBUG"
  | info => "INFO"
  | warning => "WARNING"
  | error => "ERROR"

/-- The number of a level; a higher number is more urgent. -/
def severity : LogLevel → Nat
  | debug => 10
  | info => 20
  | warning => 30
  | error => 40

end LogLevel

/-- The parts of the engine that report. -/
inductive LogSource where
  | registry
  | coercion
  | abstractTypes
  | executor
  deriving DecidableEq

/-- The name of the logger of a part. -/
def LogSource.logger : LogSource → String
  | registry => "typegraph.type_registry"
  | coercion => "typegraph.coercion"
  | abstractTypes => "typegraph.abstract_types"
  | executor => "typegraph.graph_executor"

/-- One report. -/
structure LogRecord where
  level : LogLevel
  source : LogSource
  message : String
  deriving DecidableEq

/-- The level, the logger and the message of each report from a level on. -/
def LogRecord.columns (threshold : Int) (records : List LogRecord) : List (List String) :=
  (records.filter (threshold ≤ ·.level.severity)).map fun record =>
    [record.level.name, record.source.logger, record.message]

end GraphQL
