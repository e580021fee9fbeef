import GraphQL.Decimal.Reader
import GraphQL.Value.Equality
import GraphQL.Value.Text

/-!
# Built-in scalars

Input is parsed strictly: a text is no number and a Boolean is no integer. Output is serialized
leniently: whatever reads as a value of the scalar without loss becomes that value.
-/

namespace GraphQL

/-- The five built-in scalars. -/
inductive BuiltinScalar where
  | int
  | float
  | string
  | boolean
  | id
  deriving DecidableEq

/-- The two directions in which a scalar converts values. -/
inductive Direction where
  | parse
  | serialize
  deriving DecidableEq

/-- The direction of a keyword. -/
def Direction.ofKeyword? : String → Option Direction
  | "parse" => some parse
  | "serialize" => some serialize
  | _ => none

/-- Why a built-in scalar refuses a value. -/
inductive RefusalReason where
  | notInteger
  | notIntegerText
  | fractional
  | notFinite
  | tooLong
  | aboveMax
  | belowMin
  | notNumber
  | notNumberText
  | notString
  | notBoolean
  | unsupported
  deriving DecidableEq

/-- The least value of the scalar Int. -/
def minInt : Int := -2147483648

/-- The greatest value of the scalar Int. -/
def maxInt : Int := 2147483647

namespace RefusalReason

/-- The detail that a refusal gives; none when the value is of no supported type at all. -/
def detail : RefusalReason → Option String
  | notInteger => some "Input should be a valid integer"
  | notIntegerText =>
    some "Input should be a valid integer, unable to parse string as an integer"
  | fractional => some "Input should be a valid integer, got a number with a fractional part"
  | notFinite => some "Input should be a finite number"
  | tooLong => some "Unable to parse input string as an integer, exceeded maximum size"
  | aboveMax => some ("Input should be less than or equal to " ++ toString maxInt)
  | belowMin => some ("Input should be greater than or equal to " ++ toString minInt)
  | notNumber => some "Input should be a valid number"
  | notNumberText => some "Input should be a valid number, unable to parse string as a number"
  | notString => some "Input should be a valid string"
  | notBoolean => some "Input should be a valid boolean"
  | unsupported => none

end RefusalReason

namespace BuiltinScalar

/-- The name of the scalar type. -/
def name : BuiltinScalar → String
  | int => "Int"
  | float => "Float"
  | string => "String"
  | boolean => "Boolean"
  | id => "ID"

/-- The built-in scalars in the order in which a registry gets them. -/
def all : List BuiltinScalar :=
  [int, float, string, boolean, id]

/-- The built-in scalar of a name. -/
def ofName? (name : String) : Option BuiltinScalar :=
  all.find? (·.name == name)

/-- The description of the scalar type. -/
def description : BuiltinScalar → String
  | int => "The `Int` scalar type represents non-fractional signed whole numeric values " ++
      "between -(2^31) and 2^31 - 1."
  | float => "The `Float` scalar type represents signed double-precision finite values."
  | string => "The `String` scalar type represents textual data as UTF-8 character sequences."
  | boolean => "The `Boolean` scalar type represents `true` or `false`."
  | id => "The `ID` scalar type represents a unique identifier, accepted as a string or integer " ++
      "and always serialized as a string."

/-- What the refusal of a value says. -/
def refusalText (scalar : BuiltinScalar) (value : Value) (reason : RefusalReason) : String :=
  match scalar, reason.detail with
  | boolean, none => "Boolean cannot represent a non boolean value " ++ value.describe
  | _, none => scalar.name ++ " cannot represent value " ++ value.describe
  | _, some detail => scalar.name ++ " cannot represent value " ++ value.describe ++ ": " ++ detail

/-- An integer in the range of the scalar Int. -/
def checkRange (n : Int) : Except RefusalReason Value :=
  if maxInt < n then .error .aboveMax
  else if n < minInt then .error .belowMin
  else .ok (.int n)

/-- A float that is neither infinite nor a missing number. -/
def checkFinite (x : Float) : Except RefusalReason Value :=
  match Decimal.Binary.ofFloat x with
  | .finite .. => .ok (.float x)
  | _ => .error .notFinite

/-- The float nearest to an integer, unless that is infinite. -/
def intToFloat (n : Int) : Except RefusalReason Value :=
  let x := Float.ofInt n
  match Decimal.Binary.ofFloat x with
  | .finite .. => .ok (.float x)
  | _ => .error .notNumber

/-- Whether the absolute value of an integer has at most 63 bits. A whole float beyond is not
taken for an integer. -/
def hasWordSize (n : Int) : Bool :=
  n.natAbs < Nat.pow 2 63

/-- An integer of the scalar Int from a float without fraction. -/
def floatToInt (x : Float) : Except RefusalReason Value :=
  match Decimal.Binary.ofFloat x with
  | .finite .. =>
    match Decimal.wholeNumber? x with
    | none => .error .fractional
    | some n => if hasWordSize n then checkRange n else .error .tooLong
  | _ => .error .notFinite

/-- An integer of the scalar Int from its text. -/
def textToInt (text : String) : Except RefusalReason Value :=
  match Decimal.readInt text with
  | .notANumber => .error .notIntegerText
  | .tooLong => .error .tooLong
  | .number n => checkRange n

/-- An integer of the scalar Int from the value behind a member of an enumeration of user code,
where a Boolean stays what it is. -/
def memberToInt : Value → Except RefusalReason Value
  | .int n => checkRange n
  | .bool b => .ok (.bool b)
  | _ => .error .tooLong

/-- A finite float from its text. -/
def textToFloat (text : String) : Except RefusalReason Value :=
  match Decimal.readFloat text with
  | none => .error .notNumberText
  | some x => checkFinite x

/-- The text that bytes encode. -/
def decodeText? (data : List UInt8) : Option String :=
  String.fromUTF8? ⟨data.toArray⟩

/-- The strict conversion of an input value. A keyword becomes its text. -/
def parse : BuiltinScalar → Value → Except RefusalReason Value
  | int, .int n => checkRange n
  | int, _ => .error .notInteger
  | float, .float x => checkFinite x
  | float, .int n => intToFloat n
  | float, _ => .error .notNumber
  | string, .str text | string, .keyword _ text => .ok (.str text)
  | string, _ => .error .notString
  | boolean, .bool b => .ok (.bool b)
  | boolean, _ => .error .notBoolean
  | id, .str text | id, .keyword _ text => .ok (.str text)
  | id, .int n => .ok (.str (toString n))
  | id, _ => .error .notString

/-- The lenient conversion of an output value. A keyword stays what it is where a text is wanted. -/
def serialize : BuiltinScalar → Value → Except RefusalReason Value
  | int, .int n => checkRange n
  | int, .bool b => .ok (.int (if b then 1 else 0))
  | int, .float x => floatToInt x
  | int, .str text | int, .keyword _ text => textToInt text
  | int, .bytes data => ((decodeText? data).map textToInt).getD (.error .notIntegerText)
  | int, .member _ _ value .. => memberToInt value
  | int, _ => .error .notInteger
  | float, .float x => checkFinite x
  | float, .int n => intToFloat n
  | float, .bool b => .ok (.float (if b then 1 else 0))
  | float, .str text | float, .keyword _ text => textToFloat text
  | float, .bytes data => ((decodeText? data).map textToFloat).getD (.error .notNumberText)
  | float, _ => .error .notNumber
  | string, .str text => .ok (.str text)
  | string, .keyword family text => .ok (.keyword family text)
  | string, .bool b => .ok (.str (if b then "true" else "false"))
  | string, .int n => .ok (.str (toString n))
  | string, .float x =>
    match Decimal.Binary.ofFloat x with
    | .finite .. => .ok (.str (Decimal.floatText x))
    | _ => .error .unsupported
  | string, _ => .error .unsupported
  | boolean, .bool b => .ok (.bool b)
  | boolean, .int n => .ok (.bool (n != 0))
  | boolean, .float x =>
    match Decimal.Binary.ofFloat x with
    | .finite _ mantissa _ => .ok (.bool (mantissa != 0))
    | _ => .error .unsupported
  | boolean, _ => .error .unsupported
  | id, .str text => .ok (.str text)
  | id, .keyword family text => .ok (.keyword family text)
  | id, .int n => .ok (.str (toString n))
  | id, _ => .error .unsupported

/-- The conversion of a scalar in one direction, with refusals as faults. -/
def convert (scalar : BuiltinScalar) (direction : Direction) (value : Value) :
    Except Fault Value :=
  let result := match direction with
    | .parse => scalar.parse value
    | .serialize => scalar.serialize value
  match result with
  | .ok converted => .ok converted
  | .error reason => .error { kind := .value, message := scalar.refusalText value reason }

end BuiltinScalar

end GraphQL
