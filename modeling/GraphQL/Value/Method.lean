import GraphQL.Value

/-!
# Methods of values

Texts, numbers, sequences and errors have methods of their own, and some that stand for operators or
serve other general ends, whose names are written between double underscores. A field may come
across one by its name; nobody calls it, so that it is only known by its name and by the value it
belongs to.
-/

namespace GraphQL.Value

/-- The methods that texts and byte strings share. -/
def sequenceTextMethods : List String :=
  ["capitalize", "center", "count", "endswith", "expandtabs", "find", "index", "isalnum", "isalpha",
    "isascii", "isdigit", "islower", "isspace", "istitle", "isupper", "join", "ljust", "lower",
    "lstrip", "maketrans", "partition", "removeprefix", "removesuffix", "replace", "rfind",
    "rindex",
    "rjust", "rpartition", "rsplit", "rstrip", "split", "splitlines", "startswith", "strip",
    "swapcase", "title", "translate", "upper", "zfill"]

/-- The methods of a value. -/
def methodNames (value : Value) : List String :=
  match value.bare with
  | str _ | keyword .. =>
    ["casefold", "encode", "format", "format_map", "isdecimal", "isidentifier", "isnumeric",
      "isprintable"] ++ sequenceTextMethods
  | bytes _ => ["decode", "fromhex", "hex"] ++ sequenceTextMethods
  | list _ =>
    ["append", "clear", "copy", "count", "extend", "index", "insert", "pop", "remove", "reverse",
      "sort"]
  | tuple _ => ["count", "index"]
  | int _ | bool _ =>
    ["as_integer_ratio", "bit_count", "bit_length", "conjugate", "from_bytes", "to_bytes"]
  | float _ => ["as_integer_ratio", "conjugate", "fromhex", "hex", "is_integer"]
  | fault _ => ["add_note", "with_traceback"]
  | promise _ => ["close", "send", "throw"]
  | _ => []

/-- A name between double underscores. -/
def general (name : String) : String :=
  "__" ++ name ++ "__"

/-- The operators of all these values. -/
def commonOperators : List String :=
  ["delattr", "eq", "ge", "getattribute", "gt", "init", "le", "lt", "ne", "repr", "setattr", "str"]

/-- The operators that all sequences have besides. -/
def sequenceOperators : List String :=
  ["add", "contains", "iter", "len", "mul", "rmul"]

/-- The operators that all numbers have besides. -/
def numberOperators : List String :=
  ["abs", "add", "bool", "divmod", "float", "floordiv", "hash", "int", "mod", "mul", "neg", "pos",
    "pow", "radd", "rdivmod", "rfloordiv", "rmod", "rmul", "rpow", "rsub", "rtruediv", "sub",
    "truediv"]

/-- The operators that only integers have, most of them on bits. -/
def bitOperators : List String :=
  ["and", "index", "invert", "lshift", "or", "rand", "rlshift", "ror", "rrshift", "rshift", "rxor",
    "xor"]

/-- The operators of error objects of a class. Some classes have functions in place of those that
are common. -/
def faultOperators (kind : FaultKind) : List String :=
  let replaced := match kind with
    | .typeNotFound => ["init", "str"]
    | .schemaBuild => ["init"]
    | _ => if kind.isFieldError then ["init", "repr"] else []
  ("hash" :: commonOperators).filter fun name => !replaced.contains name

/-- The operators of a value. -/
def operatorNames (value : Value) : List String :=
  match value.bare with
  | str _ | bytes _ =>
    ["getitem", "hash", "mod", "rmod"] ++ sequenceOperators ++ commonOperators
  | tuple _ => ["getitem", "hash"] ++ sequenceOperators ++ commonOperators
  | list _ =>
    ["delitem", "iadd", "imul", "setitem"] ++ sequenceOperators ++ commonOperators
  | int _ | bool _ => numberOperators ++ bitOperators ++ commonOperators
  | float _ => numberOperators ++ commonOperators
  | fault raised => faultOperators raised.kind
  | _ => []

/-- The general methods of a value that are no operators. -/
def generalNames (value : Value) : List String :=
  let common :=
    ["dir", "format", "getstate", "init_subclass", "new", "reduce", "reduce_ex", "sizeof",
      "subclasshook"]
  match value.bare with
  | str _ => "getnewargs" :: common
  | bytes _ => ["bytes", "getnewargs"] ++ common
  | tuple _ => ["class_getitem", "getnewargs"] ++ common
  | list _ => ["class_getitem", "getitem", "reversed"] ++ common
  | int _ | bool _ => ["ceil", "floor", "getnewargs", "round", "trunc"] ++ common
  | float _ => ["ceil", "floor", "getformat", "getnewargs", "round", "trunc"] ++ common
  | fault _ => "setstate" :: common
  | _ => []

/-- A method as a value. -/
def ofMethod (owner : Value) (className methodName : String) : Value :=
  .object 0 className [("__name__", .str methodName), ("__self__", owner.bare)] []

/-- The method of a value under a name. -/
def method? (value : Value) (methodName : String) : Option Value :=
  if (value.methodNames ++ value.generalNames.map general).contains methodName then
    some (value.ofMethod "builtin_function_or_method" methodName)
  else if (value.operatorNames.map general).contains methodName then
    some (value.ofMethod "method-wrapper" methodName)
  else none

end GraphQL.Value
