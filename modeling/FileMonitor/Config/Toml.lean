import FileMonitor.Config
import Mathlib.Data.List.DropRight
import Mathlib.Data.Rat.Floor

/-!
# TOML values and their conversions

What `tomllib` returns, and what `int` and `str` make of it.  Texts are Lean strings: the lone
surrogates that `os.environ` uses for undecodable bytes behave here like any other character that is
neither a digit nor blank nor a slash.
-/

namespace FileMonitor

/-! ### Values -/

/-- A `float`, by the number it denotes. -/
inductive TomlFloat where
  | finite (value : ℚ)
  | posInf
  | negInf
  | nan
deriving DecidableEq

inductive DateKind where
  | datetime
  | date
  | time
deriving DecidableEq

/-- A value of a parsed document.  A date carries its text. -/
inductive TomlValue where
  | string (text : String)
  | integer (value : ℤ)
  | float (value : TomlFloat)
  | boolean (value : Bool)
  | date (kind : DateKind) (text : String)
  | array (values : List TomlValue)
  | table (entries : List (String × TomlValue))

/-- A `dict` with string keys; the first entry for a key counts. -/
abbrev TomlTable := List (String × TomlValue)

/-- `table[key] = value`. -/
def TomlTable.set (table : TomlTable) (key : String) (value : TomlValue) : TomlTable :=
  (key, value) :: table.filter fun entry => entry.1 ≠ key

/-- The name of the type, as in the interpreter's messages. -/
def TomlValue.typeName : TomlValue → String
  | .string _ => "str"
  | .integer _ => "int"
  | .float _ => "float"
  | .boolean _ => "bool"
  | .date .datetime _ => "datetime.datetime"
  | .date .date _ => "datetime.date"
  | .date .time _ => "datetime.time"
  | .array _ => "list"
  | .table _ => "dict"

/-! ### Exceptions -/

/-- The exceptions met while a configuration is loaded. -/
inductive LoadError where
  /-- A `ValueError` of the module itself, or an `OSError`. -/
  | config (error : ConfigError)
  -- the `ValueError`s of `int` and `str`
  | invalidLiteral (text : String)
  | nanToInteger
  | digitLimit
  /-- The `OverflowError` of `int` for an infinite float. -/
  | infinityToInteger
  /-- The `TypeError` of `int`, with the type of its argument. -/
  | intArgument (typeName : String)
  /-- The `TypeError` of an item assignment to a value of this type. -/
  | itemAssignment (typeName : String)
  /-- The `AttributeError` of a value of this type, which has no `get`. -/
  | noGet (typeName : String)
  /-- The `RecursionError` of a value or a path that is nested too deep. -/
  | recursion
deriving DecidableEq

/-- Whether the exception is a `ValueError` or an `OSError`. -/
def LoadError.isConfigError : LoadError → Bool
  | .config _ | .invalidLiteral _ | .nanToInteger | .digitLimit => true
  | .infinityToInteger | .intArgument _ | .itemAssignment _ | .noGet _ | .recursion => false

/-! ### Reading an integer -/

/-- The code points of the digit zero, in each block of decimal digits of Unicode 14. -/
def decimalZeros : List ℕ :=
  [0x30, 0x660, 0x6f0, 0x7c0, 0x966, 0x9e6, 0xa66, 0xae6, 0xb66, 0xbe6, 0xc66, 0xce6, 0xd66, 0xde6,
    0xe50, 0xed0, 0xf20, 0x1040, 0x1090, 0x17e0, 0x1810, 0x1946, 0x19d0, 0x1a80, 0x1a90, 0x1b50,
    0x1bb0, 0x1c40, 0x1c50, 0xa620, 0xa8d0, 0xa900, 0xa9d0, 0xa9f0, 0xaa50, 0xabf0, 0xff10, 0x104a0,
    0x10d30, 0x11066, 0x110f0, 0x11136, 0x111d0, 0x112f0, 0x11450, 0x114d0, 0x11650, 0x116c0, 0x11730,
    0x118e0, 0x11950, 0x11c50, 0x11d50, 0x11da0, 0x16a60, 0x16ac0, 0x16b50, 0x1d7ce, 0x1d7d8, 0x1d7e2,
    0x1d7ec, 0x1d7f6, 0x1e140, 0x1e2f0, 0x1e950, 0x1fbf0]

/-- The value of a decimal digit of any script. -/
def decimalDigit? (c : Char) : Option ℕ :=
  (decimalZeros.find? fun first => first ≤ c.toNat && c.toNat < first + 10).map fun first =>
    c.toNat - first

/-- The blanks that `int` accepts around a number. -/
def isBlank (c : Char) : Bool :=
  (0x9 ≤ c.toNat && c.toNat ≤ 0xd) || (0x2000 ≤ c.toNat && c.toNat ≤ 0x200a) ||
    [0x20, 0x85, 0xa0, 0x1680, 0x2028, 0x2029, 0x202f, 0x205f, 0x3000].contains c.toNat

/-- The digits of a numeral, where a single underscore may stand between two of them. -/
def digits? : List Char → Option (List ℕ)
  | [] => none
  | [c] => (decimalDigit? c).map fun digit => [digit]
  | c :: '_' :: rest => do
    let digit ← decimalDigit? c
    let digits ← digits? rest
    return digit :: digits
  | c :: c' :: rest => do
    let digit ← decimalDigit? c
    let digits ← digits? (c' :: rest)
    return digit :: digits

/-- The limit on the digits of a conversion between an integer and its text. -/
def maxStrDigits : ℕ := 4300

/-- The natural number a numeral stands for. -/
def readNat (numeral : List Char) : Option ℕ := do
  let digits ← digits? numeral
  if digits.length ≤ maxStrDigits then some (digits.foldl (fun n digit => 10 * n + digit) 0) else none

/-- `int(text)`, or `none` where it raises `ValueError`. -/
def readInt (text : String) : Option ℤ :=
  match (text.toList.dropWhile isBlank).rdropWhile isBlank with
  | '-' :: numeral => (readNat numeral).map fun n => -n
  | '+' :: numeral => (readNat numeral).map fun n => n
  | numeral => (readNat numeral).map fun n => n

example : readInt " -1_0 " = some (-10) ∧ readInt "１２" = some 12 ∧ readInt "1__0" = none ∧
    readInt "1.0" = none := by
  decide +kernel

/-! ### `int` and `str` -/

/-- The integer part of a finite float. -/
def truncate (value : ℚ) : ℤ := if 0 ≤ value then ⌊value⌋ else ⌈value⌉

/-- `int(value)`. -/
def pyInt (value : TomlValue) : Except LoadError ℤ :=
  match value with
  | .string text =>
    match readInt text with
    | some i => .ok i
    | none => .error (.invalidLiteral text)
  | .integer i => .ok i
  | .boolean b => .ok (if b then 1 else 0)
  | .float (.finite q) => .ok (truncate q)
  | .float .nan => .error .nanToInteger
  | .float .posInf | .float .negInf => .error .infinityToInteger
  | .date .. | .array _ | .table _ => .error (.intArgument value.typeName)

/-- `str(value)`.  The text of a float, an array or a table is that of `strOf`, which may raise. -/
def pyStr (strOf : TomlValue → Except LoadError String) (value : TomlValue) : Except LoadError String :=
  match value with
  | .string text => .ok text
  | .integer i => if i.natAbs < 10 ^ maxStrDigits then .ok (toString i) else .error .digitLimit
  | .boolean b => .ok (if b then "True" else "False")
  | .date _ text => .ok text
  | .float _ | .array _ | .table _ => strOf value

end FileMonitor
