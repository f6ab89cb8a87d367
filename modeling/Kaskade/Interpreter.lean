import Kaskade.DecimalFloats
import Kaskade.Exceptions
import Kaskade.JsonRoundTrip

/-!
# The interpreter

What the program asks of the Python interpreter and can fail: `json.loads` and
`json.dumps` under the limits of the interpreter, UTF-8, and timestamps, each with the
exception it raises. The wording of the interpreter's own messages is left open.
-/

namespace Kaskade

open Python

/-- A point in time in UTC, as a `datetime` holds it. -/
structure UtcDateTime where
  year : ℕ
  month : ℕ
  day : ℕ
  hour : ℕ
  minute : ℕ
  second : ℕ
  microsecond : ℕ
  year_le : year ≤ 9999
  month_le : month ≤ 12
  day_le : day ≤ 31
  hour_lt : hour < 24
  minute_lt : minute < 60
  second_lt : second < 60
  microsecond_lt : microsecond < 1000000

def UtcDateTime.epoch : UtcDateTime where
  year := 1970
  month := 1
  day := 1
  hour := 0
  minute := 0
  second := 0
  microsecond := 0
  year_le := by decide
  month_le := by decide
  day_le := by decide
  hour_lt := by decide
  minute_lt := by decide
  second_lt := by decide
  microsecond_lt := by decide

/-- An interpreter whose floats are `F` and whose further objects are `E`. -/
structure Interpreter (F E : Type) where
  jsonLimits : JsonLimits
  /-- The deepest nesting `json.dumps` follows in a layout. -/
  dumpNesting : Layout → ℕ
  /-- `datetime.fromtimestamp(timestamp / 1000, tz=UTC)`. -/
  fromTimestamp : ℤ → Outcome UtcDateTime
  /-- `str(value)`. -/
  str : Value F E → Text
  /-- What `str(value)` raises instead, as it does for a value with parts that nest too deep. -/
  strRaises : Value F E → Option PyException
  /-- How a failed decoding of octets is worded. -/
  octetsMessage : Bytes → Text
  /-- How a failed encoding or conversion of a text is worded. -/
  textMessage : Text → Text
  /-- How an exceeded limit is worded. -/
  limitMessage : ExceptionClass → Text

namespace Interpreter

variable {F E : Type} (py : Interpreter F E)

/-- `str(value)`. -/
def strOf (value : Value F E) : Outcome Text :=
  match py.strRaises value with
  | some e => .error e
  | none => .ok (py.str value)

def encodeUtf8 (t : Text) : Outcome Bytes :=
  match utf8Encode t with
  | some data => .ok data
  | none => .error ⟨.unicodeEncodeError, py.textMessage t⟩

def decodeUtf8 (data : Bytes) : Outcome Text :=
  match utf8Decode false data with
  | some t => .ok t
  | none => .error ⟨.unicodeDecodeError, py.octetsMessage data⟩

def lineOf (document : Text) (position : ℕ) : ℕ :=
  (document.take position).count (chr '\n') + 1

def columnOf (document : Text) (position : ℕ) : ℕ :=
  ((document.take position).reverse.takeWhile (· ≠ chr '\n')).length + 1

/-- The exception `json.loads` raises for a failure. -/
def jsonException (document : Text) : JsonFailure → PyException
  | .syntaxError message remaining =>
    let position := document.length - remaining
    ⟨.jsonDecodeError, text message ++ text ": line " ++ natText (lineOf document position)
      ++ text " column " ++ natText (columnOf document position)
      ++ text " (char " ++ natText position ++ text ")"⟩
  | .digitLimit => ⟨.valueError, py.limitMessage .valueError⟩
  | .nestingLimit => ⟨.recursionError, py.limitMessage .recursionError⟩

variable [PyFloat F]

/-- `json.loads` of a text. -/
def loads (t : Text) : Outcome (Value F E) :=
  match Python.loads py.jsonLimits t with
  | .ok v => .ok v
  | .error failure => .error (py.jsonException t failure)

/-- `json.loads` of octets. -/
def loadsBytes (data : Bytes) : Outcome (Value F E) :=
  match decodeDetected data with
  | none => .error ⟨.unicodeDecodeError, py.octetsMessage data⟩
  | some t =>
    match decodeDocument py.jsonLimits t with
    | .ok v => .ok v
    | .error failure => .error (py.jsonException t failure)

/-- `json.dumps(v, ensure_ascii=False, ...)` with or without `default=str`. -/
def dumps (L : Layout) (defaultStr : Bool) (v : Value F E) : Outcome Text :=
  if py.dumpNesting L < v.depth then
    .error ⟨.recursionError, py.limitMessage .recursionError⟩
  else if v.withinDigits py.jsonLimits.digits = false then
    .error ⟨.valueError, py.limitMessage .valueError⟩
  else if !defaultStr && !v.isJson then
    .error ⟨.typeError, py.limitMessage .typeError⟩
  else .ok (Python.dumps L py.str v)

def plain : Interpreter FloatRepr Empty where
  jsonLimits := ⟨4300, 990⟩
  dumpNesting _ := 990
  fromTimestamp ms :=
    if ms = 0 then .ok .epoch else .error ⟨.overflowError, text "timestamp out of range"⟩
  str
    | .str s => s
    | v => Python.dumps .readable (fun _ => []) v
  strRaises v :=
    if 990 < v.depth then some ⟨.recursionError, text "maximum recursion depth exceeded"⟩ else none
  octetsMessage _ := text "invalid octets"
  textMessage _ := text "invalid text"
  limitMessage _ := text "limit exceeded"

end Interpreter

end Kaskade
