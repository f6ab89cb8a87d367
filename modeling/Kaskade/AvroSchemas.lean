import Kaskade.Interpreter
import Kaskade.LargeBounds

/-!
# Avro content

`kaskade.serializers.avro`: the schemas that `fastavro` parses, and the conversion of JSON content to
the Python values that `fastavro` writes. `json` lacks timestamps, dates, times, decimals and octets;
the consumer shows them with `str`, and the conversion reads them back under the schema. Every
dictionary may have a logical type, and a type may have the name of a keyword. The parsers of Python
are parameters.
-/

namespace Kaskade.Avro

open Python

/-- The classes of the objects that Avro's logical types give. -/
inductive ObjectKind where
  | datetime
  | date
  | time
  | decimal
  deriving DecidableEq

/-- The constructors that read the texts of objects of type `O` and of octets. -/
structure TextReaders (O : Type) where
  kind : O → ObjectKind
  /-- `datetime.fromisoformat`, `date.fromisoformat`, `time.fromisoformat` and `Decimal`; `none` stands
  for the exceptions that the conversion catches, which are all that they raise for texts. -/
  read : ObjectKind → Text → Option O
  /-- `ast.literal_eval`: the octets, or nothing for a literal of another type. -/
  literal : Text → Outcome (Option Bytes)

/-- A parsed schema: a text, a list of branches, or a dictionary with a `type` and perhaps a
`logicalType`. A field of a record has a name, whether it has a default, and a type. -/
inductive Schema where
  | name (t : Text)
  | union (branches : List Schema)
  /-- A dictionary whose `type` is a dictionary or a list. -/
  | wrapper (logicalType : Option Text) (type : Schema)
  /-- A dictionary whose `type` is a primitive, `fixed`, or the name of a type. -/
  | plain (logicalType : Option Text) (type : Text)
  | enum (logicalType : Option Text) (symbols : List Text)
  | array (logicalType : Option Text) (items : Schema)
  | map (logicalType : Option Text) (values : Schema)
  /-- A record, or an error, which is declared the same way. -/
  | record (logicalType : Option Text) (isError : Bool) (fields : List (Text × Bool × Schema))

namespace Schema

/-- `schema["logicalType"]`. -/
def logicalType? : Schema → Option Text
  | .name _ => none
  | .union _ => none
  | .wrapper l _ => l
  | .plain l _ => l
  | .enum l _ => l
  | .array l _ => l
  | .map l _ => l
  | .record l _ _ => l

/-- `_type_name`; a type that is a dictionary or a list has none that counts. -/
def typeName? : Schema → Option Text
  | .name t => some t
  | .union _ => some (text "union")
  | .wrapper _ _ => none
  | .plain _ t => some t
  | .enum _ _ => some (text "enum")
  | .array _ _ => some (text "array")
  | .map _ _ => some (text "map")
  | .record _ isError _ => some (if isError then text "error" else text "record")

def isDict : Schema → Bool
  | .name _ => false
  | .union _ => false
  | _ => true

def isDefinition : Schema → Bool
  | .record _ _ _ => true
  | .enum _ _ => true
  | .plain _ t => t = text "fixed"
  | _ => false

end Schema

/-- A parsed schema with `__named_schemas`. -/
structure Parsed where
  root : Schema
  namedSchemas : List (Text × Schema)
  definitions : ∀ p ∈ namedSchemas, p.2.isDefinition

/-- The named types that the conversion knows: only a dictionary holds them. -/
def Parsed.named (schema : Parsed) : List (Text × Schema) :=
  if schema.root.isDict then schema.namedSchemas else []

/-- The name of a type that a dictionary without logical type wraps, where its type is one. -/
def wrapsName (named : List (Text × Schema)) (logicalType? typeName? : Option Text) :
    Option Schema :=
  match logicalType?, typeName? with
  | none, some t => if (named.lookup t).isSome then some (.name t) else none
  | _, _ => none

/-- One turn of the loop of `_resolve`, with `_wraps`. -/
def resolveStep (named : List (Text × Schema)) : Schema → Option Schema
  | .name t => named.lookup t
  | .union _ => none
  | .wrapper none type => some type
  | schema => wrapsName named schema.logicalType? schema.typeName?

/-- `_resolve`, for so many turns at most. -/
def resolve (named : List (Text × Schema)) (fuel : ℕ) (schema : Schema) : Option Schema :=
  Repeated.run (resolveStep named) fuel schema

variable {F O : Type}

def datetimeLogicalTypes : List Text :=
  [text "timestamp-millis", text "timestamp-micros", text "timestamp-nanos",
    text "local-timestamp-millis", text "local-timestamp-micros", text "local-timestamp-nanos"]

def timeLogicalTypes : List Text := [text "time-millis", text "time-micros"]

def utcSuffix (t : Text) : Text :=
  if t.getLast? = some (chr 'Z') ∨ t.getLast? = some (chr 'z') then t.dropLast ++ text "+00:00"
  else t

variable (py : Interpreter F O) (readers : TextReaders O)

def readOr (value : Value F O) (object : Option O) : Value F O := object.elim value .other

def logical (logicalType : Text) (value : Value F O) : Value F O :=
  match value with
  | .str t =>
    if logicalType ∈ datetimeLogicalTypes then readOr value (readers.read .datetime (utcSuffix t))
    else if logicalType = text "date" then readOr value (readers.read .date t)
    else if logicalType ∈ timeLogicalTypes then readOr value (readers.read .time t)
    else if logicalType = text "decimal" then readOr value (readers.read .decimal t)
    else value
  | .int _ | .float _ =>
    if logicalType = text "decimal" then readOr value (readers.read .decimal (py.str value)) else value
  | _ => value

/-- The value that `_logical` gives where there is a logical type. -/
def readLogical (schema : Schema) (value : Value F O) : Value F O :=
  match schema.logicalType? with
  | some logicalType => logical py readers logicalType value
  | none => value

/-- `_bytes_literal` where the type asks for it. -/
def bytesLiteral (type : Text) (value : Value F O) : Outcome (Value F O) :=
  match value with
  | .str t =>
    if (type = text "bytes" ∨ type = text "fixed") ∧
        (text "b'" <+: t ∨ text "b\"" <+: t) then
      -- what `ast.literal_eval` raises besides leaves the conversion
      (Outcome.tryExcept (readers.literal t) [.syntaxError, .valueError] fun _ => .ok none).map
        fun parsed => parsed.elim value .bytes
    else .ok value
  | _ => .ok value

def readLiteral (schema : Schema) (value : Value F O) : Outcome (Value F O) :=
  match schema.typeName? with
  | some t => bytesLiteral readers t value
  | none => .ok value

def typeCheck (type : Text) (value : Value F O) : Bool :=
  match value with
  | .null => type = text "null"
  | .bool _ => type = text "boolean"
  | .int _ => type ∈ [text "int", text "long", text "float", text "double"]
  | .float _ => type ∈ [text "float", text "double"]
  | .str _ => type = text "string"
  | .bytes _ => type ∈ [text "bytes", text "fixed"]
  | .list _ => type = text "array"
  | .dict _ => type = text "map"
  | .other _ => false

def fitsRecord (fields : List (Text × Bool × Schema)) (value : Value F O) : Bool :=
  match value with
  | .dict items =>
    items.all (fun kv => kv.1 ∈ fields.map (·.1)) &&
      fields.all (fun field => field.2.1 || decide (field.1 ∈ items.map (·.1)))
  | _ => false

/-- The check of `_fits` by the name of the type. -/
def checks (schema : Schema) (value : Value F O) : Bool :=
  match schema, value with
  | .enum _ symbols, .str t => t ∈ symbols
  | .enum _ _, _ => false
  | .record _ _ fields, value => fitsRecord fields value
  | schema, value =>
    match schema.typeName? with
    | some t => typeCheck t value
    | none => false

def fits (schema : Schema) (value : Value F O) : Bool :=
  match schema.logicalType?, value with
  | some _, .other _ => true
  | _, value => checks schema value

/-- The type of a field; of two fields with one name the last one counts. -/
def fieldType (fields : List (Text × Bool × Schema)) (name : Text) : Option Schema :=
  (fields.reverse.find? (·.1 = name)).map (·.2.2)

section

variable (convert : Schema → Value F O → Steps PyException (Value F O))
  (resolve : Schema → Option Schema)

/-- `_convert_union`: the first branch that the converted value fits. -/
def convertUnion : List Schema → Value F O → Steps PyException (Value F O)
  | [], value => pure value
  | branch :: branches, value => do
    let candidate ← convert branch value
    let resolved ← resolve branch
    if fits resolved candidate then pure candidate else convertUnion branches value

/-- One item of a record; what the schema does not name stays as it is. -/
def convertField (fields : List (Text × Bool × Schema)) (kv : Text × Value F O) :
    Steps PyException (Text × Value F O) :=
  match fieldType fields kv.1 with
  | some type => do return (kv.1, ← convert type kv.2)
  | none => pure kv

/-- `_convert` of a value that was read under the logical type of a resolved schema. -/
def convertParts (schema : Schema) (value : Value F O) : Steps PyException (Value F O) :=
  match schema, value with
  | .record _ _ fields, .dict items => do return .dict (← items.mapM (convertField convert fields))
  | .array _ items, .list values => do return .list (← values.mapM (convert items))
  | .map _ values, .dict items => do
    return .dict (← items.mapM fun kv => do return (kv.1, ← convert values kv.2))
  | schema, value => readLiteral readers schema value

/-- `_convert` under a schema that is already resolved. -/
def convertResolved (schema : Schema) (value : Value F O) : Steps PyException (Value F O) :=
  match schema with
  | .union branches => convertUnion convert resolve branches value
  | schema => convertParts readers convert schema (readLogical py readers schema value)

end

/-- `_convert`, for so many steps at most. -/
def convert (named : List (Text × Schema)) :
    ℕ → Schema → Value F O → Steps PyException (Value F O)
  | 0, _, _ => Steps.cutOff
  | fuel + 1, schema, value => do
    let resolved ← resolve named fuel schema
    convertResolved py readers (convert named fuel) (resolve named fuel) resolved value

/-- `to_avro`, for so many steps at most. -/
def toAvro (fuel : ℕ) (schema : Parsed) (value : Value F O) : Steps PyException (Value F O) :=
  convert py readers schema.named fuel schema.root value

end Kaskade.Avro
