import Kaskade.Deserializers

/-!
# Records

The record half of `kaskade.models`: a consumed record with its headers, the outcome of
decoding one field, and the documents they are shown as. The source keeps each outcome
after the first use; deserializers are functions here, so asking again gives the same one.
-/

namespace Kaskade

open Python

def escapedByte (b : UInt8) : Text :=
  if 0x20 ≤ b.toNat ∧ b.toNat ≤ 0x7e ∧ b ≠ 0x5c then [⟨b.toNat, by have := b.toNat_lt; omega⟩]
  else if b = 0x5c then text "\\\\"
  else text "\\x" ++ hexPair b

def escapedBytes (data : Bytes) : Text := data.flatMap escapedByte

variable {F E : Type}

def bytesData (data : Bytes) : BytesEncoding → Value F E
  | .base64 => .str (b64encode data)
  | .hex => .str (hexText data)
  | .byteArray => .list (data.map (fun b => .int b.toNat))
  | .escaped => .str (escapedBytes data)

/-- `content_str`; `str` is the interpreter's text of a value. -/
def contentStr (str : Value F E → Text) (content : Value F E) (bytesEncoding : BytesEncoding) :
    Text :=
  match content with
  | .null => text "null"
  | .bytes data => str (bytesData data bytesEncoding)
  | .bool b => if b then text "true" else text "false"
  | v => str v

def jsonContent (content : Value F E) (bytesEncoding : BytesEncoding) : Value F E :=
  match content with
  | .bytes data => bytesData data bytesEncoding
  | v => v

/-- The two entries that say how octets stand in for content. -/
def bytesFallback (bytesEncoding : BytesEncoding) : List (Text × Value F E) :=
  [(text "fallback", .str Deserialization.bytes.name), (text "encoding", .str bytesEncoding.name)]

/-- The `error` entry of a field that fell back to octets. -/
def errorDict (e : PyException) (bytesEncoding : BytesEncoding) : Value F E :=
  .dict ((text "message", .str e.message) :: bytesFallback bytesEncoding)

structure DeserializationOutcome (F E : Type) where
  requested : Deserialization
  content : Value F E
  schema : Option SchemaMetadata := none
  error : Option PyException := none
  bytesEncoding : BytesEncoding := .base64

namespace DeserializationOutcome

def usedFallback (o : DeserializationOutcome F E) : Bool := o.error.isSome

def dict (o : DeserializationOutcome F E) : Value F E :=
  .dict ([(text "content", jsonContent o.content o.bytesEncoding),
      (text "deserializer", .str o.requested.name)]
    ++ (match o.schema with
      | some s => [(text "schema", s.dict)]
      | none => [])
    ++ (match o.error, o.requested, o.content with
      | none, .bytes, .bytes _ => [(text "encoding", .str o.bytesEncoding.name)]
      | _, _, _ => [])
    ++ (match o.error with
      | some e => [(text "error", errorDict e o.bytesEncoding)]
      | none => []))

def str (text : Value F E → Text) (o : DeserializationOutcome F E) : Text :=
  contentStr text o.content o.bytesEncoding

end DeserializationOutcome

/-- `Record._deserialize`. -/
def deserializeField (raw : Option Bytes) (requested : Deserialization)
    (deserializer : Option (Deserializer F E)) (topic : Text) (field : MessageField)
    (bytesEncoding fallbackBytesEncoding : BytesEncoding) :
    Outcome (DeserializationOutcome F E) :=
  match raw with
  | none => .ok { requested, content := .null, bytesEncoding }
  | some data =>
    match deserializer with
    | none => .ok { requested, content := .bytes data, bytesEncoding }
    | some deserialize =>
      Outcome.tryExcept
        ((deserialize data (some topic) field).map
          (fun result => { requested, content := result.content, schema := result.schema, bytesEncoding }))
        deserializationExceptions
        (fun e => .ok { requested, content := .bytes data, error := some e,
                        bytesEncoding := fallbackBytesEncoding })

structure Header (F E : Type) where
  key : Text
  value : Option Bytes
  valueDeserializer : Option (Deserialize F E)
  fallbackBytesEncoding : BytesEncoding := .base64
  valueDeserialization : Deserialization := .string

namespace Header

/-- `value_deserialized`, with the error it may leave behind. -/
def valueDeserialized (h : Header F E) : Outcome (Value F E × Option PyException) :=
  match h.value with
  | none => .ok (.null, none)
  | some data =>
    match h.valueDeserializer with
    | none => .ok (.bytes data, none)
    | some deserialize =>
      Outcome.tryExcept ((deserialize data none .none).map (·, none)) deserializationExceptions
        (fun e => .ok (.bytes data, some e))

def dict (h : Header F E) : Outcome (Value F E) :=
  h.valueDeserialized.map fun ve =>
    .dict ([(text "key", .str h.key), (text "value", jsonContent ve.1 h.fallbackBytesEncoding)] ++
      match ve.2 with
      | some e => [(text "error", errorDict e h.fallbackBytesEncoding)]
      | none => [])

end Header

def padded : ℕ → ℕ → Text
  | 0, _ => []
  | width + 1, n => padded width (n / 10) ++ [⟨0x30 + n % 10, by omega⟩]

/-- `timestamp_json` of a timestamp: its `isoformat` with milliseconds, the offset as `Z`. -/
def timestampJson (t : UtcDateTime) : Text :=
  padded 4 t.year ++ text "-" ++ padded 2 t.month ++ text "-" ++ padded 2 t.day ++ text "T"
    ++ padded 2 t.hour ++ text ":" ++ padded 2 t.minute ++ text ":" ++ padded 2 t.second
    ++ text "." ++ padded 3 (t.microsecond / 1000) ++ text "Z"

structure Record (F E : Type) where
  topic : Text
  partition : ℤ
  offset : ℤ
  timestamp : Option UtcDateTime
  key : Option Bytes
  value : Option Bytes
  headers : List (Header F E)
  keyDeserialization : Deserialization
  valueDeserialization : Deserialization
  keyDeserializer : Option (Deserializer F E)
  valueDeserializer : Option (Deserializer F E)
  keyBytesEncoding : BytesEncoding
  valueBytesEncoding : BytesEncoding
  fallbackBytesEncoding : BytesEncoding

namespace Record

def keyOutcome (r : Record F E) : Outcome (DeserializationOutcome F E) :=
  deserializeField r.key r.keyDeserialization r.keyDeserializer r.topic .key r.keyBytesEncoding
    r.fallbackBytesEncoding

def valueOutcome (r : Record F E) : Outcome (DeserializationOutcome F E) :=
  deserializeField r.value r.valueDeserialization r.valueDeserializer r.topic .value
    r.valueBytesEncoding r.fallbackBytesEncoding

def resolveDeserializations (r : Record F E) : Outcome Unit := do
  let _ ← r.keyOutcome
  let _ ← r.valueOutcome
  return ()

def timestampValue (r : Record F E) : Value F E :=
  match r.timestamp with
  | none => .null
  | some t => .str (timestampJson t)

def dict (r : Record F E) : Outcome (Value F E) := do
  let headers ← r.headers.mapM Header.dict
  let key ← r.keyOutcome
  let value ← r.valueOutcome
  return .dict [(text "topic", .str r.topic), (text "partition", .int r.partition),
    (text "offset", .int r.offset), (text "timestamp", r.timestampValue),
    (text "headers", .list headers), (text "key", key.dict), (text "value", value.dict)]

end Record

end Kaskade
