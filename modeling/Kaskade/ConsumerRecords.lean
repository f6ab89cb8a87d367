import Kaskade.LocalDeserializers
import Kaskade.RecordModels

/-!
# Records of a consumer

How `ConsumerService` turns a polled message into a record, decodes it, and decides
whether it matches the filters of a call.
-/

namespace Kaskade

open Python

structure KafkaError where
  code : ℤ
  reason : Text
  deriving DecidableEq

def KafkaError.exception (e : KafkaError) : PyException := ⟨.kafkaException, e.reason⟩

/-- A polled message of the Kafka client. -/
structure Message where
  error : Option KafkaError
  partition : ℤ
  offset : ℤ
  key : Option Bytes
  value : Option Bytes
  /-- The kind of timestamp and its milliseconds. -/
  timestamp : ℤ × ℤ
  headers : Option (List (Text × Option Bytes))

structure RecordFilters where
  key : Text := []
  value : Text := []
  partition : Option ℤ := none
  header : Text := []

variable {F E : Type}

/-- `content_str`, with what `str` raises. -/
def Interpreter.contentStr (py : Interpreter F E) (content : Value F E)
    (bytesEncoding : BytesEncoding) : Outcome Text :=
  match content with
  | .null | .bool _ => .ok (Kaskade.contentStr py.str content bytesEncoding)
  | _ => py.strOf (jsonContent content bytesEncoding)

def DeserializationOutcome.contentStr (py : Interpreter F E) (outcome : DeserializationOutcome F E) :
    Outcome Text :=
  py.contentStr outcome.content outcome.bytesEncoding

def Header.valueStr (py : Interpreter F E) (header : Header F E) : Outcome Text := do
  let (content, _) ← header.valueDeserialized
  py.contentStr content header.fallbackBytesEncoding

/-- The configured parts of `ConsumerService` that turn messages into records. -/
structure ConsumerService (F E : Type) where
  topic : Text
  keyDeserialization : Deserialization
  valueDeserialization : Deserialization
  keyDeserializer : Deserializer F E
  valueDeserializer : Deserializer F E
  keyBytesEncoding : BytesEncoding
  valueBytesEncoding : BytesEncoding
  fallbackBytesEncoding : BytesEncoding
  key_supplied : Supplies keyDeserialization keyDeserializer
  value_supplied : Supplies valueDeserialization valueDeserializer

namespace ConsumerService

variable (py : Interpreter F E) (service : ConsumerService F E)

def messageTimestamp (message : Message) : Outcome (Option UtcDateTime) :=
  if message.timestamp.1 ≤ 0 then .ok none
  else (py.fromTimestamp message.timestamp.2).map some

def buildRecord (message : Message) (timestamp : Option UtcDateTime) : Record F E where
  topic := service.topic
  partition := message.partition
  offset := message.offset
  timestamp := timestamp
  key := message.key
  value := message.value
  headers := (message.headers.getD []).map fun kv =>
    { key := kv.1
      value := kv.2
      valueDeserializer := some (stringDeserializer py)
      fallbackBytesEncoding := service.fallbackBytesEncoding
      valueDeserialization := .string }
  keyDeserialization := service.keyDeserialization
  valueDeserialization := service.valueDeserialization
  keyDeserializer := some service.keyDeserializer
  valueDeserializer := some service.valueDeserializer
  keyBytesEncoding := service.keyBytesEncoding
  valueBytesEncoding := service.valueBytesEncoding
  fallbackBytesEncoding := service.fallbackBytesEncoding

def recordFromMessage (message : Message) : Outcome (Record F E) :=
  match message.error with
  | some e => .error e.exception
  | none => do
    let timestamp ← messageTimestamp py message
    let record := buildRecord py service message timestamp
    record.resolveDeserializations
    return record

variable {py service} in
/-- What building a record has established: the message was sound, and both of its fields
are decoded. -/
theorem recordFromMessage_ok {message : Message} {record : Record F E}
    (h : recordFromMessage py service message = .ok record) :
    ∃ timestamp key value, record = buildRecord py service message timestamp ∧
      record.keyOutcome = .ok key ∧ record.valueOutcome = .ok value := by
  unfold recordFromMessage at h
  cases herror : message.error with
  | some e => simp [herror] at h
  | none =>
    cases htimestamp : messageTimestamp py message with
    | error e => simp [herror, htimestamp, bind, Except.bind] at h
    | ok timestamp =>
      let built := buildRecord py service message timestamp
      cases hkey : built.keyOutcome with
      | error e =>
        simp [herror, htimestamp, bind, Except.bind, Record.resolveDeserializations, built, hkey] at h
      | ok key =>
        cases hvalue : built.valueOutcome with
        | error e =>
          simp [herror, htimestamp, bind, Except.bind, Record.resolveDeserializations, built, hkey,
            hvalue] at h
        | ok value =>
          have hrecord : built = record := by
            simpa [herror, htimestamp, bind, Except.bind, Record.resolveDeserializations, pure,
              Except.pure, built, hkey, hvalue] using h
          subst hrecord
          exact ⟨timestamp, key, value, rfl, hkey, hvalue⟩

/-- `part in whole`. -/
def isIn (part whole : Text) : Bool := part <:+: whole

/-- One filter of `_matches` on the text of a field; an empty filter matches everything. -/
def fieldMatches (filter : Text) (field : Outcome Text) : Outcome Bool :=
  if filter = [] then .ok true else field.map (isIn filter)

def recordMatches (record : Record F E) (filters : RecordFilters) : Outcome Bool :=
  if filters.partition.any (record.partition ≠ ·) then .ok false
  else do
    let keyMatches ← fieldMatches filters.key (record.keyOutcome >>= (·.contentStr py))
    if !keyMatches then return false
    let valueMatches ← fieldMatches filters.value (record.valueOutcome >>= (·.contentStr py))
    if !valueMatches then return false
    if filters.header = [] then return true
    record.headers.anyM fun header => (header.valueStr py).map (isIn filters.header)

end ConsumerService

end Kaskade
