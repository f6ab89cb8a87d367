import Kaskade.FieldConformance

/-!
# Records meet their contract

The document of a record that `ConsumerService` builds conforms to the record contract
exactly when neither its key nor its value decodes to null beside schema metadata.
-/

namespace Kaskade.ConsumerRecordSchema

open Python Python.JsonSchema

variable {F E : Type}

def headerDocument (key : Text) (content : Value F E) (error : Option (PyException × BytesEncoding)) :
    Value F E :=
  .dict ([(text "key", .str key), (text "value", content)]
    ++ match error with
      | some e => [(text "error", errorDict e.1 e.2)]
      | none => [])

variable [PyFloat F]

theorem header_plain (key : Text) {content : Value F E}
    (h : type .string content || type .null content) :
    header (headerDocument key content none) = true := by
  have hplain : plainHeader (headerDocument key content none) = true := by
    simp [plainHeader, headerDocument, object, allOf, noAdditionalProperties, required, properties,
      Value.getItem?]
    simpa using h
  have herror : errorHeader (headerDocument key content none) = false := by
    simp [errorHeader, headerDocument, object, allOf, required, Value.getItem?]
  simp [header, oneOf, hplain, herror]

theorem header_fallback (key : Text) (data : Bytes) (e : PyException) (encoding : BytesEncoding) :
    header (F := F) (E := E)
      (headerDocument key (bytesData data encoding) (some (e, encoding))) = true := by
  let content : Value F E := bytesData data encoding
  let doc : Value F E := headerDocument key content (some (e, encoding))
  have hrules : headerErrorEncodingRules doc = contentRule encoding content := by
    refine encodingRules_declared (fun e' => ?_) (fun rule => ?_)
    · simp [doc, declaresErrorEncoding, declaresEncoding, properties, headerDocument,
        Value.getItem?, errorDict, bytesFallback, const_name]
    · simp [doc, properties, headerDocument, Value.getItem?]
  have herror : errorHeader doc = true := by
    rw [errorHeader, allOf, List.all_cons, List.all_cons, hrules, contentRule_bytesData]
    simp [doc, content, headerDocument, object, allOf, type, noAdditionalProperties, required, properties,
      Value.getItem?, encodedBytes_bytesData, errorMetadata_errorDict]
  have hplain : plainHeader doc = false := by
    simp [doc, plainHeader, headerDocument, object, allOf, noAdditionalProperties]
  show header doc = true
  simp [header, oneOf, herror, hplain]

/-- A header that decodes as UTF-8 text always has a document, and it conforms. -/
theorem header_conforms (py : Interpreter F E) {h : Header F E}
    (hd : h.valueDeserializer = some (stringDeserializer py)) :
    ∃ doc, h.dict = .ok doc ∧ header doc = true := by
  cases hvalue : h.value with
  | none =>
    refine ⟨headerDocument h.key .null none, ?_, header_plain h.key (by simp [type])⟩
    simp only [Header.dict, Header.valueDeserialized, hvalue]
    rfl
  | some data =>
    cases htext : utf8Decode false data with
    | some t =>
      refine ⟨headerDocument h.key (.str t) none, ?_, header_plain h.key (by simp [type])⟩
      simp only [Header.dict, Header.valueDeserialized, hvalue, hd, stringDeserializer,
        Interpreter.decodeUtf8, htext]
      rfl
    | none =>
      refine ⟨headerDocument h.key (bytesData data h.fallbackBytesEncoding)
        (some (⟨.unicodeDecodeError, py.octetsMessage data⟩, h.fallbackBytesEncoding)), ?_,
        header_fallback h.key data _ h.fallbackBytesEncoding⟩
      simp only [Header.dict, Header.valueDeserialized, hvalue, hd, stringDeserializer,
        Interpreter.decodeUtf8, htext]
      rfl

theorem headers_conform (py : Interpreter F E) (headers : List (Header F E))
    (hd : ∀ h ∈ headers, h.valueDeserializer = some (stringDeserializer py)) :
    ∃ docs, headers.mapM Header.dict = .ok docs ∧ docs.all header = true := by
  induction headers with
  | nil => exact ⟨[], rfl, rfl⟩
  | cons h headers ih =>
    obtain ⟨doc, hdoc, hconforms⟩ := header_conforms py (hd h List.mem_cons_self)
    obtain ⟨docs, hdocs, hall⟩ := ih fun h' hh' => hd h' (List.mem_cons_of_mem h hh')
    refine ⟨doc :: docs, ?_, by simp [hconforms, hall]⟩
    rw [List.mapM_cons, hdoc, hdocs]
    rfl

theorem timestamp_conforms (r : Record F E) : timestamp r.timestampValue = true := by
  cases h : r.timestamp with
  | none => simp [timestamp, oneOf, Record.timestampValue, h, allOf, type]
  | some t =>
    simp [timestamp, oneOf, Record.timestampValue, h, allOf, type,
      pattern_of_mem (timestampJson_matches t)]

/-- A document whose other parts conform does so when its two fields do. -/
theorem consumerRecord_fields (topic : Text) {partition offset : ℤ} (hpartition : 0 ≤ partition)
    (hoffset : 0 ≤ offset) {time : Value F E} (htime : timestamp time = true)
    {headers : List (Value F E)} (hheaders : headers.all header = true) (key value : Value F E) :
    consumerRecord (.dict [(text "topic", .str topic), (text "partition", .int partition),
        (text "offset", .int offset), (text "timestamp", time), (text "headers", .list headers),
        (text "key", key), (text "value", value)]) =
      (deserializedField key && deserializedField value) := by
  have hpartition' := naturalNumber_int (F := F) (E := E) hpartition
  have hoffset' := naturalNumber_int (F := F) (E := E) hoffset
  have harray : type .array (.list headers) = true := rfl
  have hitems : items header (.list headers) = true := hheaders
  simp [consumerRecord, object, allOf, noAdditionalProperties, required, properties,
    Value.getItem?, hpartition', hoffset', htime, harray, hitems]

/-- The document of a record conforms to the contract exactly when no field of the record
decodes to null beside schema metadata. -/
theorem record_conforms_iff (py : Interpreter F E) (service : ConsumerService F E)
    (message : Message) (hpartition : 0 ≤ message.partition) (hoffset : 0 ≤ message.offset)
    {record : Record F E} (h : service.recordFromMessage py message = .ok record) :
    ∃ doc, record.dict = .ok doc ∧
      (consumerRecord doc = true ↔
        ¬ DecodesNullWithSchema service.keyDeserializer message.key service.topic .key ∧
        ¬ DecodesNullWithSchema service.valueDeserializer message.value service.topic .value) := by
  obtain ⟨time, key, value, rfl, hkey, hvalue⟩ := ConsumerService.recordFromMessage_ok h
  let built := service.buildRecord py message time
  obtain ⟨headers, hheaders, hall⟩ := headers_conform py built.headers (by
    intro header hmem
    obtain ⟨kv, -, rfl⟩ := List.mem_map.mp hmem
    rfl)
  have hkeyIff : deserializedField key.dict = true ↔
      ¬ DecodesNullWithSchema service.keyDeserializer message.key service.topic .key :=
    deserializeField_conforms service.key_supplied hkey
  have hvalueIff : deserializedField value.dict = true ↔
      ¬ DecodesNullWithSchema service.valueDeserializer message.value service.topic .value :=
    deserializeField_conforms service.value_supplied hvalue
  have hfields := consumerRecord_fields service.topic hpartition hoffset (timestamp_conforms built)
    hall key.dict value.dict
  refine ⟨_, by rw [Record.dict, hheaders, hkey, hvalue]; rfl, ?_⟩
  rw [← hkeyIff, ← hvalueIff, ← Bool.and_eq_true, ← hfields]
  exact Iff.rfl

/-- A message with a null key and the JSON text `null` as its value. -/
def nullMessage : Message where
  error := none
  partition := 0
  offset := 7
  key := none
  value := some [0, 0, 0, 0, 1, 0x6e, 0x75, 0x6c, 0x6c]
  timestamp := (0, 0)
  headers := none

def bytesService : ConsumerService FloatRepr Empty where
  topic := text "orders"
  keyDeserialization := .bytes
  valueDeserialization := .bytes
  keyDeserializer := withoutMetadata defaultDeserializer
  valueDeserializer := withoutMetadata defaultDeserializer
  keyBytesEncoding := .base64
  valueBytesEncoding := .hex
  fallbackBytesEncoding := .base64
  key_supplied := supplies_bytes
  value_supplied := supplies_bytes

def registryService : ConsumerService FloatRepr Empty :=
  { bytesService with
    valueDeserialization := .registry
    valueDeserializer := fun _ _ _ => .ok ⟨.null, some (.confluent
      ⟨1, text "orders-value", 1, .json, by decide, Nat.one_pos⟩)⟩
    value_supplied := trivial }

theorem bytes_record_conforms :
    ∃ doc, (bytesService.buildRecord .plain nullMessage none).dict = .ok doc ∧
      consumerRecord doc = true := by
  obtain ⟨doc, hdoc, hconforms⟩ := record_conforms_iff .plain bytesService nullMessage (by decide)
    (by decide) (rfl : bytesService.recordFromMessage .plain nullMessage =
      .ok (bytesService.buildRecord .plain nullMessage none))
  refine ⟨doc, hdoc, hconforms.mpr ⟨?_, ?_⟩⟩
  · rintro ⟨data, schema, hdata, -⟩
    cases hdata
  · rintro ⟨data, schema, -, hok⟩
    cases hok

theorem registry_null_does_not_conform :
    ∃ record doc, registryService.recordFromMessage .plain nullMessage = .ok record ∧
      record.dict = .ok doc ∧ consumerRecord doc = false := by
  refine ⟨registryService.buildRecord .plain nullMessage none, _, rfl, rfl, ?_⟩
  decide +kernel

end Kaskade.ConsumerRecordSchema
