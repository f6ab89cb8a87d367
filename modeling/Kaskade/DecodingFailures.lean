import Kaskade.RecordModels
import Kaskade.LocalDeserializers

/-!
# Fields that cannot be decoded

A field that cannot be decoded falls back to its octets, with the error beside them. What escapes
the fallback stops consumption: the recursion error of deeply nested JSON, what a validator raises
besides an unresolvable reference, and the overflow error of a timestamp or a date outside its range.
-/

namespace Kaskade

open Python

variable {F E S : Type}

/-- What the consumer is configured with to decode fields without a registry. -/
structure LocalSettings (F E S : Type) where
  jsonConfig : Config
  validators : MessageField → Option (SchemaValidator F E)
  avroConfig : Config
  fastavro : AvroReader F E S

namespace LocalSettings

variable [PyFloat F] (py : Interpreter F E) (settings : LocalSettings F E S)

def pool : DeserializerPool F E where
  registryDeserializer := none
  protobufDeserializer := none
  avroDeserializer := some (avroDeserializer settings.fastavro settings.avroConfig)
  jsonDeserializer := jsonDeserializer py settings.jsonConfig fun field =>
    (settings.validators field).map (validationError py)

/-- What is assumed of `fastavro`: the configured Avro schemas are valid, and the reader raises only
the exceptions it is documented to raise on corrupt octets. -/
structure Documented : Prop where
  schema_valid : ∀ name path, settings.avroConfig name = some path →
    ∃ schema, settings.fastavro.loadSchema path = .ok schema
  reader_raises : ∀ body schema e, settings.fastavro.schemalessReader body schema = .error e →
    e.cls = .indexError ∨ e.cls = .eofError ∨ .valueError ∈ e.cls.mro ∨ e.cls = .overflowError

/-- Validating the content, or describing what is wrong with it, raises what a field does not
recover from. -/
inductive BreaksOff (validator : SchemaValidator F E) (content : Value F E) : Prop where
  | validates {e : PyException} : validator content = .error (.raised e) →
      e.isInstance deserializationExceptions = false → BreaksOff validator content
  | describes {error : Violation F E} {e : PyException} : validator content = .ok (some error) →
      describe py error = .error e → e.isInstance deserializationExceptions = false →
      BreaksOff validator content

/-- `json.loads` meets the nesting limit, or validation by the schema of the field breaks off. -/
def JsonExceedsLimits (data : Bytes) (field : MessageField) : Prop :=
  ∃ body, payload data settings.jsonConfig field (text "JSON") = .ok body ∧
    ((∃ t, decodeDetected body = some t ∧
        decodeDocument (F := F) (E := E) py.jsonLimits t = .error .nestingLimit) ∨
      ∃ content validator, py.loadsBytes body = .ok content ∧
        settings.validators field = some validator ∧ BreaksOff py validator content)

/-- The Avro reader meets a timestamp or date outside the range of `datetime`. -/
def AvroOverflows (data : Bytes) (field : MessageField) : Prop :=
  ∃ path body schema e, field ≠ .none ∧
    (if field = .key then settings.avroConfig (text "key") else settings.avroConfig (text "value")) =
      some path ∧
    payload data settings.avroConfig field (text "Avro") = .ok body ∧
    settings.fastavro.loadSchema path = .ok schema ∧
    settings.fastavro.schemalessReader body schema = .error e ∧ e.cls = .overflowError

def StopsConsumption (requested : Deserialization) (data : Bytes) (field : MessageField) : Prop :=
  match requested with
  | .json => settings.JsonExceedsLimits py data field
  | .avro => settings.AvroOverflows data field
  | _ => False

def localFormats : List Deserialization :=
  [.bytes, .string, .boolean, .integer, .long, .float, .double, .json, .avro]

/-- The deserializer of a field is the one the pool supplies for its format. -/
structure Decodes (requested : Deserialization) (deserializer : Option (Deserializer F E)) :
    Prop where
  local_format : requested ∈ localFormats
  pooled : ∃ d, deserializer = some d ∧ (settings.pool py).get py requested = .ok d

end LocalSettings

def Recovers {α : Type} (call : Outcome α) : Prop :=
  ∀ e, call = .error e → e.isInstance deserializationExceptions

theorem recovers_ok {α : Type} (a : α) : Recovers (.ok a) := by
  intro e h
  cases h

theorem recovers_error {α : Type} {e : PyException} :
    Recovers (α := α) (.error e) ↔ e.isInstance deserializationExceptions :=
  ⟨fun h => h e rfl, fun h e' he => by cases he; exact h⟩

theorem isInstance_of_valueError {e : PyException} (h : .valueError ∈ e.cls.mro) :
    e.isInstance deserializationExceptions := by
  rw [PyException.isInstance, List.any_eq_true]
  exact ⟨.valueError, by decide, by simpa using h⟩

/-- A field has an outcome exactly when its octets decode or fail in a way the consumer
recovers from. -/
theorem deserializeField_returns_iff {raw : Option Bytes} {requested : Deserialization}
    {deserialize : Deserialize F E} {topic : Text} {field : MessageField}
    {encoding fallback : BytesEncoding} :
    (∃ outcome, deserializeField raw requested (some (withoutMetadata deserialize)) topic field
        encoding fallback = .ok outcome) ↔
      ∀ data, raw = some data → Recovers (deserialize data (some topic) field) := by
  cases raw with
  | none => simp [deserializeField]
  | some data =>
    cases hcall : deserialize data (some topic) field with
    | ok content =>
      simp [deserializeField, withoutMetadata, hcall, Except.map, Recovers]
    | error e =>
      simp only [deserializeField, withoutMetadata, hcall, Except.map, Outcome.tryExcept,
        Option.some.injEq, forall_eq', recovers_error]
      split_ifs with h
      · simp [h]
      · simp [h]

theorem payload_recovers (data : Bytes) (config : Config) (field : MessageField) (name : Text) :
    Recovers (payload data config field name) := by
  simp only [payload]
  split_ifs
  · exact recovers_ok data
  · exact recovers_ok _
  · exact recovers_error.mpr rfl
  · exact recovers_error.mpr rfl

theorem structDeserializer_recovers (size : ℕ) (unpack : Bytes → Value F E) (data : Bytes)
    (topic : Option Text) (field : MessageField) :
    Recovers (structDeserializer size unpack data topic field) := by
  rw [structDeserializer]
  split_ifs
  · exact recovers_ok _
  · exact recovers_error.mpr rfl

theorem stringDeserializer_recovers (py : Interpreter F E) (data : Bytes) (topic : Option Text)
    (field : MessageField) : Recovers (stringDeserializer py data topic field) := by
  rw [stringDeserializer, Interpreter.decodeUtf8]
  cases utf8Decode false data with
  | some t => exact recovers_ok _
  | none => exact recovers_error.mpr rfl

theorem deserializeAvro_recovers_iff {call : Outcome (Value F E)}
    (h : ∀ e, call = .error e →
      e.cls = .indexError ∨ e.cls = .eofError ∨ .valueError ∈ e.cls.mro ∨ e.cls = .overflowError) :
    Recovers (deserializeAvro call) ↔ ¬ ∃ e, call = .error e ∧ e.cls = .overflowError := by
  cases call with
  | ok v => exact iff_of_true (recovers_ok v) (by simp)
  | error e =>
    have hwrapped : e.isInstance [.indexError] = true ↔ .indexError ∈ e.cls.mro := by
      simp [PyException.isInstance]
    simp only [Except.error.injEq, exists_eq_left', deserializeAvro, Outcome.tryExcept, hwrapped]
    rcases h e rfl with hcls | hcls | hcls | hcls
    · have hindex : ExceptionClass.indexError ∈ e.cls.mro := by
        rw [hcls]
        decide
      rw [if_pos hindex, hcls]
      exact iff_of_true (recovers_error.mpr rfl) (by decide)
    · have hindex : ExceptionClass.indexError ∉ e.cls.mro := by
        rw [hcls]
        decide
      rw [if_neg hindex, recovers_error, PyException.isInstance, hcls]
      decide
    · have hindex : ExceptionClass.indexError ∉ e.cls.mro := by
        revert hcls
        cases e.cls <;> decide
      rw [if_neg hindex]
      refine iff_of_true (recovers_error.mpr (isInstance_of_valueError hcls)) fun hoverflow => ?_
      rw [hoverflow] at hcls
      revert hcls
      decide
    · have hindex : ExceptionClass.indexError ∉ e.cls.mro := by
        rw [hcls]
        decide
      rw [if_neg hindex, recovers_error, PyException.isInstance, hcls]
      decide

namespace LocalSettings

variable {settings : LocalSettings F E S}

theorem avro_recovers_iff (hdoc : settings.Documented) (data : Bytes) (topic : Option Text)
    (field : MessageField) :
    Recovers (avroDeserializer settings.fastavro settings.avroConfig data topic field) ↔
      ¬ settings.AvroOverflows data field := by
  by_cases hfield : field = .none
  · refine iff_of_true ?_ fun h => ?_
    · rw [hfield]
      exact recovers_error.mpr rfl
    · obtain ⟨_, _, _, _, hne, -⟩ := h
      exact hne hfield
  · cases hpath : if field = .key then settings.avroConfig (text "key")
        else settings.avroConfig (text "value") with
    | none =>
      have hraise : avroDeserializer settings.fastavro settings.avroConfig data topic field =
          .error (deserializationError
            (text "Avro schema was not provided for context " ++ field.name)) := by
        simp [avroDeserializer, requireContext, hfield, hpath, bind, Except.bind]
      rw [hraise]
      refine iff_of_true (recovers_error.mpr rfl) ?_
      simp [AvroOverflows, hpath]
    | some path =>
      obtain ⟨schema, hschema⟩ : ∃ schema, settings.fastavro.loadSchema path = .ok schema := by
        split_ifs at hpath
        · exact hdoc.schema_valid _ path hpath
        · exact hdoc.schema_valid _ path hpath
      cases hbody : payload data settings.avroConfig field (text "Avro") with
      | error e =>
        have hraise : avroDeserializer settings.fastavro settings.avroConfig data topic field =
            .error e := by
          simp [avroDeserializer, requireContext, hfield, hpath, hbody, bind, Except.bind]
        rw [hraise]
        refine iff_of_true (recovers_error.mpr ?_) (by simp [AvroOverflows, hbody])
        exact payload_recovers data settings.avroConfig field (text "Avro") e hbody
      | ok body =>
        have hread : avroDeserializer settings.fastavro settings.avroConfig data topic field =
            deserializeAvro (settings.fastavro.schemalessReader body schema) := by
          simp [avroDeserializer, requireContext, hfield, hpath, hbody, hschema, bind, Except.bind]
        rw [hread, deserializeAvro_recovers_iff (hdoc.reader_raises body schema)]
        simp [AvroOverflows, hfield, hpath, hbody, hschema]

variable [PyFloat F] {py : Interpreter F E}

/-- A validation is recovered from unless it breaks off: what it finds becomes an error, and so does
a reference that cannot be resolved. -/
theorem validationError_recovers_iff {validator : SchemaValidator F E} {content : Value F E} :
    Recovers (validationError py validator content) ↔ ¬ BreaksOff py validator content := by
  rw [validationError]
  cases hvalidator : validator content with
  | error failure =>
    cases failure with
    | unresolvable ref =>
      refine iff_of_true (recovers_error.mpr rfl) ?_
      rintro (⟨hraised, -⟩ | ⟨hfound, -⟩)
      · cases hvalidator.symm.trans hraised
      · cases hvalidator.symm.trans hfound
    | raised e =>
      rw [recovers_error, ← Bool.not_eq_false, not_iff_not]
      refine ⟨.validates hvalidator, ?_⟩
      rintro (⟨hraised, he⟩ | ⟨hfound, -⟩)
      · cases hvalidator.symm.trans hraised
        exact he
      · cases hvalidator.symm.trans hfound
  | ok found =>
    cases found with
    | none =>
      refine iff_of_true (recovers_ok none) ?_
      rintro (⟨hraised, -⟩ | ⟨hfound, -⟩)
      · cases hvalidator.symm.trans hraised
      · cases hvalidator.symm.trans hfound
    | some error =>
      have hdescribes : BreaksOff py validator content ↔
          ∃ e, describe py error = .error e ∧ e.isInstance deserializationExceptions = false := by
        constructor
        · rintro (⟨hraised, -⟩ | ⟨hfound, hdescribe, he⟩)
          · cases hvalidator.symm.trans hraised
          · cases hvalidator.symm.trans hfound
            exact ⟨_, hdescribe, he⟩
        · rintro ⟨e, hdescribe, he⟩
          exact .describes hvalidator hdescribe he
      rw [hdescribes]
      dsimp only
      cases describe py error with
      | ok description => exact iff_of_true (recovers_ok _) (by simp)
      | error e =>
        change Recovers (.error e) ↔ _
        simp [recovers_error]

theorem loadsBytes_recovers_iff {body : Bytes} :
    Recovers (py.loadsBytes body) ↔ ¬ ∃ t, decodeDetected body = some t ∧
      decodeDocument (F := F) (E := E) py.jsonLimits t = .error .nestingLimit := by
  rw [Interpreter.loadsBytes]
  cases htext : decodeDetected body with
  | none => exact iff_of_true (recovers_error.mpr rfl) (by simp)
  | some t =>
    simp only [Option.some.injEq, exists_eq_left']
    cases hdocument : decodeDocument (F := F) (E := E) py.jsonLimits t with
    | ok v => exact iff_of_true (recovers_ok v) (by simp)
    | error failure =>
      simp only [recovers_error]
      cases failure with
      | syntaxError message remaining => exact iff_of_true rfl (by simp)
      | digitLimit => exact iff_of_true rfl (by simp)
      | nestingLimit => exact iff_of_false (Bool.eq_false_iff.mp rfl) (by simp)

theorem json_recovers_iff (data : Bytes) (topic : Option Text) (field : MessageField) :
    Recovers ((settings.pool py).jsonDeserializer data topic field) ↔
      ¬ settings.JsonExceedsLimits py data field := by
  rw [pool]
  dsimp only
  cases hbody : payload data settings.jsonConfig field (text "JSON") with
  | error e =>
    rw [jsonDeserializer, hbody]
    refine iff_of_true (fun e' he' => ?_) ?_
    · cases he'
      exact payload_recovers data settings.jsonConfig field (text "JSON") e hbody
    · rintro ⟨body, hok, -⟩
      rw [hbody] at hok
      cases hok
  | ok body =>
    have hexceeds : settings.JsonExceedsLimits py data field ↔
        (∃ t, decodeDetected body = some t ∧
          decodeDocument (F := F) (E := E) py.jsonLimits t = .error .nestingLimit) ∨
        ∃ content validator, py.loadsBytes body = .ok content ∧
          settings.validators field = some validator ∧ BreaksOff py validator content := by
      simp [JsonExceedsLimits, hbody]
    rw [hexceeds, not_or, ← loadsBytes_recovers_iff, jsonDeserializer, hbody]
    simp only [bind, Except.bind]
    cases hloads : py.loadsBytes body with
    | error e => simp
    | ok content =>
      cases hvalidator : settings.validators field with
      | none => simp [recovers_ok]
      | some validator =>
        have hbreaks : (∃ content' validator', (.ok content : Outcome (Value F E)) = .ok content' ∧
            some validator = some validator' ∧ BreaksOff py validator' content') ↔
            BreaksOff py validator content := by
          constructor
          · rintro ⟨_, _, ⟨⟩, ⟨⟩, h⟩
            exact h
          · exact fun h => ⟨content, validator, rfl, rfl, h⟩
        rw [hbreaks, ← validationError_recovers_iff]
        simp only [Option.map_some, recovers_ok, true_and]
        cases validationError py validator content with
        | error e => exact recovers_error.trans recovers_error.symm
        | ok found =>
          refine iff_of_true ?_ (recovers_ok found)
          cases found with
          | none => exact recovers_ok content
          | some message => exact recovers_error.mpr rfl

variable (py) in
theorem pool_get {requested : Deserialization} (h : requested ∈ localFormats)
    (hdoc : settings.Documented) :
    ∃ deserialize, (settings.pool py).get py requested = .ok (withoutMetadata deserialize) ∧
      ∀ data topic field, Recovers (deserialize data topic field) ↔
        ¬ settings.StopsConsumption py requested data field := by
  cases requested with
  | registry => exact absurd h (by decide)
  | protobuf => exact absurd h (by decide)
  | bytes => exact ⟨_, rfl, fun data _ _ => iff_of_true (recovers_ok _) id⟩
  | string =>
    exact ⟨_, rfl, fun data topic field =>
      iff_of_true (stringDeserializer_recovers py data topic field) id⟩
  | json => exact ⟨_, rfl, json_recovers_iff⟩
  | avro => exact ⟨_, rfl, avro_recovers_iff hdoc⟩
  | _ =>
    exact ⟨_, rfl, fun data topic field =>
      iff_of_true (structDeserializer_recovers _ _ data topic field) id⟩

theorem field_returns_iff (hdoc : settings.Documented) {requested : Deserialization}
    (hformat : requested ∈ localFormats) {d : Deserializer F E}
    (hd : (settings.pool py).get py requested = .ok d) (raw : Option Bytes) (topic : Text)
    (field : MessageField) (encoding fallback : BytesEncoding) :
    (∃ outcome, deserializeField raw requested (some d) topic field encoding fallback =
        .ok outcome) ↔
      ∀ data, raw = some data → ¬ settings.StopsConsumption py requested data field := by
  obtain ⟨deserialize, hget, hrecovers⟩ := pool_get py hformat hdoc
  rw [hget] at hd
  cases hd
  rw [deserializeField_returns_iff]
  exact forall_congr' fun data => imp_congr_right fun _ => hrecovers data (some topic) field

/-- Both fields of a record have an outcome exactly when neither stops consumption. -/
theorem outcomes_iff (hdoc : settings.Documented) (r : Record F E)
    (hkey : settings.Decodes py r.keyDeserialization r.keyDeserializer)
    (hvalue : settings.Decodes py r.valueDeserialization r.valueDeserializer) :
    ((∃ outcome, r.keyOutcome = .ok outcome) ∧ ∃ outcome, r.valueOutcome = .ok outcome) ↔
      (∀ data, r.key = some data →
          ¬ settings.StopsConsumption py r.keyDeserialization data .key) ∧
        ∀ data, r.value = some data →
          ¬ settings.StopsConsumption py r.valueDeserialization data .value := by
  obtain ⟨kd, hkd, hkget⟩ := hkey.pooled
  obtain ⟨vd, hvd, hvget⟩ := hvalue.pooled
  rw [Record.keyOutcome, Record.valueOutcome, hkd, hvd]
  exact and_congr
    (field_returns_iff hdoc hkey.local_format hkget r.key r.topic .key _ _)
    (field_returns_iff hdoc hvalue.local_format hvget r.value r.topic .value _ _)

def textExpected : SchemaValidator FloatRepr Empty
  | .int number => .ok (some ⟨text "$", some (text "type"), .str (text "string"), .int number⟩)
  | _ => .ok none

def booleans : LocalSettings FloatRepr Empty Unit where
  jsonConfig name := if name = text "key" then some (text "key.json") else none
  validators field := if field = .key then some textExpected else none
  avroConfig name := if name = text "value" then some (text "boolean.avsc") else none
  fastavro :=
    { loadSchema := fun _ => .ok ()
      schemalessReader := fun body _ =>
        match body with
        | [] => .error ⟨.indexError, text "index out of range"⟩
        | b :: _ => .ok (.bool (b ≠ 0)) }

theorem booleans_documented : booleans.Documented where
  schema_valid _ _ _ := ⟨(), rfl⟩
  reader_raises body schema e h := by
    cases body with
    | nil =>
      cases h
      exact .inl rfl
    | cons b rest => cases h

def booleanRecord (key value : Bytes) : Record FloatRepr Empty where
  topic := text "flags"
  partition := 0
  offset := 0
  timestamp := none
  key := some key
  value := some value
  headers := []
  keyDeserialization := .json
  valueDeserialization := .avro
  keyDeserializer := some (withoutMetadata (booleans.pool .plain).jsonDeserializer)
  valueDeserializer := some (withoutMetadata (avroDeserializer booleans.fastavro booleans.avroConfig))
  keyBytesEncoding := .base64
  valueBytesEncoding := .base64
  fallbackBytesEncoding := .base64

/-- A key that the schema refuses and an empty Avro value fall back to their octets. -/
theorem booleanRecord_outcomes :
    (∃ outcome, (booleanRecord [0x37] []).keyOutcome = .ok outcome) ∧
      ∃ outcome, (booleanRecord [0x37] []).valueOutcome = .ok outcome := by
  have hkey : booleans.Decodes .plain .json (booleanRecord [0x37] []).keyDeserializer :=
    ⟨by decide, _, rfl, rfl⟩
  have hvalue : booleans.Decodes .plain .avro (booleanRecord [0x37] []).valueDeserializer :=
    ⟨by decide, _, rfl, rfl⟩
  refine (outcomes_iff booleans_documented (booleanRecord [0x37] []) hkey hvalue).mpr ⟨?_, ?_⟩
  · rintro data ⟨⟩ ⟨body, hbody, ⟨t, ht, hlimit⟩ | ⟨content, validator, hcontent, hvalidator, hbreaks⟩⟩
    · cases hbody
      cases ht
      cases hlimit
    · cases hbody
      cases hcontent
      cases hvalidator
      rcases hbreaks with ⟨hraised, -⟩ | ⟨hfound, hdescribe, -⟩
      · cases hraised
      · cases hfound
        cases hdescribe
  · rintro data ⟨⟩ ⟨path, body, schema, e, -, -, hbody, -, hread, hcls⟩
    cases hbody
    cases hread
    cases hcls

/-- A key of deeply nested arrays raises a recursion error. -/
theorem nested_key_raises :
    ∃ e, (booleanRecord (List.replicate 991 0x5b) []).keyOutcome = .error e ∧
      e.cls = .recursionError := by
  have hraised : (match (booleanRecord (List.replicate 991 0x5b) []).keyOutcome with
      | .ok _ => false
      | .error e => decide (e.cls = .recursionError)) = true := by decide +kernel
  generalize (booleanRecord (List.replicate 991 0x5b) []).keyOutcome = outcome at hraised ⊢
  cases outcome with
  | ok _ => cases hraised
  | error e => exact ⟨e, rfl, of_decide_eq_true hraised⟩

end LocalSettings

end Kaskade
