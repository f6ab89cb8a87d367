import Kaskade.ConsumerRecords
import Kaskade.EncodedContent

/-!
# Fields meet their contract

The document of a decoded field conforms to the record contract, except where a registry
deserializer returns a null content together with schema metadata: none of the five
alternatives of a field allows the two together.
-/

namespace Kaskade.ConsumerRecordSchema

open Python Python.JsonSchema

variable {F E : Type}

def fieldDocument (content : Value F E) (requested : Deserialization)
    (schema : Option SchemaMetadata) (encoding : Option BytesEncoding)
    (error : Option (PyException × BytesEncoding)) : Value F E :=
  .dict ([(text "content", content), (text "deserializer", .str requested.name)]
    ++ (match schema with
      | some s => [(text "schema", s.dict)]
      | none => [])
    ++ (match encoding with
      | some e => [(text "encoding", .str e.name)]
      | none => [])
    ++ (match error with
      | some e => [(text "error", errorDict e.1 e.2)]
      | none => []))

@[simp] theorem deserializerType_name (r : Deserialization) :
    deserializerType (F := F) (E := E) (.str r.name) = true := by
  cases r <;> rfl

@[simp] theorem nonBytesDeserializerType_name (r : Deserialization) :
    nonBytesDeserializerType (F := F) (E := E) (.str r.name) =
      decide (r ≠ .bytes ∧ r ≠ .registry) := by
  cases r <;> rfl

@[simp] theorem const_bytes_name (r : Deserialization) :
    const (F := F) (E := E) (text "BYTES") (.str r.name) = decide (r = .bytes) := by
  cases r <;> rfl

@[simp] theorem const_registry_name (r : Deserialization) :
    const (F := F) (E := E) (text "REGISTRY") (.str r.name) = decide (r = .registry) := by
  cases r <;> rfl

@[simp] theorem bytesEncoding_name (e : BytesEncoding) :
    bytesEncoding (F := F) (E := E) (.str e.name) = true := by
  cases e <;> rfl

theorem const_name (e e' : BytesEncoding) :
    const (F := F) (E := E) e.name (.str e'.name) = decide (e = e') := by
  cases e <;> cases e' <;> rfl

@[simp] theorem schemaType_value (t : SchemaType) :
    schemaType (F := F) (E := E) (.str t.value) = true := by
  cases t <;> rfl

theorem dict_content (requested : Deserialization) (content : Value F E)
    (schema : Option SchemaMetadata) (encoding : BytesEncoding)
    (h : requested = .bytes → ∀ data, content ≠ .bytes data) :
    DeserializationOutcome.dict ⟨requested, content, schema, none, encoding⟩ =
      fieldDocument (jsonContent content encoding) requested schema none none := by
  cases requested with
  | bytes =>
    cases content with
    | bytes data => exact absurd rfl (h rfl data)
    | _ => cases schema <;> rfl
  | _ => cases schema <;> rfl

variable [PyFloat F]

theorem naturalNumber_int {least i : ℤ} (h : least ≤ i) :
    naturalNumber (F := F) (E := E) least (.int i) = true := by
  simp [naturalNumber, allOf, type, minimum, h]

theorem nonEmptyString_str {t : Text} (h : t ≠ []) :
    nonEmptyString (F := F) (E := E) (.str t) = true := by
  have hlength := List.length_pos_iff.mpr h
  simp only [nonEmptyString, allOf, type, minLength, List.all_cons, List.all_nil, Bool.and_true,
    Bool.and_eq_true, decide_eq_true_eq, true_and]
  omega

theorem confluentSchemaMetadata_dict (s : RegistrySchema) :
    confluentSchemaMetadata (F := F) (E := E) s.dict = true := by
  have hid := naturalNumber_int (F := F) (E := E) (Int.natCast_nonneg s.id)
  have hversion := naturalNumber_int (F := F) (E := E) (Int.ofNat_le.mpr s.version_pos)
  have hsubject := nonEmptyString_str (F := F) (E := E) s.subject_ne
  simp [RegistrySchema.dict, confluentSchemaMetadata, object, allOf, type, noAdditionalProperties,
    required, properties, Value.getItem?, const, hid, hsubject]
  exact hversion

theorem apicurioSchemaMetadata_dict (s : ApicurioRegistrySchema) :
    apicurioSchemaMetadata (F := F) (E := E) s.dict = true := by
  obtain ⟨id, idKind, type, place⟩ := s
  have hid := naturalNumber_int (F := F) (E := E) (Int.natCast_nonneg id)
  have hkind : enum (F := F) (E := E) [text "CONTENT_ID", text "GLOBAL_ID"] (.str idKind.value) =
      true := by
    cases idKind <;> rfl
  cases place with
  | none =>
    simp [ApicurioRegistrySchema.dict, apicurioSchemaMetadata, object, allOf, JsonSchema.type,
      noAdditionalProperties, required, properties, Value.getItem?, const, hid, hkind]
  | some p =>
    have hgroup := nonEmptyString_str (F := F) (E := E) p.group_ne
    have hartifact := nonEmptyString_str (F := F) (E := E) p.artifact_ne
    have hversion := nonEmptyString_str (F := F) (E := E) p.version_ne
    simp [ApicurioRegistrySchema.dict, apicurioSchemaMetadata, object, allOf, JsonSchema.type,
      noAdditionalProperties, required, properties, Value.getItem?, const, hid, hkind, hgroup,
      hartifact, hversion]

/-- The metadata of a schema matches the alternative of its registry and no other. -/
theorem schemaMetadata_dict (s : SchemaMetadata) :
    schemaMetadata (F := F) (E := E) s.dict = true := by
  cases s with
  | confluent s =>
    have hother : apicurioSchemaMetadata (F := F) (E := E) s.dict = false := by
      simp [RegistrySchema.dict, apicurioSchemaMetadata, object, allOf, required, Value.getItem?]
    simp [SchemaMetadata.dict, schemaMetadata, oneOf, confluentSchemaMetadata_dict s, hother]
  | apicurio s =>
    have hother : confluentSchemaMetadata (F := F) (E := E) s.dict = false := by
      obtain ⟨id, idKind, type, place⟩ := s
      cases place <;>
        simp [ApicurioRegistrySchema.dict, confluentSchemaMetadata, object, allOf, required,
          Value.getItem?]
    simp [SchemaMetadata.dict, schemaMetadata, oneOf, apicurioSchemaMetadata_dict s, hother]

theorem errorMetadata_errorDict (ex : PyException) (encoding : BytesEncoding) :
    errorMetadata (F := F) (E := E) (errorDict ex encoding) := by
  have hbytes : Deserialization.name .bytes = text "BYTES" := rfl
  simp [errorMetadata, errorDict, bytesFallback, object, allOf, type, noAdditionalProperties,
    required, properties, Value.getItem?, const, hbytes]

theorem encodingRules_declared {declares : Text → JsonSchema F E} {name : Text} {doc content : Value F E}
    {encoding : BytesEncoding}
    (hdeclares : ∀ e : BytesEncoding, declares e.name doc = decide (e = encoding))
    (hcontent : ∀ schema : JsonSchema F E, properties [(name, schema)] doc = schema content) :
    encodingRules declares name doc = contentRule encoding content := by
  have h₁ : declares (text "BASE64") doc = decide (BytesEncoding.base64 = encoding) := hdeclares .base64
  have h₂ : declares (text "HEX") doc = decide (BytesEncoding.hex = encoding) := hdeclares .hex
  have h₃ : declares (text "BYTE_ARRAY") doc = decide (BytesEncoding.byteArray = encoding) :=
    hdeclares .byteArray
  have h₄ : declares (text "ESCAPED") doc = decide (BytesEncoding.escaped = encoding) :=
    hdeclares .escaped
  simp only [encodingRules, allOf, ifThen, List.all_cons, List.all_nil, h₁, h₂, h₃, h₄, hcontent]
  cases encoding <;> simp [contentRule]

section Alternatives

variable (content : Value F E) (requested : Deserialization) (schema : Option SchemaMetadata)
  (encoding : Option BytesEncoding) (error : Option (PyException × BytesEncoding))

theorem nullDeserializedField_fieldDocument :
    nullDeserializedField (fieldDocument content requested schema encoding error) =
      (type .null content && schema.isNone && encoding.isNone && error.isNone) := by
  cases schema <;> cases encoding <;> cases error <;>
    simp [nullDeserializedField, fieldDocument, object, allOf, type, noAdditionalProperties,
      required, properties, Value.getItem?]

theorem bytesDeserializedField_fieldDocument :
    bytesDeserializedField (fieldDocument content requested schema encoding error) =
      (encodedBytes content && decide (requested = .bytes) && schema.isNone
        && encoding.any (fun e => contentRule e content) && error.isNone) := by
  cases encoding with
  | none =>
    cases schema <;> cases error <;>
      simp [bytesDeserializedField, fieldDocument, object, allOf, type, noAdditionalProperties,
        required, properties, Value.getItem?]
  | some e =>
    have hrules : fieldEncodingRules (fieldDocument content requested schema (some e) error) =
        contentRule e content := by
      refine encodingRules_declared (fun e' => ?_) (fun rule => ?_)
      · cases schema <;>
          simp [declaresEncoding, properties, fieldDocument, Value.getItem?, const_name]
      · simp [properties, fieldDocument, Value.getItem?]
    rw [bytesDeserializedField, allOf, List.all_cons, List.all_cons, hrules]
    cases schema <;> cases error <;>
      simp [fieldDocument, object, allOf, type, noAdditionalProperties,
        required, properties, Value.getItem?]

theorem nonBytesDeserializedField_fieldDocument :
    nonBytesDeserializedField (fieldDocument content requested schema encoding error) =
      (!type .null content && decide (requested ≠ .bytes ∧ requested ≠ .registry)
        && schema.isNone && encoding.isNone && error.isNone) := by
  cases schema <;> cases encoding <;> cases error <;>
    simp [nonBytesDeserializedField, fieldDocument, object, allOf, type, noAdditionalProperties,
      required, properties, Value.getItem?, JsonSchema.not]

theorem registryDeserializedField_fieldDocument :
    registryDeserializedField (fieldDocument content requested schema encoding error) =
      (!type .null content && decide (requested = .registry) && encoding.isNone
        && error.isNone) := by
  cases schema with
  | none =>
    cases encoding <;> cases error <;>
      simp [registryDeserializedField, fieldDocument, object, allOf, type, noAdditionalProperties,
        required, properties, Value.getItem?, JsonSchema.not]
  | some s =>
    have hs := schemaMetadata_dict (F := F) (E := E) s
    cases encoding <;> cases error <;>
      simp [registryDeserializedField, fieldDocument, object, allOf, type, noAdditionalProperties,
        required, properties, Value.getItem?, JsonSchema.not, hs]

theorem errorDeserializedField_fieldDocument :
    errorDeserializedField (fieldDocument content requested schema encoding error) =
      (encodedBytes content && schema.isNone && encoding.isNone
        && error.any (fun e => contentRule e.2 content)) := by
  cases error with
  | none =>
    cases schema <;> cases encoding <;>
      simp [errorDeserializedField, fieldDocument, object, allOf, type, noAdditionalProperties,
        required, properties, Value.getItem?]
  | some e =>
    have hrules : errorEncodingRules (fieldDocument content requested schema encoding (some e)) =
        contentRule e.2 content := by
      refine encodingRules_declared (fun e' => ?_) (fun rule => ?_)
      · cases schema <;> cases encoding <;>
          simp [declaresErrorEncoding, declaresEncoding, properties, fieldDocument, Value.getItem?,
            errorDict, bytesFallback, const_name]
      · simp [properties, fieldDocument, Value.getItem?]
    have hmetadata := errorMetadata_errorDict (F := F) (E := E) e.1 e.2
    rw [errorDeserializedField, allOf, List.all_cons, List.all_cons, hrules]
    cases schema <;> cases encoding <;>
      simp [fieldDocument, object, allOf, type, noAdditionalProperties,
        required, properties, Value.getItem?, hmetadata]

/-- How many of the five alternatives the document of a field matches decides whether it
conforms. -/
theorem deserializedField_fieldDocument :
    deserializedField (fieldDocument content requested schema encoding error) =
      decide (List.countP id [
        type .null content && schema.isNone && encoding.isNone && error.isNone,
        encodedBytes content && decide (requested = .bytes) && schema.isNone
          && encoding.any (fun e => contentRule e content) && error.isNone,
        !type .null content && decide (requested ≠ .bytes ∧ requested ≠ .registry)
          && schema.isNone && encoding.isNone && error.isNone,
        !type .null content && decide (requested = .registry) && encoding.isNone && error.isNone,
        encodedBytes content && schema.isNone && encoding.isNone
          && error.any (fun e => contentRule e.2 content)] = 1) := by
  simp only [deserializedField, oneOf, List.countP_cons, List.countP_nil, id,
    nullDeserializedField_fieldDocument, bytesDeserializedField_fieldDocument,
    nonBytesDeserializedField_fieldDocument, registryDeserializedField_fieldDocument,
    errorDeserializedField_fieldDocument]

end Alternatives

/-- The deserializer decodes the octets to null and names the schema it used. -/
def DecodesNullWithSchema (d : Deserializer F E) (raw : Option Bytes) (topic : Text)
    (field : MessageField) : Prop :=
  ∃ data schema, raw = some data ∧ d data (some topic) field = .ok ⟨.null, some schema⟩

@[simp] theorem type_null_bytesData (data : Bytes) (encoding : BytesEncoding) :
    type (F := F) (E := E) .null (bytesData data encoding) = false := by
  cases encoding <;> rfl

/-- Octets under the `BYTES` format conform with their declared encoding. -/
theorem deserializedField_bytes (data : Bytes) (encoding : BytesEncoding) :
    deserializedField (F := F) (E := E)
      (fieldDocument (bytesData data encoding) .bytes none (some encoding) none) = true := by
  simp [deserializedField_fieldDocument, encodedBytes_bytesData, contentRule_bytesData]

/-- The fallback to octets conforms with the encoding declared in its error. -/
theorem deserializedField_fallback (data : Bytes) (requested : Deserialization) (e : PyException)
    (encoding : BytesEncoding) :
    deserializedField (F := F) (E := E)
      (fieldDocument (bytesData data encoding) requested none none (some (e, encoding))) = true := by
  simp [deserializedField_fieldDocument, encodedBytes_bytesData, contentRule_bytesData]

/-- Content of another format conforms unless it is null beside metadata. -/
theorem deserializedField_content (content : Value F E) (requested : Deserialization)
    (schema : Option SchemaMetadata) (h : type .null content = false → requested ≠ .bytes)
    (hschema : schema ≠ none → requested = .registry) :
    deserializedField (fieldDocument content requested schema none none) = true ↔
      ¬ (type .null content = true ∧ schema ≠ none) := by
  rw [deserializedField_fieldDocument]
  cases hnull : type .null content with
  | true => cases schema <;> simp
  | false =>
    have hbytes := h hnull
    cases schema with
    | none => by_cases hr : requested = .registry <;> simp [hr, hbytes]
    | some s => simp [hschema (by simp)]

theorem type_null_jsonContent (content : Value F E) (encoding : BytesEncoding) :
    type .null (jsonContent content encoding) = true ↔ content = .null := by
  cases content with
  | bytes data => simp [jsonContent]
  | _ => simp [jsonContent, type]

/-- The document of a decoded field conforms unless the deserializer returned null with a
schema. -/
theorem deserializeField_conforms {raw : Option Bytes} {requested : Deserialization}
    {d : Deserializer F E} (hd : Supplies requested d) {topic : Text} {field : MessageField}
    {encoding fallback : BytesEncoding} {outcome : DeserializationOutcome F E}
    (h : deserializeField raw requested (some d) topic field encoding fallback = .ok outcome) :
    deserializedField outcome.dict = true ↔ ¬ DecodesNullWithSchema d raw topic field := by
  cases raw with
  | none =>
    obtain rfl := Except.ok.inj h
    have hdict := dict_content (F := F) (E := E) requested .null none encoding (by simp)
    have hconforms := deserializedField_content (F := F) (E := E) .null requested none
      (by simp [type]) (by simp)
    rw [hdict]
    simp only [jsonContent, hconforms]
    simp [DecodesNullWithSchema]
  | some data =>
    cases hresult : d data (some topic) field with
    | error e =>
      have hnone : ¬ DecodesNullWithSchema d (some data) topic field := by
        rintro ⟨data', schema, hdata, hok⟩
        obtain rfl := Option.some.inj hdata
        rw [hresult] at hok
        cases hok
      simp only [deserializeField, hresult, Except.map, Outcome.tryExcept] at h
      split_ifs at h
      obtain rfl := Except.ok.inj h
      exact iff_of_true (deserializedField_fallback data requested e fallback) hnone
    | ok result =>
      obtain rfl : ⟨requested, result.content, result.schema, none, encoding⟩ = outcome := by
        simpa only [deserializeField, hresult, Except.map, Outcome.tryExcept_ok, Except.ok.injEq]
          using h
      have hnull : DecodesNullWithSchema d (some data) topic field ↔
          result.content = .null ∧ result.schema ≠ none := by
        constructor
        · rintro ⟨data', schema, hdata, hok⟩
          obtain rfl := Option.some.inj hdata
          rw [hresult] at hok
          obtain rfl := Except.ok.inj hok
          simp
        · rintro ⟨hcontent, hschema⟩
          obtain ⟨schema, hs⟩ := Option.ne_none_iff_exists'.mp hschema
          exact ⟨data, schema, rfl, by rw [hresult, ← hcontent, ← hs]⟩
      have hplain : ∀ deserialize, d = withoutMetadata deserialize → result.schema = none := by
        rintro deserialize rfl
        unfold withoutMetadata at hresult
        cases hcall : deserialize data (some topic) field with
        | error e => simp [hcall, Except.map] at hresult
        | ok v =>
          rw [hcall] at hresult
          exact (congrArg DeserializationResult.schema (Except.ok.inj hresult)).symm
      by_cases hbytes : requested = .bytes
      · subst hbytes
        have hd : d = withoutMetadata defaultDeserializer := hd
        subst hd
        obtain rfl : ⟨.bytes data, none⟩ = result := Except.ok.inj hresult
        refine iff_of_true (deserializedField_bytes data encoding) ?_
        rw [hnull]
        simp
      · have hschema : result.schema ≠ none → requested = .registry := by
          intro hne
          cases requested with
          | registry => rfl
          | bytes => exact absurd rfl hbytes
          | _ =>
            obtain ⟨deserialize, hdeserialize⟩ := hd
            exact absurd (hplain deserialize hdeserialize) hne
        rw [dict_content requested result.content result.schema encoding
            (fun he => absurd he hbytes),
          deserializedField_content _ requested result.schema (fun _ => hbytes) hschema,
          type_null_jsonContent, hnull]

end Kaskade.ConsumerRecordSchema
