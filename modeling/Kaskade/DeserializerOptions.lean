import Kaskade.LocalDeserializers
import Kaskade.SerializerPools
import Kaskade.TypeReferences

/-!
# Options of the deserializers

`normalize_deserializer_options` and the pool that the consumer builds from what it accepts. The
deserializers check their configuration again whenever they are used, field by field; for accepted
properties none of these checks fails, and each field is read as its properties say.
-/

namespace Kaskade

open Python

def Deserialization.format : Deserialization → Serialization
  | .bytes => .bytes
  | .boolean => .boolean
  | .string => .string
  | .long => .long
  | .integer => .integer
  | .double => .double
  | .float => .float
  | .json => .json
  | .avro => .avro
  | .protobuf => .protobuf
  | .registry => .registry

/-- The properties that the consumer is given; each is a dictionary. -/
structure DeserializerProperties extends SerializerProperties where
  fallback : Properties
  fallback_distinct : (fallback.map Prod.fst).Nodup

def deserializerFramings : List Text := text "raw" :: registryProviders

def fallbackConfigs : List Text := [text "encoding"]

def normalizeFallback (config : Properties) : Outcome Properties := do
  validateProperties config fallbackConfigs
  normalizeChoices config fallbackConfigs bytesEncodings (text "Fallback encoding")

section Normalization

variable (lib : SchemaLibraries) (world : lib.World) (config : Properties) (key value : Serialization)

/-- `normalize_json` with `JSON_DESERIALIZER_CONFIGS`. -/
def normalizeDeserializerJson : Outcome Properties :=
  if config = [] then .ok []
  else do
    validateProperties config (schemaFileConfigs ++ framingConfigs)
    let normalized ← normalizeChoices config framingConfigs deserializerFramings (text "JSON framing")
    requireUsage .json key value
    validateFieldScope normalized .json key value (text "--json") (text "framing")
    validateSchemaScope normalized .json key value (text "--json")
    checkSchemaFiles lib world normalized (text "--json") (lib.loadJsonSchema world)
    return normalized

def normalizeAvro : Outcome Properties :=
  if config = [] then .ok []
  else do
    validateProperties config (schemaFileConfigs ++ framingConfigs)
    let normalized ← normalizeChoices config framingConfigs deserializerFramings (text "Avro framing")
    requireUsage .avro key value
    requireFieldProperties normalized .avro key value (text "--avro") (text "my-schema.avsc")
    [text "value", text "key"].forM fun fieldName =>
      match normalized.lookup fieldName with
      | none => .ok ()
      | some path => validateFile lib world path (text "'--avro " ++ fieldName ++ text "'")
    validateFieldScope normalized .avro key value (text "--avro") (text "framing")
    return normalized

def normalizeProtobuf : Outcome Properties :=
  if config = [] then .ok []
  else do
    validateProperties config
      ([text "descriptor", text "source", text "include"] ++ schemaFileConfigs ++ framingConfigs)
    let normalized ← normalizeChoices config framingConfigs deserializerFramings
      (text "Protobuf framing")
    requireUsage .protobuf key value
    requireProtobufSchema lib world normalized
    requireFieldProperties normalized .protobuf key value (text "--protobuf") (text "MyMessage")
    checkProtobufMessages lib world normalized
    validateFieldScope normalized .protobuf key value (text "--protobuf") (text "framing")
    return normalized

end Normalization

/-- Validated, normalized copies of the properties. -/
structure DeserializerOptions (lib : SchemaLibraries) where
  registryConfig : Properties
  apicurioConfig : Option lib.ApicurioConfig
  protobufConfig : Properties
  avroConfig : Properties
  jsonConfig : Properties
  bytesConfig : Properties
  fallbackConfig : Properties

def normalizeDeserializerOptions (lib : SchemaLibraries) (world : lib.World)
    (keyDeserialization valueDeserialization : Deserialization)
    (properties : DeserializerProperties) : Outcome (DeserializerOptions lib) := do
  let key := keyDeserialization.format
  let value := valueDeserialization.format
  requireConfigured key value properties.toSerializerProperties
  let registry ← normalizeRegistry lib world properties.registry key value
  let bytes ← normalizeBytes properties.bytes key value
  let fallback ← normalizeFallback properties.fallback
  let json ← normalizeDeserializerJson lib world properties.json key value
  let avro ← normalizeAvro lib world properties.avro key value
  let protobuf ← normalizeProtobuf lib world properties.protobuf key value
  return ⟨registry.1, registry.2, protobuf, avro, json, bytes, fallback⟩

/-- What the deserializers take from the libraries they are built on. -/
structure DeserializerLibraries (lib : SchemaLibraries) (F E : Type) where
  fastavro : AvroReader F E lib.AvroSchema
  /-- `validation_error`. -/
  validationError : lib.JsonSchema → Validator F E
  /-- `parse_message`. -/
  parseMessage : lib.MessageClass → Bytes → Outcome (Value F E)
  /-- `_deserialize_confluent`, of a topic. -/
  deserializeConfluent : lib.MessageClass → Bytes → Text → MessageField → Outcome (Value F E)
  /-- `ConfluentRegistryDeserializer`. -/
  confluentRegistry : Properties → Outcome (Deserializer F E)
  /-- `ApicurioRegistryDeserializer`. -/
  apicurioRegistry : lib.ApicurioConfig → Outcome (Deserializer F E)

section Pool

variable {lib : SchemaLibraries} {F E : Type} (backends : DeserializerLibraries lib F E)
  (world : lib.World)

/-- The backend of `RegistryDeserializer`. -/
def registryBackend (config : Properties) (apicurioConfig : Option lib.ApicurioConfig) :
    Outcome (Deserializer F E) :=
  let provider := registryProvider config
  if provider = confluentOption then backends.confluentRegistry config
  else if provider = apicurioOption then
    (match apicurioConfig with
      | some parsed => .ok parsed
      | none => lib.apicurioConfig world config) >>= backends.apicurioRegistry
  else .error (deserializationError (text "Unsupported registry provider: " ++ provider
    ++ text "; expected one of " ++ namesText registryProviders))

def fieldProperty (config : Properties) (context : MessageField) : Option Text :=
  if context = .key then config.lookup (text "key") else config.lookup (text "value")

def protobufMessageClass (config : Properties) (context : MessageField) :
    Outcome lib.MessageClass :=
  match fieldProperty config context with
  | none => .error (deserializationError
      (text "Protobuf message name not provided for context " ++ context.name))
  | some className =>
    if !hasProperty config (text "descriptor") && !hasProperty config (text "source") then
      .error (deserializationError (text "Descriptor not found"))
    else do
      let descriptorClasses ← loadMessageClasses lib world config
      match descriptorClasses className with
      | none => .error (deserializationError (text "Deserialization class not found"))
      | some messageClass => .ok messageClass

def protobufDeserializer (config : Properties) : Deserialize F E :=
  fun data topic context => do
    let topic ← requireField topic context
    let messageClass ← protobufMessageClass world config context
    let framing := scopedProperty (config.lookup ·) (text "framing") context (text "raw")
    if framing = confluentOption then backends.deserializeConfluent messageClass data topic context
    else if framing = apicurioOption then do
      let framed ← payload data (config.lookup ·) context (text "Protobuf")
      backends.parseMessage messageClass (parseTypeRef framed).2
    else if framing = text "raw" then backends.parseMessage messageClass data
    else .error (deserializationError (text "Unsupported Protobuf framing: " ++ framing))

/-- The validator of one field of `JsonDeserializer`. -/
def jsonValidator (config : Properties) (name : Text) : Outcome (Option (Validator F E)) :=
  match config.lookup name with
  | none => .ok none
  | some path => (lib.loadJsonSchema world path).map fun schema => some (backends.validationError schema)

/-- The validators of `JsonDeserializer`, read when it is built. -/
def jsonValidators (config : Properties) :
    Outcome (MessageField → Option (Validator F E)) := do
  let key ← jsonValidator backends world config (text "key")
  let value ← jsonValidator backends world config (text "value")
  return fun
    | .key => key
    | .value => value
    | .none => none

def DeserializerOptions.registryDeserializer (options : DeserializerOptions lib) :
    Outcome (Option (Deserializer F E)) :=
  if options.registryConfig = [] then .ok none
  else (registryBackend backends world options.registryConfig options.apicurioConfig).map some

/-- `DeserializerPool(...)`, of the settings of the consumer. -/
def DeserializerOptions.pool [PyFloat F] (py : Interpreter F E) (options : DeserializerOptions lib) :
    Outcome (DeserializerPool F E) := do
  let registry ← options.registryDeserializer backends world
  let validators ← jsonValidators backends world options.jsonConfig
  return {
    registryDeserializer := registry
    avroDeserializer := if options.avroConfig = [] then none
      else some (avroDeserializer backends.fastavro (options.avroConfig.lookup ·))
    protobufDeserializer := if options.protobufConfig = [] then none
      else some (protobufDeserializer backends world options.protobufConfig)
    jsonDeserializer := jsonDeserializer py (options.jsonConfig.lookup ·) validators }

end Pool

def choiceText (value : Text) : Text :=
  (value.map lowerChr).map fun c => if c = chr '_' then chr '-' else c

def requestedFraming (config : Properties) (field : MessageField) : Text :=
  choiceText (scopedProperty (config.lookup ·) (text "framing") field (text "raw"))

def framedPayload (framing : Text) (deserializer : Text) (data : Bytes) : Outcome Bytes :=
  if framing = text "raw" then .ok data
  else if hasRegistryHeader data then .ok (data.drop headerSize)
  else .error (deserializationError
    (providerTitle framing ++ text " " ++ deserializer ++ text " framing header not found"))

section Choices

variable {config normalized : Properties} {names choices : List Text} {label : Text}

theorem normalizeChoice_eq {propertyName : Text}
    (h : normalizeChoice choices label config propertyName = .ok normalized) (name : Text) :
    normalized.lookup name =
      if name = propertyName then (config.lookup name).map choiceText else config.lookup name := by
  rw [normalizeChoice] at h
  cases hcurrent : config.lookup propertyName with
  | none =>
    rw [hcurrent] at h
    obtain rfl := Except.ok.inj h
    split_ifs with hname
    · rw [hname, hcurrent, Option.map_none]
    · rfl
  | some current =>
    rw [hcurrent] at h
    dsimp only at h
    split_ifs at h
    obtain rfl := Except.ok.inj h
    rw [Dictionary.lookup_setItem]
    split_ifs with hname
    · rw [hname, hcurrent]
      rfl
    · rfl

theorem normalizeChoices_eq (hdistinct : names.Nodup)
    (h : normalizeChoices config names choices label = .ok normalized) (name : Text) :
    normalized.lookup name =
      if name ∈ names then (config.lookup name).map choiceText else config.lookup name := by
  induction names using List.reverseRecOn generalizing normalized with
  | nil =>
    obtain rfl := Except.ok.inj h
    rfl
  | append_singleton names last ih =>
    rw [normalizeChoices, List.foldlM_append] at h
    obtain ⟨before, hbefore, h⟩ := bind_eq_ok.mp h
    rw [List.foldlM_cons] at h
    obtain ⟨after, hlast, h⟩ := bind_eq_ok.mp h
    obtain rfl := Except.ok.inj h
    obtain ⟨hnames, -, hfresh⟩ := List.nodup_append.mp hdistinct
    have hnew : last ∉ names := fun hmem => hfresh last hmem last (List.mem_singleton_self last) rfl
    have hkept := ih hnames hbefore
    rw [normalizeChoice_eq hlast, hkept]
    by_cases hname : name = last
    · simp [hname, hnew]
    · simp [hname]

theorem scopedProperty_choice (hlookup : ∀ name ∈ names,
      normalized.lookup name = (config.lookup name).map choiceText) {property default : Text}
    (hdefault : choiceText default = default) {field : MessageField}
    (hscoped : field ≠ .none → field.lowerName ++ text "." ++ property ∈ names)
    (hboth : property ∈ names) :
    scopedProperty (normalized.lookup ·) property field default =
      choiceText (scopedProperty (config.lookup ·) property field default) := by
  have hglobal := hlookup property hboth
  simp only [scopedProperty]
  split_ifs with hfield
  · rw [hglobal]
    cases config.lookup property <;> simp [hdefault]
  · rw [hlookup _ (hscoped hfield), hglobal]
    cases config.lookup (field.lowerName ++ text "." ++ property) with
    | some value => simp
    | none => cases config.lookup property <;> simp [hdefault]

theorem scopedProperty_mem (hchosen : ∀ name ∈ names, ∀ choice,
      normalized.lookup name = some choice → choice ∈ choices) {property default : Text}
    (hdefault : default ∈ choices) {field : MessageField}
    (hscoped : field ≠ .none → field.lowerName ++ text "." ++ property ∈ names)
    (hboth : property ∈ names) :
    scopedProperty (normalized.lookup ·) property field default ∈ choices := by
  have hglobal : (normalized.lookup property).getD default ∈ choices := by
    cases hgiven : normalized.lookup property with
    | none => exact hdefault
    | some choice => exact hchosen property hboth choice hgiven
  simp only [scopedProperty]
  split_ifs with hfield
  · exact hglobal
  · cases hgiven : normalized.lookup (field.lowerName ++ text "." ++ property) with
    | none => exact hglobal
    | some choice => exact hchosen _ (hscoped hfield) choice hgiven

end Choices

structure FramesAs (config normalized : Properties) : Prop where
  framing : ∀ name ∈ framingConfigs, normalized.lookup name = (config.lookup name).map choiceText
  framings : ∀ name ∈ framingConfigs, ∀ choice, normalized.lookup name = some choice →
    choice ∈ deserializerFramings
  others : ∀ name, name ∉ framingConfigs → normalized.lookup name = config.lookup name

section Framing

variable {config normalized : Properties}

theorem framesAs_nil : FramesAs [] [] := by
  constructor
  · exact fun _ _ => rfl
  · intro name _ choice hchoice
    cases hchoice
  · exact fun _ _ => rfl

theorem framesAs_choices {label : Text}
    (h : normalizeChoices config framingConfigs deserializerFramings label = .ok normalized) :
    FramesAs config normalized := by
  have hdistinct : framingConfigs.Nodup := by decide
  constructor
  · intro name hname
    rw [normalizeChoices_eq hdistinct h, if_pos hname]
  · exact fun name hname choice hchoice => (normalizeChoices_lookup h name).2 choice hname hchoice
  · intro name hname
    rw [normalizeChoices_eq hdistinct h, if_neg hname]

variable {field : MessageField}

theorem framing_scoped (hfield : field ≠ .none) :
    field.lowerName ++ text "." ++ text "framing" ∈ framingConfigs := by
  cases field with
  | none => exact absurd rfl hfield
  | key => decide
  | value => decide

theorem FramesAs.requested (h : FramesAs config normalized) :
    scopedProperty (normalized.lookup ·) (text "framing") field (text "raw") =
      requestedFraming config field := by
  have hboth : text "framing" ∈ framingConfigs := by decide
  have hraw : choiceText (text "raw") = text "raw" := by decide
  exact scopedProperty_choice h.framing hraw framing_scoped hboth

theorem FramesAs.requested_mem (h : FramesAs config normalized) :
    requestedFraming config field ∈ deserializerFramings := by
  have hboth : text "framing" ∈ framingConfigs := by decide
  rw [← h.requested]
  exact scopedProperty_mem h.framings List.mem_cons_self framing_scoped hboth

theorem FramesAs.payload_eq (h : FramesAs config normalized) (data : Bytes) (deserializer : Text) :
    payload data (normalized.lookup ·) field deserializer =
      framedPayload (requestedFraming config field) deserializer data := by
  rw [payload, h.requested, framedPayload]
  by_cases hraw : requestedFraming config field = text "raw"
  · rw [if_pos hraw, if_pos hraw]
  · have hprovider : requestedFraming config field ∈ registryProviders :=
      (List.mem_cons.mp h.requested_mem).resolve_left hraw
    by_cases hheader : hasRegistryHeader data = true
    · simp [hraw, hprovider, hheader]
    · simp [hraw, hprovider, hheader]

end Framing

section Contents

variable {lib : SchemaLibraries} {F E : Type} (backends : DeserializerLibraries lib F E)
  (world : lib.World)

/-- The content of a JSON payload, checked by the validator of its field. -/
def checkedJson [PyFloat F] (py : Interpreter F E) (validator : Option (Validator F E))
    (body : Bytes) : Outcome (Value F E) := do
  let content ← py.loadsBytes body
  match validator with
  | none => .ok content
  | some validationError =>
    match ← validationError content with
    | none => .ok content
    | some message => .error (deserializationError message)

def avroContent (path : Text) (body : Bytes) : Outcome (Value F E) := do
  let schema ← backends.fastavro.loadSchema path
  deserializeAvro (backends.fastavro.schemalessReader body schema)

def messageClassIn (config : Properties) (messageName : Text) : Outcome lib.MessageClass := do
  let descriptorClasses ← loadMessageClasses lib world config
  match descriptorClasses messageName with
  | none => .error (deserializationError (text "Deserialization class not found"))
  | some messageClass => .ok messageClass

def protobufContent (framing : Text) (messageClass : lib.MessageClass) (data : Bytes) (topic : Text)
    (field : MessageField) : Outcome (Value F E) :=
  if framing = confluentOption then backends.deserializeConfluent messageClass data topic field
  else if framing = apicurioOption then
    framedPayload framing (text "Protobuf") data >>= fun body =>
      backends.parseMessage messageClass (parseTypeRef body).2
  else backends.parseMessage messageClass data

/-- What building the deserializer of the registry gives, of the provider that the properties name. -/
def DeserializerProperties.OffersRegistry (properties : DeserializerProperties) (validated : lib.World)
    (registry : Outcome (Deserializer F E)) : Prop :=
  if registryProvider properties.registry = apicurioOption then
    ∃ configured, lib.apicurioConfig validated
        (Dictionary.setItem properties.registry (text "provider") apicurioOption) = .ok configured ∧
      registry = backends.apicurioRegistry configured
  else registryProvider properties.registry = confluentOption ∧
    registry = backends.confluentRegistry (if hasProperty properties.registry (text "provider") then
      Dictionary.setItem properties.registry (text "provider") confluentOption else properties.registry)

/-- What building the pool may raise: what the registry raises, or reading the schema file of a field. -/
def DeserializerProperties.BuildingRaises (properties : DeserializerProperties)
    (validated world : lib.World) (e : PyException) : Prop :=
  (properties.registry ≠ [] ∧ properties.OffersRegistry backends validated (.error e)) ∨
    ∃ field : MessageField, field ≠ .none ∧ ∃ path,
      properties.json.lookup field.lowerName = some path ∧ lib.loadJsonSchema world path = .error e

/-- A deserializer that reads a field as its properties say. -/
def Serves [PyFloat F] (py : Interpreter F E) (properties : DeserializerProperties)
    (options : DeserializerOptions lib) (validated : lib.World) (field : MessageField)
    (d : Deserializer F E) : Deserialization → Prop
  | .json => ∃ validator : Option (Validator F E),
      ((properties.json.lookup field.lowerName).elim (validator = none) fun path =>
        ∃ schema, lib.loadJsonSchema world path = .ok schema ∧
          validator = some (backends.validationError schema)) ∧
      ∀ data topic, d data topic field =
        (framedPayload (requestedFraming properties.json field) (text "JSON") data >>=
          checkedJson py validator).map (⟨·, none⟩)
  | .avro => ∃ path, properties.avro.lookup field.lowerName = some path ∧
      ∀ data topic, d data topic field =
        (framedPayload (requestedFraming properties.avro field) (text "Avro") data >>=
          avroContent backends path).map (⟨·, none⟩)
  | .protobuf => ∃ messageName, properties.protobuf.lookup field.lowerName = some messageName ∧
      (∃ schema : ProtobufSchema, schema.Of options.protobufConfig) ∧
      (∃ messageClass, messageClassIn validated options.protobufConfig messageName = .ok messageClass) ∧
      ∀ data topic, d data (some topic) field =
        (messageClassIn world options.protobufConfig messageName >>= fun messageClass =>
          protobufContent backends (requestedFraming properties.protobuf field) messageClass data topic
            field).map (⟨·, none⟩)
  | .registry => properties.OffersRegistry backends validated (.ok d)
  | _ => True

end Contents

section Accepted

variable {lib : SchemaLibraries} {world : lib.World} {config normalized : Properties}
  {key value : Serialization}

theorem exists_user {serialization : Serialization} (h : requireUsage serialization key value = .ok ()) :
    ∃ fieldName, (fieldName, serialization) ∈ [(text "key", key), (text "value", value)] := by
  rw [requireUsage] at h
  split_ifs at h with huses
  simp only [uses, Bool.or_eq_true, decide_eq_true_eq] at huses
  obtain rfl | rfl := huses
  · exact ⟨_, List.mem_cons_self⟩
  · exact ⟨_, List.mem_cons_of_mem _ List.mem_cons_self⟩

theorem normalizeDeserializerJson_returns
    (h : normalizeDeserializerJson lib world config key value = .ok normalized) :
    FramesAs config normalized := by
  rw [normalizeDeserializerJson] at h
  split_ifs at h with hempty
  · obtain rfl := Except.ok.inj h
    exact hempty ▸ framesAs_nil
  · obtain ⟨-, -, h⟩ := bind_eq_ok.mp h
    obtain ⟨chosen, hchosen, h⟩ := bind_eq_ok.mp h
    obtain ⟨-, -, h⟩ := bind_eq_ok.mp h
    obtain ⟨-, -, h⟩ := bind_eq_ok.mp h
    obtain ⟨-, -, h⟩ := bind_eq_ok.mp h
    obtain ⟨-, -, h⟩ := bind_eq_ok.mp h
    obtain rfl := Except.ok.inj h
    exact framesAs_choices hchosen

theorem normalizeAvro_returns (h : normalizeAvro lib world config key value = .ok normalized) :
    FramesAs config normalized ∧ (config ≠ [] → normalized ≠ [] ∧
      ∀ fieldName, (fieldName, Serialization.avro) ∈ [(text "key", key), (text "value", value)] →
        hasProperty normalized fieldName) := by
  rw [normalizeAvro] at h
  split_ifs at h with hempty
  · obtain rfl := Except.ok.inj h
    exact ⟨hempty ▸ framesAs_nil, fun hne => absurd hempty hne⟩
  · obtain ⟨-, -, h⟩ := bind_eq_ok.mp h
    obtain ⟨chosen, hchosen, h⟩ := bind_eq_ok.mp h
    obtain ⟨_, husage, h⟩ := bind_eq_ok.mp h
    obtain ⟨_, hrequired, h⟩ := bind_eq_ok.mp h
    obtain ⟨-, -, h⟩ := bind_eq_ok.mp h
    obtain ⟨-, -, h⟩ := bind_eq_ok.mp h
    obtain rfl := Except.ok.inj h
    have hgiven : ∀ fieldName,
        (fieldName, Serialization.avro) ∈ [(text "key", key), (text "value", value)] →
          hasProperty chosen fieldName :=
      fun fieldName hfield => requireFieldProperties_returns hrequired hfield
    refine ⟨framesAs_choices hchosen, fun _ => ⟨?_, hgiven⟩⟩
    obtain ⟨fieldName, hfield⟩ := exists_user husage
    exact ne_nil_of_hasProperty (hgiven fieldName hfield)

theorem reportSchemaError_returns {α : Type} {hint : Text} {load : Outcome α}
    (h : reportSchemaError hint load = .ok ()) : ∃ schema, load = .ok schema := by
  rw [reportSchemaError, Outcome.tryExcept_reraised] at h
  cases load with
  | ok schema => exact ⟨schema, rfl⟩
  | error e => cases h

theorem checkProtobufMessages_returns (h : checkProtobufMessages lib world config = .ok ())
    {fieldName messageName : Text} (hfield : fieldName ∈ [text "key", text "value"])
    (hmessage : config.lookup fieldName = some messageName) :
    ∃ messageClass, localMessageClass lib world config messageName = .ok messageClass := by
  simp only [checkProtobufMessages, List.forM_eq_forM, List.forM_cons, List.forM_nil] at h
  obtain ⟨_, hvalue, h⟩ := bind_eq_ok.mp h
  obtain ⟨_, hkey, -⟩ := bind_eq_ok.mp h
  obtain rfl | rfl := List.mem_pair.mp hfield
  · rw [hmessage] at hkey
    exact reportSchemaError_returns hkey
  · rw [hmessage] at hvalue
    exact reportSchemaError_returns hvalue

theorem normalizeProtobuf_returns
    (h : normalizeProtobuf lib world config key value = .ok normalized) :
    FramesAs config normalized ∧ (config ≠ [] → normalized ≠ [] ∧
      (∃ schema : ProtobufSchema, schema.Of normalized) ∧
      (∀ fieldName, (fieldName, Serialization.protobuf) ∈ [(text "key", key), (text "value", value)] →
        hasProperty normalized fieldName) ∧
      ∀ fieldName ∈ [text "key", text "value"], ∀ messageName,
        normalized.lookup fieldName = some messageName →
        ∃ messageClass, localMessageClass lib world normalized messageName = .ok messageClass) := by
  rw [normalizeProtobuf] at h
  split_ifs at h with hempty
  · obtain rfl := Except.ok.inj h
    exact ⟨hempty ▸ framesAs_nil, fun hne => absurd hempty hne⟩
  · obtain ⟨-, -, h⟩ := bind_eq_ok.mp h
    obtain ⟨chosen, hchosen, h⟩ := bind_eq_ok.mp h
    obtain ⟨_, husage, h⟩ := bind_eq_ok.mp h
    obtain ⟨_, hschema, h⟩ := bind_eq_ok.mp h
    obtain ⟨_, hrequired, h⟩ := bind_eq_ok.mp h
    obtain ⟨_, hmessages, h⟩ := bind_eq_ok.mp h
    obtain ⟨-, -, h⟩ := bind_eq_ok.mp h
    obtain rfl := Except.ok.inj h
    have hgiven : ∀ fieldName,
        (fieldName, Serialization.protobuf) ∈ [(text "key", key), (text "value", value)] →
          hasProperty chosen fieldName :=
      fun fieldName hfield => requireFieldProperties_returns hrequired hfield
    refine ⟨framesAs_choices hchosen, fun _ => ⟨?_, requireProtobufSchema_returns hschema, hgiven, ?_⟩⟩
    · obtain ⟨fieldName, hfield⟩ := exists_user husage
      exact ne_nil_of_hasProperty (hgiven fieldName hfield)
    · exact fun fieldName hfield messageName hmessage =>
        checkProtobufMessages_returns hmessages hfield hmessage

/-- A class that is found when the properties are checked is found again. -/
theorem messageClassIn_of_local {messageName : Text} {messageClass : lib.MessageClass}
    (h : localMessageClass lib world config messageName = .ok messageClass) :
    messageClassIn world config messageName = .ok messageClass := by
  obtain ⟨messageClasses, hload, h⟩ := bind_eq_ok.mp h
  rw [messageClassIn, hload]
  cases hfound : messageClasses messageName with
  | none =>
    rw [hfound] at h
    cases h
  | some found =>
    rw [hfound] at h
    obtain rfl := Except.ok.inj h
    simp [bind, Except.bind, hfound]

theorem normalizeFallback_lookup (h : normalizeFallback config = .ok normalized) {name : Text}
    (hname : name ∈ fallbackConfigs) {encoding : Text}
    (hencoding : normalized.lookup name = some encoding) : encoding ∈ bytesEncodings := by
  obtain ⟨-, -, h⟩ := bind_eq_ok.mp h
  exact (normalizeChoices_lookup h name).2 encoding hname hencoding

/-- The properties that the consumer accepts, and their normalized copies. -/
structure AcceptedDeserializers (lib : SchemaLibraries) (validated : lib.World)
    (properties : DeserializerProperties) (options : DeserializerOptions lib) (key value : Serialization) :
    Prop where
  configured : requireConfigured key value properties.toSerializerProperties = .ok ()
  registry : normalizeRegistry lib validated properties.registry key value =
    .ok (options.registryConfig, options.apicurioConfig)
  bytes : normalizeBytes properties.bytes key value = .ok options.bytesConfig
  fallback : normalizeFallback properties.fallback = .ok options.fallbackConfig
  json : normalizeDeserializerJson lib validated properties.json key value = .ok options.jsonConfig
  avro : normalizeAvro lib validated properties.avro key value = .ok options.avroConfig
  protobuf : normalizeProtobuf lib validated properties.protobuf key value = .ok options.protobufConfig

theorem normalizeDeserializerOptions_returns {properties : DeserializerProperties}
    {options : DeserializerOptions lib} {keyDeserialization valueDeserialization : Deserialization}
    (h : normalizeDeserializerOptions lib world keyDeserialization valueDeserialization properties =
      .ok options) :
    AcceptedDeserializers lib world properties options keyDeserialization.format
      valueDeserialization.format := by
  obtain ⟨_, hconfigured, h⟩ := bind_eq_ok.mp h
  obtain ⟨registry, hregistry, h⟩ := bind_eq_ok.mp h
  obtain ⟨bytes, hbytes, h⟩ := bind_eq_ok.mp h
  obtain ⟨fallback, hfallback, h⟩ := bind_eq_ok.mp h
  obtain ⟨json, hjson, h⟩ := bind_eq_ok.mp h
  obtain ⟨avro, havro, h⟩ := bind_eq_ok.mp h
  obtain ⟨protobuf, hprotobuf, h⟩ := bind_eq_ok.mp h
  obtain rfl := Except.ok.inj h
  exact ⟨hconfigured, hregistry, hbytes, hfallback, hjson, havro, hprotobuf⟩

theorem uses_of_field {fieldName : Text} {format : Serialization}
    (hfield : (fieldName, format) ∈ [(text "key", key), (text "value", value)]) :
    uses format key value = true := by
  obtain heq | heq := List.mem_pair.mp hfield
  · simp [uses, (Prod.mk.inj heq).2]
  · simp [uses, (Prod.mk.inj heq).2]

theorem requireConfigured_registry {properties : SerializerProperties}
    (h : requireConfigured key value properties = .ok ()) (huses : uses .registry key value = true) :
    properties.registry ≠ [] := by
  rw [requireConfigured] at h
  split_ifs at h with havro hregistry hprotobuf
  exact fun hempty => hregistry ⟨hempty, huses⟩

end Accepted

section Serving

variable {lib : SchemaLibraries} {validated world : lib.World} {F E : Type}
  {py : Interpreter F E} {backends : DeserializerLibraries lib F E}
  {properties : DeserializerProperties} {options : DeserializerOptions lib}
  {key value : Serialization} {field : MessageField}

theorem fieldProperty_eq (config : Properties) (hfield : field ≠ .none) :
    fieldProperty config field = config.lookup field.lowerName := by
  cases field with
  | none => exact absurd rfl hfield
  | key => rfl
  | value => rfl

theorem fieldName_not_framing (hfield : field ≠ .none) : field.lowerName ∉ framingConfigs := by
  cases field with
  | none => exact absurd rfl hfield
  | key => decide
  | value => decide

theorem avroDeserializer_eq {config : Properties} {path : Text}
    (hframes : FramesAs properties.avro config) (hfield : field ≠ .none)
    (hpath : config.lookup field.lowerName = some path) (data : Bytes) (topic : Option Text) :
    avroDeserializer backends.fastavro (config.lookup ·) data topic field =
      framedPayload (requestedFraming properties.avro field) (text "Avro") data >>=
        avroContent backends path := by
  have hcontext : requireContext field = .ok () := if_neg hfield
  have hproperty := fieldProperty_eq config hfield
  rw [fieldProperty, hpath] at hproperty
  simp only [avroDeserializer, hcontext, hproperty, hframes.payload_eq]
  rfl

theorem jsonDeserializer_eq [PyFloat F] {config : Properties} (hframes : FramesAs properties.json config)
    (validators : MessageField → Option (Validator F E)) (data : Bytes) (topic : Option Text) :
    jsonDeserializer py (config.lookup ·) validators data topic field =
      framedPayload (requestedFraming properties.json field) (text "JSON") data >>=
        checkedJson py (validators field) := by
  simp only [jsonDeserializer, hframes.payload_eq]
  rfl

theorem protobufMessageClass_eq {config : Properties} {messageName : Text} (hfield : field ≠ .none)
    (hmessage : config.lookup field.lowerName = some messageName)
    (hschema : ∃ schema : ProtobufSchema, schema.Of config) :
    protobufMessageClass world config field = messageClassIn world config messageName := by
  have hgiven : ¬ (!hasProperty config (text "descriptor") && !hasProperty config (text "source")) := by
    obtain ⟨schema, hof⟩ := hschema
    cases schema with
    | descriptor path => simp [hasProperty, hof.1]
    | source path includes => simp [hasProperty, hof.1]
  rw [protobufMessageClass, fieldProperty_eq config hfield, hmessage]
  dsimp only
  rw [if_neg hgiven]
  rfl

theorem protobufDeserializer_eq {config : Properties} {messageName : Text}
    (hframes : FramesAs properties.protobuf config) (hfield : field ≠ .none)
    (hmessage : config.lookup field.lowerName = some messageName)
    (hschema : ∃ schema : ProtobufSchema, schema.Of config) (data : Bytes) (topic : Text) :
    protobufDeserializer backends world config data (some topic) field =
      messageClassIn world config messageName >>= fun messageClass =>
        protobufContent backends (requestedFraming properties.protobuf field) messageClass data topic
          field := by
  have hcontext : requireField (some topic) field = .ok topic := by
    rw [requireField, requireContext, if_neg hfield]
    rfl
  simp only [protobufDeserializer, hcontext, protobufMessageClass_eq hfield hmessage hschema,
    hframes.requested, hframes.payload_eq]
  cases messageClassIn world config messageName with
  | error e => rfl
  | ok messageClass =>
    simp only [bind, Except.bind, protobufContent]
    split_ifs with hconfluent happicurio hraw
    · rfl
    · rfl
    · rfl
    · have hrequested : requestedFraming properties.protobuf field ∈ deserializerFramings :=
        hframes.requested_mem
      obtain hraw' | hprovider := List.mem_cons.mp hrequested
      · exact absurd hraw' hraw
      · obtain happicurio' | hconfluent' := List.mem_pair.mp hprovider
        · exact absurd happicurio' happicurio
        · exact absurd hconfluent' hconfluent

theorem fallback_returns (h : normalizeFallback properties.fallback = .ok options.fallbackConfig) :
    ∃ encoding, BytesEncoding.fromConfig options.fallbackConfig .none = .ok encoding := by
  apply BytesEncoding.fromStr_returns
  rw [scopedProperty, if_pos rfl]
  cases hgiven : options.fallbackConfig.lookup (text "encoding") with
  | none => exact List.mem_cons_self
  | some encoding => exact normalizeFallback_lookup h List.mem_cons_self hgiven

theorem jsonValidator_returns {config : Properties} {name : Text} {validator : Option (Validator F E)}
    (h : jsonValidator backends world config name = .ok validator) :
    (config.lookup name).elim (validator = none) fun path =>
      ∃ schema, lib.loadJsonSchema world path = .ok schema ∧
        validator = some (backends.validationError schema) := by
  rw [jsonValidator] at h
  cases hpath : config.lookup name with
  | none =>
    rw [hpath] at h
    exact (Except.ok.inj h).symm
  | some path =>
    rw [hpath] at h
    cases hschema : lib.loadJsonSchema world path with
    | error e => simp [hschema, Except.map] at h
    | ok schema =>
      simp only [hschema, Except.map, Except.ok.injEq] at h
      exact ⟨schema, hschema, h.symm⟩

/-- The validators of the fields whose schema files the properties name. -/
theorem jsonValidators_field {config : Properties} {validators : MessageField → Option (Validator F E)}
    (h : jsonValidators backends world config = .ok validators) (hfield : field ≠ .none) :
    (config.lookup field.lowerName).elim (validators field = none) fun path =>
      ∃ schema, lib.loadJsonSchema world path = .ok schema ∧
        validators field = some (backends.validationError schema) := by
  obtain ⟨key, hkey, h⟩ := bind_eq_ok.mp h
  obtain ⟨value, hvalue, h⟩ := bind_eq_ok.mp h
  obtain rfl := Except.ok.inj h
  cases field with
  | none => exact absurd rfl hfield
  | key => exact jsonValidator_returns hkey
  | value => exact jsonValidator_returns hvalue

variable (world backends) in
theorem registryBackend_offered
    (h : normalizeRegistry lib validated properties.registry key value =
      .ok (options.registryConfig, options.apicurioConfig)) :
    properties.OffersRegistry backends validated
      (registryBackend backends world options.registryConfig options.apicurioConfig) := by
  have hreads := normalizeRegistry_returns h
  have hsame : registryProvider options.registryConfig = registryProvider properties.registry := by
    rw [registryProvider, hreads.provider, lowerProvider hreads.known]
  simp only [registryBackend, hsame, DeserializerProperties.OffersRegistry]
  by_cases happicurio : registryProvider properties.registry = apicurioOption
  · have hother : ¬ registryProvider properties.registry = confluentOption := by
      rw [happicurio]
      decide
    rw [if_neg hother, if_pos happicurio, if_pos happicurio]
    obtain ⟨configured, hconfigured⟩ :=
      Option.isSome_iff_exists.mp (hreads.apicurio.configured.mpr happicurio)
    exact ⟨configured, hreads.apicurio.parsed configured hconfigured, by rw [hconfigured]; rfl⟩
  · have hconfluent : registryProvider properties.registry = confluentOption :=
      (List.mem_pair.mp hreads.known).resolve_left happicurio
    rw [if_pos hconfluent, if_neg happicurio]
    exact ⟨hconfluent, by rw [hreads.given, hconfluent]⟩

/-- Only reading a schema file raises here. -/
theorem jsonValidators_raises (hframes : FramesAs properties.json options.jsonConfig) {e : PyException}
    (h : jsonValidators backends world options.jsonConfig = .error e) :
    ∃ field : MessageField, field ≠ .none ∧ ∃ path,
      properties.json.lookup field.lowerName = some path ∧ lib.loadJsonSchema world path = .error e := by
  have hraises : ∀ field : MessageField, field ≠ .none →
      jsonValidator backends world options.jsonConfig field.lowerName = .error e →
      ∃ path, properties.json.lookup field.lowerName = some path ∧
        lib.loadJsonSchema world path = .error e := by
    intro field hne hraised
    rw [jsonValidator, hframes.others _ (fieldName_not_framing hne)] at hraised
    cases hpath : properties.json.lookup field.lowerName with
    | none =>
      rw [hpath] at hraised
      cases hraised
    | some path =>
      rw [hpath] at hraised
      cases hschema : lib.loadJsonSchema world path with
      | ok schema => simp [hschema, Except.map] at hraised
      | error raised =>
        simp only [hschema, Except.map, Except.error.injEq] at hraised
        exact ⟨path, rfl, hraised ▸ hschema⟩
  obtain hkey | ⟨key, -, h⟩ := bind_eq_error.mp h
  · exact ⟨.key, MessageField.noConfusion, hraises .key MessageField.noConfusion hkey⟩
  · obtain hvalue | ⟨value, -, h⟩ := bind_eq_error.mp h
    · exact ⟨.value, MessageField.noConfusion, hraises .value MessageField.noConfusion hvalue⟩
    · cases h

end Serving

section Main

variable {lib : SchemaLibraries} {validated world : lib.World} {F E : Type} [PyFloat F]
  {py : Interpreter F E} {backends : DeserializerLibraries lib F E}
  {properties : DeserializerProperties} {options : DeserializerOptions lib}

theorem pool_parts {pool : DeserializerPool F E} (hpool : options.pool backends world py = .ok pool) :
    options.registryDeserializer backends world = .ok pool.registryDeserializer ∧
      (options.avroConfig ≠ [] → pool.avroDeserializer =
        some (avroDeserializer backends.fastavro (options.avroConfig.lookup ·))) ∧
      (options.protobufConfig ≠ [] → pool.protobufDeserializer =
        some (protobufDeserializer backends world options.protobufConfig)) ∧
      ∃ validators, jsonValidators backends world options.jsonConfig = .ok validators ∧
        pool.jsonDeserializer = jsonDeserializer py (options.jsonConfig.lookup ·) validators := by
  obtain ⟨registry, hregistry, hpool⟩ := bind_eq_ok.mp hpool
  obtain ⟨validators, hvalidators, hpool⟩ := bind_eq_ok.mp hpool
  obtain rfl := Except.ok.inj hpool
  exact ⟨hregistry, fun hgiven => if_neg hgiven, fun hgiven => if_neg hgiven, validators, hvalidators, rfl⟩

/-- Every format has its deserializer, which reads the field as the properties say. -/
theorem pool_serves {key value : Serialization} {field : MessageField} {format : Deserialization}
    {pool : DeserializerPool F E} (h : AcceptedDeserializers lib validated properties options key value)
    (hpool : options.pool backends world py = .ok pool) (hne : field ≠ .none)
    (hfield : (field.lowerName, format.format) ∈ [(text "key", key), (text "value", value)]) :
    ∃ d, pool.get py format = .ok d ∧
      Serves backends world py properties options validated field d format := by
  obtain ⟨hregistry, havro, hprotobuf, validators, hvalidators, hjson⟩ := pool_parts hpool
  have huses := uses_of_field hfield
  obtain ⟨hneedsAvro, hneedsProtobuf⟩ := requireConfigured_returns h.configured
  cases format with
  | json =>
    have hframes := normalizeDeserializerJson_returns h.json
    have hvalidator := jsonValidators_field hvalidators hne
    rw [hframes.others _ (fieldName_not_framing hne)] at hvalidator
    refine ⟨_, rfl, validators field, hvalidator, fun data topic => ?_⟩
    rw [withoutMetadata, hjson, jsonDeserializer_eq hframes]
  | avro =>
    obtain ⟨hframes, hgiven⟩ := normalizeAvro_returns h.avro
    obtain ⟨hnonempty, hpaths⟩ := hgiven (hneedsAvro huses)
    obtain ⟨path, hpath⟩ := Option.isSome_iff_exists.mp (hpaths _ hfield)
    have hget : pool.get py .avro = .ok (withoutMetadata
        (avroDeserializer backends.fastavro (options.avroConfig.lookup ·))) := by
      simp [DeserializerPool.get, DeserializerPool.configured, havro hnonempty, Except.map]
    refine ⟨_, hget, path, ?_, fun data topic => ?_⟩
    · exact (hframes.others _ (fieldName_not_framing hne)).symm.trans hpath
    · rw [withoutMetadata, avroDeserializer_eq hframes hne hpath]
  | protobuf =>
    obtain ⟨hframes, hgiven⟩ := normalizeProtobuf_returns h.protobuf
    obtain ⟨hnonempty, hschema, hmessages, hclasses⟩ := hgiven (hneedsProtobuf huses)
    obtain ⟨messageName, hmessage⟩ := Option.isSome_iff_exists.mp (hmessages _ hfield)
    have hname : field.lowerName ∈ [text "key", text "value"] := by
      obtain heq | heq := List.mem_pair.mp hfield
      · exact List.mem_pair.mpr (.inl (Prod.mk.inj heq).1)
      · exact List.mem_pair.mpr (.inr (Prod.mk.inj heq).1)
    obtain ⟨messageClass, hclass⟩ := hclasses _ hname messageName hmessage
    have hget : pool.get py .protobuf = .ok (withoutMetadata
        (protobufDeserializer backends world options.protobufConfig)) := by
      simp [DeserializerPool.get, DeserializerPool.configured, hprotobuf hnonempty, Except.map]
    refine ⟨_, hget, messageName, ?_, hschema, ?_, fun data topic => ?_⟩
    · exact (hframes.others _ (fieldName_not_framing hne)).symm.trans hmessage
    · exact ⟨messageClass, messageClassIn_of_local hclass⟩
    · rw [withoutMetadata, protobufDeserializer_eq hframes hne hmessage hschema]
  | registry =>
    have hgiven := requireConfigured_registry h.configured huses
    have hnonempty : options.registryConfig ≠ [] := by
      intro hempty
      have hkeys := (normalizeRegistry_returns h.registry).keys
      rw [hempty, List.map_nil] at hkeys
      exact hgiven (List.map_eq_nil_iff.mp hkeys.symm)
    rw [DeserializerOptions.registryDeserializer, if_neg hnonempty] at hregistry
    cases hbackend : registryBackend backends world options.registryConfig options.apicurioConfig with
    | error e => simp [hbackend, Except.map] at hregistry
    | ok d =>
      simp only [hbackend, Except.map, Except.ok.injEq] at hregistry
      have hget : pool.get py .registry = .ok d := by
        simp [DeserializerPool.get, DeserializerPool.configured, ← hregistry]
      have hoffered := registryBackend_offered world backends h.registry
      rw [hbackend] at hoffered
      exact ⟨d, hget, hoffered⟩
  | _ => exact ⟨_, rfl, trivial⟩

theorem pool_raises {key value : Serialization} {e : PyException}
    (h : AcceptedDeserializers lib validated properties options key value)
    (hraised : options.pool backends world py = .error e) :
    properties.BuildingRaises backends validated world e := by
  obtain hregistry | ⟨registry, -, hraised⟩ := bind_eq_error.mp hraised
  · have hoffered := registryBackend_offered world backends h.registry
    rw [DeserializerOptions.registryDeserializer] at hregistry
    split_ifs at hregistry with hempty
    cases hbackend : registryBackend backends world options.registryConfig options.apicurioConfig with
    | ok d => simp [hbackend, Except.map] at hregistry
    | error raised =>
      simp only [hbackend, Except.map, Except.error.injEq] at hregistry
      refine .inl ⟨fun hnone => hempty ?_, by rw [← hregistry, ← hbackend]; exact hoffered⟩
      have hkeys := (normalizeRegistry_returns h.registry).keys
      rw [hnone, List.map_nil] at hkeys
      exact List.map_eq_nil_iff.mp hkeys
  · obtain hvalidators | ⟨validators, -, hraised⟩ := bind_eq_error.mp hraised
    · exact .inr (jsonValidators_raises (normalizeDeserializerJson_returns h.json) hvalidators)
    · cases hraised

variable (world py backends) in
/-- For all properties that the consumer accepts, whatever the files hold when its pool is built: the
pool is built unless the registry or reading a schema file raises, it has a deserializer for the key and
one for the value, each reads what the properties of its field say, with no property that is missing,
framing that is unsupported or provider that is unknown, and the encodings of octets are all readable. -/
theorem accepted_fields_served {keyDeserialization valueDeserialization : Deserialization}
    (h : normalizeDeserializerOptions lib validated keyDeserialization valueDeserialization properties =
      .ok options) :
    (∀ e, options.pool backends world py = .error e →
      properties.BuildingRaises backends validated world e) ∧
    (∀ field, field ∈ [MessageField.key, .value] →
      ∃ encoding, BytesEncoding.fromConfig options.bytesConfig field = .ok encoding) ∧
    (∃ encoding, BytesEncoding.fromConfig options.fallbackConfig .none = .ok encoding) ∧
    ∀ pool, options.pool backends world py = .ok pool → ∀ field format,
      (field, format) ∈ [(MessageField.key, keyDeserialization), (.value, valueDeserialization)] →
      ∃ d, pool.get py format = .ok d ∧
        Serves backends world py properties options validated field d format := by
  have haccepted := normalizeDeserializerOptions_returns h
  have hbytes : ∀ name ∈ bytesConfigs, ∀ encoding,
      options.bytesConfig.lookup name = some encoding → encoding ∈ bytesEncodings :=
    fun name hname encoding hencoding => normalizeBytes_lookup haccepted.bytes hname hencoding
  refine ⟨fun e => pool_raises haccepted, fun field hfield => ?_, fallback_returns haccepted.fallback,
    fun pool hpool field format hfield => ?_⟩
  · obtain rfl | rfl := List.mem_pair.mp hfield
    · exact BytesEncoding.fromConfig_returns hbytes MessageField.noConfusion
    · exact BytesEncoding.fromConfig_returns hbytes MessageField.noConfusion
  · obtain heq | heq := List.mem_pair.mp hfield
    · obtain ⟨rfl, rfl⟩ := Prod.mk.inj heq
      exact pool_serves haccepted hpool MessageField.noConfusion List.mem_cons_self
    · obtain ⟨rfl, rfl⟩ := Prod.mk.inj heq
      exact pool_serves haccepted hpool MessageField.noConfusion
        (List.mem_cons_of_mem _ List.mem_cons_self)

end Main

def payloadLibraries : DeserializerLibraries SerializerPool.pathLibraries FloatRepr Empty where
  fastavro := { loadSchema := .ok, schemalessReader := fun body _ => .ok (.bytes body) }
  validationError _ _ := .ok none
  parseMessage _ body := .ok (.bytes body)
  deserializeConfluent _ data _ _ := .ok (.bytes data)
  confluentRegistry _ := .ok fun data _ _ => .ok ⟨.bytes data, none⟩
  apicurioRegistry _ := .ok fun data _ _ => .ok ⟨.bytes data, none⟩

def framedProperties : DeserializerProperties where
  registry := [(text "apicurio.registry.url", text "http://a"), (text "provider", text "Apicurio")]
  protobuf := [(text "source", text "a.proto"), (text "value", text "A"),
    (text "value.framing", text "CONFLUENT")]
  avro := []
  json := []
  bytes := []
  distinct := by decide
  fallback := [(text "encoding", text "BYTE_ARRAY")]
  fallback_distinct := by decide

def framedOptions : DeserializerOptions SerializerPool.pathLibraries where
  registryConfig := [(text "apicurio.registry.url", text "http://a"), (text "provider", text "apicurio")]
  apicurioConfig := some
    [(text "apicurio.registry.url", text "http://a"), (text "provider", text "apicurio")]
  protobufConfig := [(text "source", text "a.proto"), (text "value", text "A"),
    (text "value.framing", text "confluent")]
  avroConfig := []
  jsonConfig := []
  bytesConfig := []
  fallbackConfig := [(text "encoding", text "byte-array")]

theorem framed_fields_served :
    ∃ pool, framedOptions.pool payloadLibraries () Interpreter.plain = .ok pool ∧
      (∃ encoding, BytesEncoding.fromConfig framedOptions.fallbackConfig .none = .ok encoding) ∧
      ∀ field format,
        (field, format) ∈ [(MessageField.key, Deserialization.registry), (.value, .protobuf)] →
        ∃ d, pool.get Interpreter.plain format = .ok d ∧
          Serves payloadLibraries () Interpreter.plain framedProperties framedOptions () field d
            format := by
  have haccepted : normalizeDeserializerOptions SerializerPool.pathLibraries () .registry .protobuf
      framedProperties = .ok framedOptions := rfl
  have hserves := accepted_fields_served () Interpreter.plain payloadLibraries haccepted
  exact ⟨_, rfl, hserves.2.2.1, hserves.2.2.2 _ rfl⟩

end Kaskade
