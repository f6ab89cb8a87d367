import Kaskade.SchemaSelections

/-!
# Options of the serializers

`normalize_serializer_options`: the properties of the producer are checked before anything is shown, schema
files included. A Registry field that registers its schema takes its schema file as if it used the format
of that file.
-/

namespace Kaskade

open Python Registration

inductive Serialization where
  | string
  | bytes
  | boolean
  | integer
  | long
  | float
  | double
  | json
  | avro
  | protobuf
  | registry
  deriving DecidableEq

def Serialization.str : Serialization → Text
  | .string => text "string"
  | .bytes => text "bytes"
  | .boolean => text "boolean"
  | .integer => text "integer"
  | .long => text "long"
  | .float => text "float"
  | .double => text "double"
  | .json => text "json"
  | .avro => text "avro"
  | .protobuf => text "protobuf"
  | .registry => text "registry"

/-- The properties that the producer is given; each is a dictionary. -/
structure SerializerProperties where
  registry : Properties
  protobuf : Properties
  avro : Properties
  json : Properties
  bytes : Properties
  distinct : ∀ config ∈ [registry, protobuf, avro, json, bytes], (config.map Prod.fst).Nodup

/-- `name in config`. -/
def hasProperty (config : Properties) (name : Text) : Bool := (config.lookup name).isSome

/-- Files, which may change, with what the schema libraries and the registry clients make of them. -/
structure SchemaLibraries where
  /-- What the files hold at some time. -/
  World : Type
  Moment : Type
  ApicurioConfig : Type
  JsonSchema : Type
  AvroSchema : Type
  DescriptorSet : Type
  MessageClass : Type
  Resolver : Type
  python : Conversions Moment
  /-- `repr` of a text. -/
  reprText : Text → Text
  pathExists : World → Text → Bool
  isDir : World → Text → Bool
  /-- `ApicurioConfig.from_dict`. -/
  apicurioConfig : World → Properties → Outcome ApicurioConfig
  loadJsonSchema : World → Text → Outcome JsonSchema
  loadAvroSchema : World → Text → Outcome AvroSchema
  /-- From a source and the include folders. -/
  compileProtoFile : World → Text → List Text → Outcome DescriptorSet
  loadDescriptorSet : World → Text → Outcome DescriptorSet
  /-- `GetMessages`. -/
  getMessages : DescriptorSet → Outcome (Text → Option MessageClass)
  avroDocument : World → Text → Outcome SchemaDocument
  jsonDocument : World → Text → Outcome SchemaDocument
  /-- `_protobuf_document`, with the source and the include folders where text is registered. -/
  protobufDocument : World → DescriptorSet → MessageClass → Option (Text × List Text) →
    Outcome SchemaDocument
  confluentSchemaResolver : Properties → Outcome Resolver
  apicurioSchemaResolver : ApicurioConfig → Outcome Resolver

section Protobuf

variable (lib : SchemaLibraries) (world : lib.World) (config : Properties)

def protobufIncludes : List Text :=
  match (config.lookup (text "include")).getD [] with
  | [] => []
  | folders => folders.splitOn (chr ',')

def protobufDescriptorSet : Outcome lib.DescriptorSet :=
  match config.lookup (text "source") with
  | some source => lib.compileProtoFile world source (protobufIncludes config)
  | none =>
    match config.lookup (text "descriptor") with
    | some descriptor => lib.loadDescriptorSet world descriptor
    | none => .error ⟨.keyError, text "descriptor"⟩

def loadMessageClasses : Outcome (Text → Option lib.MessageClass) := do
  let descriptorSet ← protobufDescriptorSet lib world config
  Outcome.tryExcept (lib.getMessages descriptorSet) [.keyError, .typeError, .valueError] fun _ =>
    .error ⟨.schemaError, text "Invalid Protobuf descriptors"⟩

def localMessageClass (messageName : Text) : Outcome lib.MessageClass := do
  let messageClasses ← loadMessageClasses lib world config
  match messageClasses messageName with
  | some messageClass => return messageClass
  | none =>
    let path := ((config.lookup (text "source")).or (config.lookup (text "descriptor"))).getD
      (text "None")
    throw ⟨.schemaError, text "Protobuf message " ++ messageName ++ text " isn't in " ++ path⟩

end Protobuf

/-- `MissingParameter` of an option, as click words it. -/
def missingOption (hint : Text) : PyException :=
  ⟨.missingParameter, text "Missing option " ++ hint ++ text "."⟩

/-- `BadParameter` with a hint, as click words it. -/
def invalidValue (hint message : Text) : PyException :=
  ⟨.badParameter, text "Invalid value for " ++ hint ++ text ": " ++ message⟩

def namesText (names : List Text) : Text :=
  text "[" ++ (text ", ").intercalate (names.map fun name => text "'" ++ name ++ text "'") ++ text "]"

section Checks

variable (config : Properties) (serialization key value : Serialization) (option : Text)

def uses : Bool := serialization = key || serialization = value

def requireUsage : Outcome Unit :=
  if uses serialization key value then .ok ()
  else .error (missingOption (text "'-k " ++ serialization.str ++ text "' and/or '-v "
    ++ serialization.str ++ text "'"))

def requireConfigured (properties : SerializerProperties) : Outcome Unit :=
  if properties.avro = [] ∧ uses .avro key value then .error (missingOption (text "'--avro'"))
  else if properties.registry = [] ∧ uses .registry key value then
    .error ⟨.clickException, text "Schema Registry configuration is required. Use --registry or the "
      ++ text "[registry] section in --config-file."⟩
  else if properties.protobuf = [] ∧ uses .protobuf key value then
    .error (missingOption (text "'--protobuf'"))
  else .ok ()

/-- `require_field_properties` of one field. -/
def requireFieldProperty (sample : Text) (fieldName : Text) (fieldSerialization : Serialization) :
    Outcome Unit :=
  if !hasProperty config fieldName && fieldSerialization = serialization then
    .error (missingOption (text "'" ++ option ++ text " " ++ fieldName ++ text "=" ++ sample ++ text "'"))
  else .ok ()

def requireFieldProperties (sample : Text) : Outcome Unit := do
  requireFieldProperty config serialization option sample (text "value") value
  requireFieldProperty config serialization option sample (text "key") key

def validateProperties (validProperties : List Text) : Outcome Unit :=
  if config.any fun entry => !validProperties.contains entry.1 then
    .error ⟨.badParameter, text "Valid properties: " ++ namesText validProperties ++ text "."⟩
  else .ok ()

/-- The body of the loop of `normalize_choices`. -/
def normalizeChoice (choices : List Text) (label : Text) (normalized : Properties) (propertyName : Text) :
    Outcome Properties :=
  match normalized.lookup propertyName with
  | none => .ok normalized
  | some current =>
    let choice := (current.map lowerChr).map fun c => if c = chr '_' then chr '-' else c
    if choices.contains choice then .ok (Dictionary.setItem normalized propertyName choice)
    else .error ⟨.badParameter, label ++ text " should be one of " ++ namesText choices ++ text "."⟩

def normalizeChoices (names choices : List Text) (label : Text) : Outcome Properties :=
  names.foldlM (normalizeChoice choices label) config

def validateFieldScope (propertyName : Text) : Outcome Unit :=
  if hasProperty config (text "key." ++ propertyName) && key ≠ serialization then
    .error ⟨.badParameter, option ++ text " key." ++ propertyName ++ text " requires '-k "
      ++ serialization.str ++ text "'."⟩
  else if hasProperty config (text "value." ++ propertyName) && value ≠ serialization then
    .error ⟨.badParameter, option ++ text " value." ++ propertyName ++ text " requires '-v "
      ++ serialization.str ++ text "'."⟩
  else .ok ()

def validateSchemaScope : Outcome Unit :=
  if hasProperty config (text "key") && key ≠ serialization then
    .error ⟨.badParameter, option ++ text " key requires '-k " ++ serialization.str ++ text "'."⟩
  else if hasProperty config (text "value") && value ≠ serialization then
    .error ⟨.badParameter, option ++ text " value requires '-v " ++ serialization.str ++ text "'."⟩
  else .ok ()

end Checks

section Files

variable (lib : SchemaLibraries) (world : lib.World)

def validateFile (filePath hint : Text) : Outcome Unit :=
  if !lib.pathExists world filePath then
    .error (invalidValue hint (text "File " ++ lib.reprText filePath ++ text " should exist."))
  else if lib.isDir world filePath then
    .error (invalidValue hint (text "Path " ++ lib.reprText filePath ++ text " is a directory."))
  else .ok ()

/-- A schema that cannot be loaded is reported as a bad parameter. -/
def reportSchemaError {α : Type} (hint : Text) (load : Outcome α) : Outcome Unit :=
  Outcome.tryExcept (load.map fun _ => ()) [.schemaError] fun ex => .error (invalidValue hint ex.message)

def checkSchemaFiles {α : Type} (config : Properties) (option : Text) (load : Text → Outcome α) :
    Outcome Unit :=
  [text "value", text "key"].forM fun fieldName =>
    match config.lookup fieldName with
    | none => .ok ()
    | some path => do
      let hint := text "'" ++ option ++ text " " ++ fieldName ++ text "'"
      validateFile lib world path hint
      reportSchemaError hint (load path)

def validateProtobufIncludes (config : Properties) : Outcome Unit :=
  match config.lookup (text "include") with
  | none => .ok ()
  | some folders =>
    if !hasProperty config (text "source") then
      .error (invalidValue (text "'--protobuf include'") (text "Use include with source."))
    else (folders.splitOn (chr ',')).forM fun folder =>
      if lib.isDir world folder then .ok ()
      else .error (invalidValue (text "'--protobuf include'")
        (text "Folder " ++ lib.reprText folder ++ text " should exist."))

def requireProtobufSchema (config : Properties) : Outcome Unit :=
  match config.lookup (text "descriptor"), config.lookup (text "source") with
  | none, none => .error (missingOption
      (text "'--protobuf descriptor=my-descriptor' or '--protobuf source=my.proto'"))
  | some _, some _ =>
    .error (invalidValue (text "'--protobuf'") (text "Use either descriptor or source, not both."))
  | some descriptor, none => do
    validateFile lib world descriptor (text "'--protobuf descriptor'")
    validateProtobufIncludes lib world config
  | none, some source => do
    validateFile lib world source (text "'--protobuf source'")
    validateProtobufIncludes lib world config

def checkProtobufMessages (config : Properties) : Outcome Unit :=
  [text "value", text "key"].forM fun fieldName =>
    match config.lookup fieldName with
    | none => .ok ()
    | some messageName =>
      reportSchemaError (text "'--protobuf " ++ fieldName ++ text "'")
        (localMessageClass lib world config messageName)

end Files

section Normalization

variable (lib : SchemaLibraries) (world : lib.World) (config : Properties)
  (keySerialization valueSerialization : Serialization)

/-- `client_config.get("provider", CONFLUENT_OPTION).lower()`. -/
def registryProvider (client : Properties) : Text :=
  ((client.lookup (text "provider")).getD confluentOption).map lowerChr

def normalizeRegistry : Outcome (Properties × Option lib.ApicurioConfig) :=
  if config = [] then .ok ([], none)
  else do
    requireUsage .registry keySerialization valueSerialization
    let provider := registryProvider config
    if !registryProviders.contains provider then
      .error (invalidValue (text "'--registry provider'")
        (text "Registry provider should be one of " ++ namesText registryProviders ++ text "."))
    else
      let normalized := if hasProperty config (text "provider") then
        Dictionary.setItem config (text "provider") provider else config
      if provider = confluentOption &&
          normalized.any (fun entry => (text "apicurio.registry.").isPrefixOf entry.1) then
        .error (invalidValue (text "'--registry'")
          (text "apicurio.registry.* properties require provider=" ++ apicurioOption ++ text "."))
      else if provider ≠ apicurioOption then .ok (normalized, none)
      else
        Outcome.tryExcept
          ((lib.apicurioConfig world normalized).map fun apicurio => (normalized, some apicurio))
          [.apicurioRegistryError, .osError, .valueError] fun ex =>
            .error (invalidValue (text "'--registry'") ex.message)

/-- The loop of `normalize_producer_registry` at one field, with the fields that register so far. -/
def registeringField (selection : Properties) (provider flag : Text) (field : MessageField)
    (serialization : Serialization) (registering : List Text) : Outcome (List Text) :=
  if serialization ≠ .registry then
    match selection.find? fun entry => (field.lowerName ++ text ".").isPrefixOf entry.1 with
    | some entry => .error ⟨.badParameter,
        text "--registry " ++ entry.1 ++ text " requires '" ++ flag ++ text " registry'."⟩
    | none => .ok registering
  else do
    let fieldSelection ← Outcome.tryExcept
      (FieldSelection.fromConfig lib.python selection provider field) [.valueError] fun ex =>
        .error (invalidValue (text "'--registry'") ex.message)
    return if fieldSelection.autoRegister then registering ++ [field.lowerName] else registering

def normalizeProducerRegistry : Outcome (Properties × Option lib.ApicurioConfig × List Text) := do
  let split := splitRegistryConfig config
  let registry ← normalizeRegistry lib world split.1 keySerialization valueSerialization
  if split.2 = [] then return (registry.1, registry.2, [])
  else
    requireUsage .registry keySerialization valueSerialization
    let provider := (registry.1.lookup (text "provider")).getD confluentOption
    let keyRegistering ← registeringField lib split.2 provider (text "-k") .key keySerialization []
    let registering ← registeringField lib split.2 provider (text "-v") .value valueSerialization
      keyRegistering
    return (Dictionary.union registry.1 split.2, registry.2, registering)

/-- `schema_file_formats` at one field. -/
def schemaFileFormat (registering : List Text) (configs : List (Serialization × Properties))
    (fieldName : Text) (serialization : Serialization) : Outcome Serialization :=
  let found := (configs.filter fun named => hasProperty named.2 fieldName).map Prod.fst
  if !registering.contains fieldName then
    match serialization, found with
    | .registry, first :: _ => .error (invalidValue (text "'--registry'")
        (text "--" ++ first.str ++ text " " ++ fieldName ++ text " with a Registry " ++ fieldName
          ++ text " is the schema to register; enable auto.register.schemas or "
          ++ text "apicurio.registry.auto-register."))
    | _, _ => .ok serialization
  else
    match found with
    | [format] => .ok format
    | _ => .error (invalidValue (text "'--registry'")
        (text "Registering the " ++ fieldName ++ text " schema needs exactly one schema file: --avro "
          ++ fieldName ++ text "=…, --json " ++ fieldName ++ text "=…, or --protobuf " ++ fieldName
          ++ text "=… with descriptor= or source=."))

def schemaFileFormats (registering : List Text) (configs : List (Serialization × Properties)) :
    Outcome (Serialization × Serialization) := do
  let keyFormat ← schemaFileFormat registering configs (text "key") keySerialization
  let valueFormat ← schemaFileFormat registering configs (text "value") valueSerialization
  return (keyFormat, valueFormat)

def requireProtobufSource (registering : List Text) : Outcome Unit :=
  if hasProperty config (text "descriptor") && registering.any (hasProperty config) then
    .error (invalidValue (text "'--protobuf descriptor'")
      (text "Registering Protobuf in Apicurio needs --protobuf source=my.proto."))
  else .ok ()

def bytesConfigs : List Text := [text "encoding", text "key.encoding", text "value.encoding"]

def bytesEncodings : List Text := [text "base64", text "hex", text "byte-array", text "escaped"]

def normalizeBytes : Outcome Properties :=
  if config = [] then .ok []
  else do
    validateProperties config bytesConfigs
    let normalized ← normalizeChoices config bytesConfigs bytesEncodings (text "Bytes encoding")
    requireUsage .bytes keySerialization valueSerialization
    validateFieldScope normalized .bytes keySerialization valueSerialization (text "--bytes")
      (text "encoding")
    return normalized

def framingConfigs : List Text := [text "framing", text "key.framing", text "value.framing"]

def schemaFileConfigs : List Text := [text "key", text "value"]

def normalizeJson : Outcome Properties :=
  if config = [] then .ok []
  else do
    validateProperties config schemaFileConfigs
    let normalized ← normalizeChoices config framingConfigs (text "raw" :: registryProviders)
      (text "JSON framing")
    requireUsage .json keySerialization valueSerialization
    validateFieldScope normalized .json keySerialization valueSerialization (text "--json")
      (text "framing")
    validateSchemaScope normalized .json keySerialization valueSerialization (text "--json")
    checkSchemaFiles lib world normalized (text "--json") (lib.loadJsonSchema world)
    return normalized

def normalizeProducerAvro : Outcome Properties :=
  if config = [] then .ok []
  else do
    validateProperties config schemaFileConfigs
    requireUsage .avro keySerialization valueSerialization
    requireFieldProperties config .avro keySerialization valueSerialization (text "--avro")
      (text "my-schema.avsc")
    validateSchemaScope config .avro keySerialization valueSerialization (text "--avro")
    checkSchemaFiles lib world config (text "--avro") (lib.loadAvroSchema world)
    return config

def normalizeProducerProtobuf : Outcome Properties :=
  if config = [] then .ok []
  else do
    validateProperties config
      ([text "descriptor", text "source", text "include"] ++ schemaFileConfigs)
    requireUsage .protobuf keySerialization valueSerialization
    requireProtobufSchema lib world config
    requireFieldProperties config .protobuf keySerialization valueSerialization (text "--protobuf")
      (text "MyMessage")
    validateSchemaScope config .protobuf keySerialization valueSerialization (text "--protobuf")
    checkProtobufMessages lib world config
    return config

end Normalization

/-- Validated, normalized copies of the properties. -/
structure SerializerOptions (lib : SchemaLibraries) where
  registryConfig : Properties
  apicurioConfig : Option lib.ApicurioConfig
  protobufConfig : Properties
  avroConfig : Properties
  jsonConfig : Properties
  bytesConfig : Properties

def normalizeSerializerOptions (lib : SchemaLibraries) (world : lib.World)
    (keySerialization valueSerialization : Serialization) (properties : SerializerProperties) :
    Outcome (SerializerOptions lib) := do
  requireConfigured keySerialization valueSerialization properties
  let (registry, apicurio, registering) ←
    normalizeProducerRegistry lib world properties.registry keySerialization valueSerialization
  let (keyFormat, valueFormat) ← schemaFileFormats keySerialization valueSerialization registering
    [(.avro, properties.avro), (.json, properties.json), (.protobuf, properties.protobuf)]
  let json ← normalizeJson lib world properties.json keyFormat valueFormat
  let avro ← normalizeProducerAvro lib world properties.avro keyFormat valueFormat
  let protobuf ← normalizeProducerProtobuf lib world properties.protobuf keyFormat valueFormat
  if apicurio.isSome then requireProtobufSource protobuf registering
  let bytes ← normalizeBytes properties.bytes keySerialization valueSerialization
  return ⟨registry, apicurio, protobuf, avro, json, bytes⟩

/-- The schema file of a field, or the message that it uses of the Protobuf schema. -/
inductive LocalSchema where
  | avro (path : Text)
  | json (path : Text)
  | protobuf (messageName : Text)

def LocalSchema.format : LocalSchema → Serialization
  | .avro _ => .avro
  | .json _ => .json
  | .protobuf _ => .protobuf

def SerializerProperties.localSchemas (properties : SerializerProperties) (fieldName : Text) :
    List LocalSchema :=
  ((properties.avro.lookup fieldName).map LocalSchema.avro).toList
    ++ ((properties.json.lookup fieldName).map LocalSchema.json).toList
    ++ ((properties.protobuf.lookup fieldName).map LocalSchema.protobuf).toList

inductive ProtobufSchema where
  | descriptor (path : Text)
  | source (path : Text) (includes : List Text)

namespace ProtobufSchema

def load (lib : SchemaLibraries) (world : lib.World) : ProtobufSchema → Outcome lib.DescriptorSet
  | .descriptor path => lib.loadDescriptorSet world path
  | .source path includes => lib.compileProtoFile world path includes

def Of (config : Properties) : ProtobufSchema → Prop
  | .descriptor path => config.lookup (text "descriptor") = some path ∧
      config.lookup (text "source") = none
  | .source path includes => config.lookup (text "source") = some path ∧
      config.lookup (text "descriptor") = none ∧ includes = protobufIncludes config

def path : ProtobufSchema → Text
  | .descriptor path => path
  | .source path _ => path

section Messages

variable (lib : SchemaLibraries) (world : lib.World) (schema : ProtobufSchema) (messageName : Text)

def messageClass : Outcome lib.MessageClass := do
  let descriptorSet ← schema.load lib world
  let messageClasses ← Outcome.tryExcept (lib.getMessages descriptorSet)
    [.keyError, .typeError, .valueError] fun _ =>
      .error ⟨.schemaError, text "Invalid Protobuf descriptors"⟩
  match messageClasses messageName with
  | some messageClass => .ok messageClass
  | none => .error ⟨.schemaError,
      text "Protobuf message " ++ messageName ++ text " isn't in " ++ schema.path⟩

/-- The document that declares a message of this schema, as text where sources are given. -/
def document (sources : Option (Text × List Text)) : Outcome SchemaDocument := do
  let descriptorSet ← schema.load lib world
  let messageClasses ← lib.getMessages descriptorSet
  match messageClasses messageName with
  | some messageClass => lib.protobufDocument world descriptorSet messageClass sources
  | none => .error ⟨.schemaError,
      text "Protobuf message " ++ messageName ++ text " isn't in the schema"⟩

end Messages

theorem Of.descriptorSet_eq {lib : SchemaLibraries} {schema : ProtobufSchema} {config : Properties}
    (h : schema.Of config) (world : lib.World) :
    protobufDescriptorSet lib world config = schema.load lib world := by
  cases schema with
  | descriptor path =>
    rw [protobufDescriptorSet, h.2, h.1]
    rfl
  | source path includes =>
    rw [protobufDescriptorSet, h.1, h.2.2]
    rfl

theorem Of.source {schema : ProtobufSchema} {config : Properties} (h : schema.Of config)
    (hsource : hasProperty config (text "source")) :
    ∃ path includes, schema = .source path includes := by
  cases schema with
  | descriptor path =>
    rw [hasProperty, h.2] at hsource
    cases hsource
  | source path includes => exact ⟨path, includes, rfl⟩

theorem Of.messageClass_eq {lib : SchemaLibraries} {schema : ProtobufSchema} {config : Properties}
    (h : schema.Of config) (world : lib.World) (messageName : Text) :
    localMessageClass lib world config messageName = schema.messageClass lib world messageName := by
  have hpath : ((config.lookup (text "source")).or (config.lookup (text "descriptor"))).getD
      (text "None") = schema.path := by
    cases schema with
    | descriptor path => rw [h.1, h.2]; rfl
    | source path includes => rw [h.1]; rfl
  rw [localMessageClass, loadMessageClasses, h.descriptorSet_eq, hpath, messageClass, bind_assoc]
  rfl

end ProtobufSchema

section Accepted

variable {lib : SchemaLibraries} {world : lib.World} {config normalized : Properties}
  {key value : Serialization}

theorem ne_nil_of_hasProperty {name : Text} (h : hasProperty config name) : config ≠ [] := by
  rintro rfl
  cases h

theorem requireFieldProperty_returns {serialization fieldSerialization : Serialization}
    {option sample fieldName : Text}
    (h : requireFieldProperty config serialization option sample fieldName fieldSerialization = .ok ())
    (hformat : fieldSerialization = serialization) : hasProperty config fieldName := by
  rw [requireFieldProperty] at h
  split_ifs at h with hmissing
  simpa [hformat] using hmissing

theorem requireFieldProperties_returns {serialization : Serialization} {option sample : Text}
    (h : requireFieldProperties config serialization key value option sample = .ok ())
    {fieldName : Text} (hfield : (fieldName, serialization) ∈ [(text "key", key), (text "value", value)]) :
    hasProperty config fieldName := by
  obtain ⟨_, hvalue, hkey⟩ := bind_eq_ok.mp h
  rcases List.mem_pair.mp hfield with heq | heq
  · obtain ⟨rfl, rfl⟩ := Prod.mk.inj heq
    exact requireFieldProperty_returns hkey rfl
  · obtain ⟨rfl, rfl⟩ := Prod.mk.inj heq
    exact requireFieldProperty_returns hvalue rfl

theorem normalizeProducerAvro_returns
    (h : normalizeProducerAvro lib world config key value = .ok normalized) :
    normalized = config ∧ (config ≠ [] →
      ∀ fieldName, (fieldName, Serialization.avro) ∈ [(text "key", key), (text "value", value)] →
        hasProperty config fieldName) := by
  rw [normalizeProducerAvro] at h
  split_ifs at h with hempty
  · exact ⟨(Except.ok.inj h).symm.trans hempty.symm, fun hne => absurd hempty hne⟩
  · obtain ⟨-, -, h⟩ := bind_eq_ok.mp h
    obtain ⟨-, -, h⟩ := bind_eq_ok.mp h
    obtain ⟨_, hrequired, h⟩ := bind_eq_ok.mp h
    obtain ⟨-, -, h⟩ := bind_eq_ok.mp h
    obtain ⟨-, -, h⟩ := bind_eq_ok.mp h
    exact ⟨(Except.ok.inj h).symm, fun _ fieldName hfield =>
      requireFieldProperties_returns hrequired hfield⟩

theorem requireProtobufSchema_returns (h : requireProtobufSchema lib world config = .ok ()) :
    ∃ schema : ProtobufSchema, schema.Of config := by
  rw [requireProtobufSchema] at h
  cases hdescriptor : config.lookup (text "descriptor") with
  | none =>
    cases hsource : config.lookup (text "source") with
    | none =>
      rw [hdescriptor, hsource] at h
      cases h
    | some source => exact ⟨.source source _, hsource, hdescriptor, rfl⟩
  | some descriptor =>
    cases hsource : config.lookup (text "source") with
    | none => exact ⟨.descriptor descriptor, hdescriptor, hsource⟩
    | some source =>
      rw [hdescriptor, hsource] at h
      cases h

theorem normalizeProducerProtobuf_returns
    (h : normalizeProducerProtobuf lib world config key value = .ok normalized) :
    normalized = config ∧ (config ≠ [] → (∃ schema : ProtobufSchema, schema.Of config) ∧
      ∀ fieldName, (fieldName, Serialization.protobuf) ∈ [(text "key", key), (text "value", value)] →
        hasProperty config fieldName) := by
  rw [normalizeProducerProtobuf] at h
  split_ifs at h with hempty
  · exact ⟨(Except.ok.inj h).symm.trans hempty.symm, fun hne => absurd hempty hne⟩
  · obtain ⟨-, -, h⟩ := bind_eq_ok.mp h
    obtain ⟨-, -, h⟩ := bind_eq_ok.mp h
    obtain ⟨_, hschema, h⟩ := bind_eq_ok.mp h
    obtain ⟨_, hrequired, h⟩ := bind_eq_ok.mp h
    obtain ⟨-, -, h⟩ := bind_eq_ok.mp h
    obtain ⟨-, -, h⟩ := bind_eq_ok.mp h
    exact ⟨(Except.ok.inj h).symm, fun _ => ⟨requireProtobufSchema_returns hschema,
      fun fieldName hfield => requireFieldProperties_returns hrequired hfield⟩⟩

theorem normalizeChoice_lookup {choices : List Text} {label propertyName : Text}
    (h : normalizeChoice choices label config propertyName = .ok normalized) (name : Text) :
    (name ≠ propertyName → normalized.lookup name = config.lookup name) ∧
      ∀ choice, name = propertyName → normalized.lookup name = some choice → choice ∈ choices := by
  rw [normalizeChoice] at h
  cases hcurrent : config.lookup propertyName with
  | none =>
    rw [hcurrent] at h
    obtain rfl := Except.ok.inj h
    refine ⟨fun _ => rfl, fun choice hname hchoice => ?_⟩
    rw [hname, hcurrent] at hchoice
    cases hchoice
  | some current =>
    rw [hcurrent] at h
    dsimp only at h
    split_ifs at h with hmem
    obtain rfl := Except.ok.inj h
    rw [Dictionary.lookup_setItem]
    refine ⟨fun hne => if_neg hne, fun choice hname hchoice => ?_⟩
    rw [if_pos hname] at hchoice
    exact Option.some.inj hchoice ▸ List.contains_iff_mem.mp hmem

theorem normalizeChoices_lookup {names choices : List Text} {label : Text}
    (h : normalizeChoices config names choices label = .ok normalized) (name : Text) :
    (name ∉ names → normalized.lookup name = config.lookup name) ∧
      ∀ choice, name ∈ names → normalized.lookup name = some choice → choice ∈ choices := by
  induction names using List.reverseRecOn generalizing normalized with
  | nil =>
    obtain rfl := Except.ok.inj h
    exact ⟨fun _ => rfl, fun _ hname => absurd hname List.not_mem_nil⟩
  | append_singleton names last ih =>
    rw [normalizeChoices, List.foldlM_append] at h
    obtain ⟨before, hbefore, h⟩ := bind_eq_ok.mp h
    rw [List.foldlM_cons] at h
    obtain ⟨after, hlast, h⟩ := bind_eq_ok.mp h
    obtain rfl := Except.ok.inj h
    obtain ⟨hkept, hchosen⟩ := ih hbefore
    obtain ⟨hlastKept, hlastChosen⟩ := normalizeChoice_lookup hlast name
    rw [List.mem_append, List.mem_singleton, not_or]
    refine ⟨fun hname => (hlastKept hname.2).trans (hkept hname.1), fun choice hname hchoice => ?_⟩
    by_cases hisLast : name = last
    · exact hlastChosen choice hisLast hchoice
    · rw [hlastKept hisLast] at hchoice
      exact hchosen choice (hname.resolve_right hisLast) hchoice

theorem normalizeJson_lookup (h : normalizeJson lib world config key value = .ok normalized)
    {name : Text} (hname : name ∈ schemaFileConfigs) :
    normalized.lookup name = config.lookup name := by
  rw [normalizeJson] at h
  split_ifs at h with hempty
  · rw [← Except.ok.inj h, hempty]
  · obtain ⟨-, -, h⟩ := bind_eq_ok.mp h
    obtain ⟨chosen, hchosen, h⟩ := bind_eq_ok.mp h
    obtain ⟨-, -, h⟩ := bind_eq_ok.mp h
    obtain ⟨-, -, h⟩ := bind_eq_ok.mp h
    obtain ⟨-, -, h⟩ := bind_eq_ok.mp h
    obtain ⟨-, -, h⟩ := bind_eq_ok.mp h
    obtain rfl := Except.ok.inj h
    have hdisjoint : ∀ name ∈ schemaFileConfigs, name ∉ framingConfigs := by decide
    exact (normalizeChoices_lookup hchosen name).1 (hdisjoint name hname)

theorem normalizeBytes_lookup (h : normalizeBytes config key value = .ok normalized)
    {name : Text} (hname : name ∈ bytesConfigs) {encoding : Text}
    (hencoding : normalized.lookup name = some encoding) : encoding ∈ bytesEncodings := by
  rw [normalizeBytes] at h
  split_ifs at h with hempty
  · rw [← Except.ok.inj h] at hencoding
    cases hencoding
  · obtain ⟨-, -, h⟩ := bind_eq_ok.mp h
    obtain ⟨chosen, hchosen, h⟩ := bind_eq_ok.mp h
    obtain ⟨-, -, h⟩ := bind_eq_ok.mp h
    obtain ⟨-, -, h⟩ := bind_eq_ok.mp h
    obtain rfl := Except.ok.inj h
    exact (normalizeChoices_lookup hchosen name).2 encoding hname hencoding

theorem lowerProvider {provider : Text} (h : provider ∈ registryProviders) :
    provider.map lowerChr = provider := by
  rcases List.mem_pair.mp h with rfl | rfl <;> decide

/-- The configuration with its provider in lower case, where it names one. -/
theorem lookup_provider (hnormalized : normalized = if hasProperty config (text "provider") then
      Dictionary.setItem config (text "provider") (registryProvider config) else config) :
    normalized.map Prod.fst = config.map Prod.fst ∧
      (normalized.lookup (text "provider")).getD confluentOption = registryProvider config := by
  subst hnormalized
  split_ifs with hgiven
  · obtain ⟨entry, hentry, hkey⟩ := List.lookup_isSome_iff.mp hgiven
    rw [Dictionary.lookup_setItem, if_pos rfl]
    exact ⟨Dictionary.keys_setItem (List.mem_map.mpr ⟨entry, hentry, (eq_of_beq hkey).symm⟩) _, rfl⟩
  · rw [registryProvider, Option.not_isSome_iff_eq_none.mp hgiven]
    exact ⟨rfl, (lowerProvider (List.mem_pair.mpr (.inr rfl))).symm⟩

/-- Only Confluent may be left out. -/
theorem hasProperty_provider (h : registryProvider config = apicurioOption) :
    hasProperty config (text "provider") := by
  by_contra hgiven
  rw [registryProvider, Option.not_isSome_iff_eq_none.mp hgiven] at h
  exact absurd h (by decide)

def clientProperties (config : Properties) : Properties :=
  config.filter (·.1 ≠ text "provider")

/-- A configuration of Apicurio is there where the properties name it, read from them. -/
structure ReadsApicurio (lib : SchemaLibraries) (world : lib.World) (config : Properties)
    (apicurio : Option lib.ApicurioConfig) : Prop where
  configured : apicurio.isSome ↔ registryProvider config = apicurioOption
  parsed : ∀ configured, apicurio = some configured →
    lib.apicurioConfig world (Dictionary.setItem config (text "provider") apicurioOption) = .ok configured

/-- The keys and the properties of the client stay, and the provider is known. -/
structure NormalizedRegistry (lib : SchemaLibraries) (world : lib.World) (config normalized : Properties)
    (apicurio : Option lib.ApicurioConfig) : Prop where
  keys : normalized.map Prod.fst = config.map Prod.fst
  provider : (normalized.lookup (text "provider")).getD confluentOption = registryProvider config
  known : registryProvider config ∈ registryProviders
  given : normalized = if hasProperty config (text "provider") then
    Dictionary.setItem config (text "provider") (registryProvider config) else config
  client : clientProperties normalized = clientProperties config
  apicurio : ReadsApicurio lib world config apicurio

theorem normalizeRegistry_returns {apicurio : Option lib.ApicurioConfig}
    (h : normalizeRegistry lib world config key value = .ok (normalized, apicurio)) :
    NormalizedRegistry lib world config normalized apicurio := by
  rw [normalizeRegistry] at h
  by_cases hempty : config = []
  · rw [if_pos hempty] at h
    obtain ⟨rfl, rfl⟩ := Prod.mk.inj (Except.ok.inj h)
    have hprovider : registryProvider config = confluentOption := by
      rw [hempty]
      exact lowerProvider (List.mem_pair.mpr (.inr rfl))
    have hother : confluentOption ≠ apicurioOption := by decide
    have hknown : confluentOption ∈ registryProviders := List.mem_pair.mpr (.inr rfl)
    refine ⟨by rw [hempty], hprovider ▸ rfl, hprovider ▸ hknown, by rw [hempty]; rfl,
      by rw [hempty], ?_, nofun⟩
    exact ⟨nofun, fun heq => absurd (hprovider.symm.trans heq) hother⟩
  · rw [if_neg hempty] at h
    obtain ⟨-, -, h⟩ := bind_eq_ok.mp h
    dsimp only at h
    generalize hgiven : (if hasProperty config (text "provider") then
      Dictionary.setItem config (text "provider") (registryProvider config) else config) = given at h
    obtain ⟨hkeys, hlookup⟩ := lookup_provider hgiven.symm
    have hclient : clientProperties given = clientProperties config := by
      rw [← hgiven]
      split_ifs with hnamed
      · exact Dictionary.filter_setItem config (text "provider") _
      · rfl
    split_ifs at h with hunknown hrefused hother
    · have hknown : registryProvider config ∈ registryProviders := by
        simpa using hunknown
      obtain ⟨rfl, rfl⟩ := Prod.mk.inj (Except.ok.inj h)
      exact ⟨hkeys, hlookup, hknown, hgiven.symm, hclient, ⟨nofun, fun heq => absurd heq hother⟩, nofun⟩
    · have hknown : registryProvider config ∈ registryProviders := by
        simpa using hunknown
      have happicurio : registryProvider config = apicurioOption := not_ne_iff.mp hother
      rw [Outcome.tryExcept_reraised] at h
      cases hconfig : lib.apicurioConfig world given with
      | error e =>
        rw [hconfig] at h
        cases h
      | ok configured =>
        rw [hconfig] at h
        obtain ⟨rfl, rfl⟩ := Prod.mk.inj (Except.ok.inj h)
        refine ⟨hkeys, hlookup, hknown, hgiven.symm, hclient, ⟨fun _ => happicurio, fun _ => rfl⟩, ?_⟩
        rintro _ ⟨rfl⟩
        rw [if_pos (hasProperty_provider happicurio), happicurio] at hgiven
        rw [hgiven, hconfig]

/-- Whether a field registers its schema: only a Registry field does, where its selection says so. -/
structure Registers (lib : SchemaLibraries) (selection : Properties) (provider : Text)
    (field : MessageField) (serialization : Serialization) (registers : Bool) : Prop where
  other : serialization ≠ .registry → registers = false
  registry : serialization = .registry → ∃ fieldSelection,
    FieldSelection.fromConfig lib.python selection provider field = .ok fieldSelection ∧
      fieldSelection.autoRegister = registers

theorem registeringField_returns {selection : Properties} {provider flag : Text} {field : MessageField}
    {serialization : Serialization} {before after : List Text}
    (h : registeringField lib selection provider flag field serialization before = .ok after) :
    ∃ registers, Registers lib selection provider field serialization registers ∧
      after = if registers then before ++ [field.lowerName] else before := by
  rw [registeringField] at h
  split_ifs at h with hregistry
  · refine ⟨false, ⟨fun _ => rfl, fun heq => absurd heq hregistry⟩, ?_⟩
    split at h
    · cases h
    · exact (Except.ok.inj h).symm
  · obtain ⟨fieldSelection, hselection, h⟩ := bind_eq_ok.mp h
    exact ⟨fieldSelection.autoRegister, ⟨fun hne => absurd hne hregistry,
      fun _ => ⟨fieldSelection, Outcome.tryExcept_reraised.mp hselection, rfl⟩⟩, (Except.ok.inj h).symm⟩

/-- The normalized properties select as the given ones, for the same client of a provider that is known. -/
structure ReadsRegistry (config registry : Properties) : Prop where
  selection : (splitRegistryConfig registry).2 = (splitRegistryConfig config).2
  provider : registryProvider (splitRegistryConfig registry).1 =
    registryProvider (splitRegistryConfig config).1
  client : clientProperties (splitRegistryConfig registry).1 =
    clientProperties (splitRegistryConfig config).1
  known : registryProvider (splitRegistryConfig config).1 ∈ registryProviders

theorem normalizeProducerRegistry_returns (hdistinct : (config.map Prod.fst).Nodup)
    {registry : Properties} {apicurio : Option lib.ApicurioConfig} {registering : List Text}
    (h : normalizeProducerRegistry lib world config key value = .ok (registry, apicurio, registering)) :
    ReadsRegistry config registry ∧
      ReadsApicurio lib world (splitRegistryConfig config).1 apicurio ∧
      Registers lib (splitRegistryConfig config).2 (registryProvider (splitRegistryConfig config).1) .key
        key (registering.contains (text "key")) ∧
      Registers lib (splitRegistryConfig config).2 (registryProvider (splitRegistryConfig config).1) .value
        value (registering.contains (text "value")) := by
  obtain ⟨⟨client, configured⟩, hregistry, h⟩ := bind_eq_ok.mp h
  have hreads := normalizeRegistry_returns hregistry
  have hclient : registryProvider client = registryProvider (splitRegistryConfig config).1 := by
    rw [registryProvider, hreads.provider, lowerProvider hreads.known]
  dsimp only at h
  split_ifs at h with hempty
  · obtain ⟨rfl, heq⟩ := Prod.mk.inj (Except.ok.inj h)
    obtain ⟨rfl, rfl⟩ := Prod.mk.inj heq
    have hdefault : ∀ field serialization, Registers lib (splitRegistryConfig config).2
        (registryProvider (splitRegistryConfig config).1) field serialization false :=
      fun field serialization =>
        ⟨fun _ => rfl, fun _ => ⟨{}, hempty ▸ FieldSelection.fromConfig_nil _ _ _, rfl⟩⟩
    have hsplit := splitRegistryConfig_client hreads.keys
    refine ⟨⟨?_, ?_, ?_, hreads.known⟩, hreads.apicurio, hdefault _ _, hdefault _ _⟩
    · rw [hsplit, hempty]
    · rw [hsplit, hclient]
    · rw [hsplit, hreads.client]
  · obtain ⟨-, -, h⟩ := bind_eq_ok.mp h
    obtain ⟨keyRegistering, hkey, h⟩ := bind_eq_ok.mp h
    obtain ⟨both, hvalue, h⟩ := bind_eq_ok.mp h
    obtain ⟨rfl, heq⟩ := Prod.mk.inj (Except.ok.inj h)
    obtain ⟨rfl, rfl⟩ := Prod.mk.inj heq
    obtain ⟨keyRegisters, hkeyRegisters, rfl⟩ := registeringField_returns hkey
    obtain ⟨valueRegisters, hvalueRegisters, rfl⟩ := registeringField_returns hvalue
    rw [hreads.provider] at hkeyRegisters hvalueRegisters
    have hsplit := splitRegistryConfig_union hdistinct hreads.keys
    refine ⟨⟨?_, ?_, ?_, hreads.known⟩, hreads.apicurio, ?_, ?_⟩
    · rw [hsplit]
    · rw [hsplit, hclient]
    · rw [hsplit, hreads.client]
    · convert hkeyRegisters using 1
      cases keyRegisters <;> cases valueRegisters <;> rfl
    · convert hvalueRegisters using 1
      cases keyRegisters <;> cases valueRegisters <;> rfl

theorem found_eq (properties : SerializerProperties) (fieldName : Text) :
    ([(Serialization.avro, properties.avro), (.json, properties.json),
        (.protobuf, properties.protobuf)].filter fun named => hasProperty named.2 fieldName).map
          Prod.fst =
      (properties.localSchemas fieldName).map LocalSchema.format := by
  simp only [List.filter_cons, List.filter_nil, hasProperty, SerializerProperties.localSchemas]
  cases properties.avro.lookup fieldName <;> cases properties.json.lookup fieldName <;>
    cases properties.protobuf.lookup fieldName <;> rfl

/-- A field that registers its schema takes the format of its only file. -/
theorem schemaFileFormat_returns {properties : SerializerProperties} {registering : List Text}
    {fieldName : Text} {serialization format : Serialization}
    (h : schemaFileFormat registering [(.avro, properties.avro), (.json, properties.json),
      (.protobuf, properties.protobuf)] fieldName serialization = .ok format) :
    (registering.contains fieldName = false → format = serialization) ∧
      (registering.contains fieldName → ∃ file, properties.localSchemas fieldName = [file] ∧
        format = file.format) := by
  unfold schemaFileFormat at h
  dsimp only at h
  rw [found_eq] at h
  cases hregisters : registering.contains fieldName with
  | false =>
    refine ⟨fun _ => ?_, nofun⟩
    rw [hregisters, Bool.not_false, if_pos rfl] at h
    split at h
    · cases h
    · exact (Except.ok.inj h).symm
  | true =>
    refine ⟨nofun, fun _ => ?_⟩
    rw [hregisters, Bool.not_true, if_neg Bool.false_ne_true] at h
    split at h
    case h_1 found hfound =>
      obtain ⟨file, hfile, rfl⟩ := List.map_eq_singleton_iff.mp hfound
      exact ⟨file, hfile, (Except.ok.inj h).symm⟩
    case h_2 => cases h

theorem requireConfigured_returns {properties : SerializerProperties}
    (h : requireConfigured key value properties = .ok ()) :
    (uses .avro key value → properties.avro ≠ []) ∧
      (uses .protobuf key value → properties.protobuf ≠ []) := by
  rw [requireConfigured] at h
  split_ifs at h with havro hregistry hprotobuf
  exact ⟨fun huses hempty => havro ⟨hempty, huses⟩, fun huses hempty => hprotobuf ⟨hempty, huses⟩⟩

def SerializerProperties.selection (properties : SerializerProperties) (lib : SchemaLibraries)
    (field : MessageField) : Outcome FieldSelection :=
  FieldSelection.fromConfig lib.python (splitRegistryConfig properties.registry).2
    (registryProvider (splitRegistryConfig properties.registry).1) field

/-- What accepted properties give for a field. -/
structure AcceptedField (lib : SchemaLibraries) (properties : SerializerProperties)
    (field : MessageField) (serialization : Serialization) : Prop where
  avro : serialization = .avro → hasProperty properties.avro field.lowerName
  protobuf : serialization = .protobuf → hasProperty properties.protobuf field.lowerName ∧
    ∃ schema : ProtobufSchema, schema.Of properties.protobuf
  registry : serialization = .registry → ∃ selection, properties.selection lib field = .ok selection ∧
    (selection.autoRegister → ∃ file, properties.localSchemas field.lowerName = [file] ∧
      (file.format = .protobuf → ∃ schema : ProtobufSchema, schema.Of properties.protobuf ∧
        (registryProvider (splitRegistryConfig properties.registry).1 = apicurioOption →
          hasProperty properties.protobuf (text "source"))))

/-- What accepted properties mean, and what the normalized options keep of them. -/
structure Accepted (lib : SchemaLibraries) (world : lib.World) (properties : SerializerProperties)
    (options : SerializerOptions lib) : Prop where
  registry : ReadsRegistry properties.registry options.registryConfig
  apicurio : ReadsApicurio lib world (splitRegistryConfig properties.registry).1 options.apicurioConfig
  avro : options.avroConfig = properties.avro
  protobuf : options.protobufConfig = properties.protobuf
  json : ∀ name ∈ schemaFileConfigs, options.jsonConfig.lookup name = properties.json.lookup name
  bytes : ∀ name ∈ bytesConfigs, ∀ encoding,
    options.bytesConfig.lookup name = some encoding → encoding ∈ bytesEncodings

theorem mem_localSchemas {properties : SerializerProperties} {fieldName : Text} {file : LocalSchema} :
    file ∈ properties.localSchemas fieldName ↔
      match file with
      | .avro path => properties.avro.lookup fieldName = some path
      | .json path => properties.json.lookup fieldName = some path
      | .protobuf messageName => properties.protobuf.lookup fieldName = some messageName := by
  cases file <;> simp [SerializerProperties.localSchemas]

theorem localSchemas_protobuf {properties : SerializerProperties} {fieldName : Text} {file : LocalSchema}
    (h : properties.localSchemas fieldName = [file]) (hformat : file.format = .protobuf) :
    hasProperty properties.protobuf fieldName := by
  have hmem := mem_localSchemas.mp (h ▸ List.mem_singleton_self file)
  cases file with
  | avro path => cases hformat
  | json path => cases hformat
  | protobuf messageName => exact Option.isSome_iff_exists.mpr ⟨messageName, hmem⟩

theorem requireProtobufSource_returns {registering : List Text}
    (h : requireProtobufSource config registering = .ok ()) {fieldName : Text}
    (hregisters : registering.contains fieldName) (hfield : hasProperty config fieldName) :
    config.lookup (text "descriptor") = none := by
  rw [requireProtobufSource] at h
  split_ifs at h with hboth
  rw [Bool.and_eq_true, not_and] at hboth
  by_contra hdescriptor
  exact hboth (Option.isSome_iff_ne_none.mpr hdescriptor)
    (List.any_eq_true.mpr ⟨fieldName, List.contains_iff_mem.mp hregisters, hfield⟩)

theorem AcceptedField.of_format {properties : SerializerProperties} {field : MessageField}
    {serialization format : Serialization} {registers : Bool}
    (hregisters : Registers lib (splitRegistryConfig properties.registry).2
      (registryProvider (splitRegistryConfig properties.registry).1) field serialization registers)
    (hformat : (registers = false → format = serialization) ∧
      (registers → ∃ file, properties.localSchemas field.lowerName = [file] ∧ format = file.format))
    (havro : serialization = .avro → properties.avro ≠ [])
    (hprotobuf : serialization = .protobuf → properties.protobuf ≠ [])
    (hrequiredAvro : properties.avro ≠ [] → format = .avro → hasProperty properties.avro field.lowerName)
    (hschema : properties.protobuf ≠ [] → ∃ schema : ProtobufSchema, schema.Of properties.protobuf)
    (hrequiredProtobuf : properties.protobuf ≠ [] → format = .protobuf →
      hasProperty properties.protobuf field.lowerName)
    (hsource : registryProvider (splitRegistryConfig properties.registry).1 = apicurioOption → registers →
      hasProperty properties.protobuf field.lowerName →
        properties.protobuf.lookup (text "descriptor") = none) :
    AcceptedField lib properties field serialization where
  avro := by
    rintro rfl
    exact hrequiredAvro (havro rfl) (hformat.1 (hregisters.other nofun))
  protobuf := by
    rintro rfl
    exact ⟨hrequiredProtobuf (hprotobuf rfl) (hformat.1 (hregisters.other nofun)),
      hschema (hprotobuf rfl)⟩
  registry := by
    intro hregistry
    obtain ⟨selection, hselection, hauto⟩ := hregisters.registry hregistry
    refine ⟨selection, hselection, fun hregistering => ?_⟩
    rw [hauto] at hregistering
    obtain ⟨file, hfile, -⟩ := hformat.2 hregistering
    refine ⟨file, hfile, fun hfileFormat => ?_⟩
    have hfield := localSchemas_protobuf hfile hfileFormat
    obtain ⟨schema, hof⟩ := hschema (ne_nil_of_hasProperty hfield)
    refine ⟨schema, hof, fun hprovider => ?_⟩
    have hdescriptor := hsource hprovider hregistering hfield
    cases schema with
    | descriptor path =>
      rw [hof.1] at hdescriptor
      cases hdescriptor
    | source path includes => exact Option.isSome_iff_exists.mpr ⟨path, hof.1⟩

theorem normalizeSerializerOptions_returns {properties : SerializerProperties}
    {options : SerializerOptions lib}
    (h : normalizeSerializerOptions lib world key value properties = .ok options) :
    Accepted lib world properties options ∧ AcceptedField lib properties .key key ∧
      AcceptedField lib properties .value value := by
  obtain ⟨_, hconfigured, h⟩ := bind_eq_ok.mp h
  obtain ⟨⟨registry, apicurio, registering⟩, hregistry, h⟩ := bind_eq_ok.mp h
  obtain ⟨⟨keyFormat, valueFormat⟩, hformats, h⟩ := bind_eq_ok.mp h
  obtain ⟨json, hjson, h⟩ := bind_eq_ok.mp h
  obtain ⟨avro, havro, h⟩ := bind_eq_ok.mp h
  obtain ⟨protobuf, hprotobuf, h⟩ := bind_eq_ok.mp h
  have hend : (apicurio.isSome → requireProtobufSource protobuf registering = .ok ()) ∧
      ∃ bytes, normalizeBytes properties.bytes key value = .ok bytes ∧
        options = ⟨registry, apicurio, protobuf, avro, json, bytes⟩ := by
    dsimp only at h
    split_ifs at h with hsome
    · obtain ⟨_, hsource, h⟩ := bind_eq_ok.mp h
      obtain ⟨bytes, hbytes, h⟩ := bind_eq_ok.mp h
      exact ⟨fun _ => hsource, bytes, hbytes, (Except.ok.inj h).symm⟩
    · obtain ⟨bytes, hbytes, h⟩ := bind_eq_ok.mp h
      exact ⟨fun hsource => absurd hsource hsome, bytes, hbytes, (Except.ok.inj h).symm⟩
  obtain ⟨rfl, hrequiredAvro⟩ := normalizeProducerAvro_returns havro
  obtain ⟨rfl, hrequiredProtobuf⟩ := normalizeProducerProtobuf_returns hprotobuf
  obtain ⟨havroNe, hprotobufNe⟩ := requireConfigured_returns hconfigured
  obtain ⟨hreads, hapicurio, hkey, hvalue⟩ := normalizeProducerRegistry_returns
    (properties.distinct _ List.mem_cons_self) hregistry
  obtain ⟨_, hkeyFormat, hformats⟩ := bind_eq_ok.mp hformats
  obtain ⟨_, hvalueFormat, hformats⟩ := bind_eq_ok.mp hformats
  obtain ⟨rfl, rfl⟩ := Prod.mk.inj (Except.ok.inj hformats)
  obtain ⟨hsource, bytes, hbytes, rfl⟩ := hend
  refine ⟨⟨hreads, hapicurio, rfl, rfl, fun name hname => normalizeJson_lookup hjson hname,
    fun name hname encoding => normalizeBytes_lookup hbytes hname⟩, ?_, ?_⟩
  · refine .of_format hkey (schemaFileFormat_returns hkeyFormat) (fun heq => havroNe ?_)
      (fun heq => hprotobufNe ?_) (fun hne heq => hrequiredAvro hne _ ?_)
      (fun hne => (hrequiredProtobuf hne).1) (fun hne heq => (hrequiredProtobuf hne).2 _ ?_)
      fun heq hregisters hfield =>
        requireProtobufSource_returns (hsource (hapicurio.configured.mpr heq)) hregisters hfield
    · rw [uses, heq, decide_eq_true rfl, Bool.true_or]
    · rw [uses, heq, decide_eq_true rfl, Bool.true_or]
    · exact heq ▸ List.mem_cons_self
    · exact heq ▸ List.mem_cons_self
  · refine .of_format hvalue (schemaFileFormat_returns hvalueFormat) (fun heq => havroNe ?_)
      (fun heq => hprotobufNe ?_) (fun hne heq => hrequiredAvro hne _ ?_)
      (fun hne => (hrequiredProtobuf hne).1) (fun hne heq => (hrequiredProtobuf hne).2 _ ?_)
      fun heq hregisters hfield =>
        requireProtobufSource_returns (hsource (hapicurio.configured.mpr heq)) hregisters hfield
    · rw [uses, heq, decide_eq_true rfl, Bool.or_true]
    · rw [uses, heq, decide_eq_true rfl, Bool.or_true]
    · exact heq ▸ List.mem_cons_of_mem _ List.mem_cons_self
    · exact heq ▸ List.mem_cons_of_mem _ List.mem_cons_self

end Accepted

end Kaskade
