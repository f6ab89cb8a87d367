import Kaskade.SerializerOptions

/-!
# The pool of serializers

`SerializerPool` builds the serializer of each field from the normalized options and reads the schema files
when a serializer is requested. No property that it asks for is missing then.
-/

namespace Kaskade

open Python Registration

/-- `str.upper` of one code point, as far as it gives one ASCII letter. -/
def upperChr (c : CodePoint) : CodePoint :=
  if 0x61 ≤ c.val ∧ c.val ≤ 0x7a then Fin.ofNat 0x110000 (c.val - 0x20)
  else if c.val = 0x131 then chr 'I'
  else if c.val = 0x17f then chr 'S'
  else c

namespace BytesEncoding

def fromStr (value : Text) : Outcome BytesEncoding :=
  let name := (value.map upperChr).map fun c => if c = chr '-' then chr '_' else c
  match [base64, hex, byteArray, escaped].find? (·.name = name) with
  | some encoding => .ok encoding
  | none => .error ⟨.keyError, name⟩

def fromConfig (config : Properties) (context : MessageField) : Outcome BytesEncoding :=
  fromStr (scopedProperty (config.lookup ·) (text "encoding") context (text "base64"))

theorem fromStr_returns {value : Text} (h : value ∈ bytesEncodings) :
    ∃ encoding, fromStr value = .ok encoding := by
  rw [bytesEncodings] at h
  simp only [List.mem_cons, List.not_mem_nil, or_false] at h
  rcases h with rfl | rfl | rfl | rfl
  · exact ⟨base64, by decide⟩
  · exact ⟨hex, by decide⟩
  · exact ⟨byteArray, by decide⟩
  · exact ⟨escaped, by decide⟩

end BytesEncoding

inductive Serializer (lib : SchemaLibraries) where
  | string
  | boolean
  | integer
  | long
  | float
  | double
  | bytes (encoding : BytesEncoding)
  | json (schema : Option (lib.JsonSchema × Text))
  | avro (schema : lib.AvroSchema) (schemaPath : Text)
  | protobuf (messageClass : lib.MessageClass) (messageName : Text)
  | registry (resolver : lib.Resolver) (topic : Text) (field : MessageField)
      (selection : FieldSelection) (document : Option SchemaDocument)

def fixedSerializer (lib : SchemaLibraries) : Serialization → Option (Serializer lib)
  | .string => some .string
  | .boolean => some .boolean
  | .integer => some .integer
  | .long => some .long
  | .float => some .float
  | .double => some .double
  | _ => none

def protobufDocument (lib : SchemaLibraries) (world : lib.World) (config : Properties)
    (messageName : Text) (asSource : Bool) : Outcome SchemaDocument := do
  let descriptorSet ← protobufDescriptorSet lib world config
  let messageClasses ← lib.getMessages descriptorSet
  match messageClasses messageName with
  | none => .error ⟨.schemaError, text "Protobuf message " ++ messageName ++ text " isn't in the schema"⟩
  | some messageClass =>
    if asSource then
      match config.lookup (text "source") with
      | none => .error ⟨.schemaError,
          text "Registering Protobuf in Apicurio needs --protobuf source=my.proto"⟩
      | some source =>
        lib.protobufDocument world descriptorSet messageClass (some (source, protobufIncludes config))
    else lib.protobufDocument world descriptorSet messageClass none

def schemaResolver (lib : SchemaLibraries) (world : lib.World) (registryConfig : Properties)
    (apicurioConfig : Option lib.ApicurioConfig) : Outcome lib.Resolver :=
  let clientConfig := (splitRegistryConfig registryConfig).1
  if registryProvider clientConfig = apicurioOption then
    match apicurioConfig with
    | some config => lib.apicurioSchemaResolver config
    | none => lib.apicurioConfig world clientConfig >>= lib.apicurioSchemaResolver
  else lib.confluentSchemaResolver (clientConfig.filter (·.1 ≠ text "provider"))

structure SerializerPool (lib : SchemaLibraries) extends SerializerOptions lib where
  topic : Text
  resolver : Option lib.Resolver := none

namespace SerializerPool

variable {lib : SchemaLibraries} (world : lib.World) (pool : SerializerPool lib)

def registrationDocument (field : MessageField) (provider : Text) :
    Outcome (SchemaDocument × Option Text) :=
  let name := field.lowerName
  match pool.avroConfig.lookup name with
  | some path => (lib.avroDocument world path).map fun document => (document, none)
  | none =>
    match pool.jsonConfig.lookup name with
    | some path => (lib.jsonDocument world path).map fun document => (document, none)
    | none =>
      match pool.protobufConfig.lookup name with
      | some message =>
        (protobufDocument lib world pool.protobufConfig message (provider = apicurioOption)).map
          fun document => (document, some message)
      | none => .error ⟨.schemaError, text "Registering the " ++ name
          ++ text " schema needs --avro, --json, or --protobuf"⟩

def withMessage (selection : FieldSelection) : Option Text → FieldSelection
  | some message => { selection with protobufMessage := some message }
  | none => selection

/-- The end of `_registry_serializer`. -/
def withResolver (field : MessageField) (selection : FieldSelection)
    (document : Option SchemaDocument) : Outcome (Serializer lib × SerializerPool lib) :=
  let resolver : Outcome lib.Resolver := match pool.resolver with
    | some resolver => .ok resolver
    | none => schemaResolver lib world pool.registryConfig pool.apicurioConfig
  resolver.map fun resolver =>
    (.registry resolver pool.topic field selection document, { pool with resolver := some resolver })

def registrySerializer (field : MessageField) : Outcome (Serializer lib × SerializerPool lib) := do
  let split := splitRegistryConfig pool.registryConfig
  let provider := registryProvider split.1
  let selection ← FieldSelection.fromConfig lib.python split.2 provider field
  if selection.autoRegister then
    let registration ← pool.registrationDocument world field provider
    pool.withResolver world field (withMessage selection registration.2) (some registration.1)
  else pool.withResolver world field selection none

/-- `get`: the serializer, and the pool with the resolver that it may have created. -/
def get (serialization : Serialization) (field : MessageField) :
    Outcome (Serializer lib × SerializerPool lib) :=
  let name := field.lowerName
  match fixedSerializer lib serialization with
  | some fixed => .ok (fixed, pool)
  | none =>
    match serialization with
    | .bytes => (BytesEncoding.fromConfig pool.bytesConfig field).map fun encoding =>
        (.bytes encoding, pool)
    | .json =>
      match pool.jsonConfig.lookup name with
      | some path => (lib.loadJsonSchema world path).map fun schema => (.json (some (schema, path)), pool)
      | none => .ok (.json none, pool)
    | .avro =>
      match pool.avroConfig.lookup name with
      | some path => (lib.loadAvroSchema world path).map fun schema => (.avro schema path, pool)
      | none => .error ⟨.keyError, name⟩
    | .protobuf =>
      match pool.protobufConfig.lookup name with
      | some message => (localMessageClass lib world pool.protobufConfig message).map fun messageClass =>
          (.protobuf messageClass message, pool)
      | none => .error ⟨.keyError, name⟩
    | .registry => pool.registrySerializer world field
    | _ => .ok (.json none, pool)

/-- The pool of the normalized options; a resolver is there once it was needed. -/
def ofOptions (topic : Text) (options : SerializerOptions lib) (resolver : Option lib.Resolver) :
    SerializerPool lib :=
  { options with
    topic := topic
    resolver := resolver }

end SerializerPool

/-- What a schema file becomes when it is registered, and the message that it names: the schema of a
message is the one that the properties give, a source where the registry stores text. -/
def LocalSchema.RegistersAs (lib : SchemaLibraries) (world : lib.World) (properties : SerializerProperties)
    (registration : Outcome (SchemaDocument × Option Text)) : LocalSchema → Prop
  | .avro path => registration = (lib.avroDocument world path).map fun document => (document, none)
  | .json path => registration = (lib.jsonDocument world path).map fun document => (document, none)
  | .protobuf message => ∃ schema : ProtobufSchema, schema.Of properties.protobuf ∧
      if registryProvider (splitRegistryConfig properties.registry).1 = apicurioOption then
        ∃ path includes, schema = .source path includes ∧
          registration = (schema.document lib world message (some (path, includes))).map
            fun document => (document, some message)
      else registration = (schema.document lib world message none).map
        fun document => (document, some message)

/-- What building the resolver gives: the client of Confluent gets the properties of the client without
the provider, and that of Apicurio the configuration that was read when the properties were accepted. -/
def SerializerProperties.OffersResolver (properties : SerializerProperties) (lib : SchemaLibraries)
    (validated : lib.World) (resolver : Outcome lib.Resolver) : Prop :=
  let client := (splitRegistryConfig properties.registry).1
  if registryProvider client = apicurioOption then
    ∃ configured, lib.apicurioConfig validated
        (Dictionary.setItem client (text "provider") apicurioOption) = .ok configured ∧
      resolver = lib.apicurioSchemaResolver configured
  else registryProvider client = confluentOption ∧
    resolver = lib.confluentSchemaResolver (client.filter (·.1 ≠ text "provider"))

/-- The pool builds what the properties ask for, and reads only properties that are there: nothing but
the libraries can raise, the client of the registry when its resolver is built included. -/
def SerializerPool.Serves {lib : SchemaLibraries} (pool : SerializerPool lib) (validated : lib.World)
    (properties : SerializerProperties) (serialization : Serialization) (field : MessageField)
    (world : lib.World) : Prop :=
  match serialization with
  | .bytes => ∃ encoding, pool.get world .bytes field = .ok (.bytes encoding, pool)
  | .json =>
    (∀ path, properties.json.lookup field.lowerName = some path → pool.get world .json field =
      (lib.loadJsonSchema world path).map fun schema => (.json (some (schema, path)), pool)) ∧
    (properties.json.lookup field.lowerName = none →
      pool.get world .json field = .ok (.json none, pool))
  | .avro => ∃ path, properties.avro.lookup field.lowerName = some path ∧
      pool.get world .avro field =
        (lib.loadAvroSchema world path).map fun schema => (.avro schema path, pool)
  | .protobuf => ∃ message, ∃ schema : ProtobufSchema,
      properties.protobuf.lookup field.lowerName = some message ∧ schema.Of properties.protobuf ∧
      pool.get world .protobuf field = (schema.messageClass lib world message).map fun messageClass =>
        (.protobuf messageClass message, pool)
  | .registry => ∃ (selection : FieldSelection) (resolver : Outcome lib.Resolver),
      properties.selection lib field = .ok selection ∧
      FieldSelection.fromConfig lib.python (splitRegistryConfig pool.registryConfig).2
        (registryProvider (splitRegistryConfig pool.registryConfig).1) field = .ok selection ∧
      (∀ built, pool.resolver = some built → resolver = .ok built) ∧
      (pool.resolver = none → properties.OffersResolver lib validated resolver) ∧
      (selection.autoRegister = false → pool.get world .registry field = resolver.map fun resolver =>
        (.registry resolver pool.topic field selection none, { pool with resolver := some resolver })) ∧
      (selection.autoRegister → ∃ file registration,
        properties.localSchemas field.lowerName = [file] ∧
        file.RegistersAs lib world properties registration ∧
        pool.get world .registry field = registration >>= fun registered => resolver.map fun resolver =>
          (.registry resolver pool.topic field
              { selection with protobufMessage := registered.2.or selection.protobufMessage }
              (some registered.1),
            { pool with resolver := some resolver }))
  | fixed => ∃ serializer, pool.get world fixed field = .ok (serializer, pool)

theorem BytesEncoding.fromConfig_returns {config : Properties}
    (h : ∀ name ∈ bytesConfigs, ∀ encoding, config.lookup name = some encoding → encoding ∈ bytesEncodings)
    {field : MessageField} (hfield : field ≠ .none) :
    ∃ encoding, fromConfig config field = .ok encoding := by
  have hscoped : field.lowerName ++ text "." ++ text "encoding" ∈ bytesConfigs := by
    cases field with
    | none => exact absurd rfl hfield
    | key => decide
    | value => decide
  have hglobal : text "encoding" ∈ bytesConfigs := by decide
  apply fromStr_returns
  rw [scopedProperty, if_neg hfield]
  cases hown : config.lookup (field.lowerName ++ text "." ++ text "encoding") with
  | some encoding => exact h _ hscoped encoding hown
  | none =>
    cases hboth : config.lookup (text "encoding") with
    | some encoding => exact h _ hglobal encoding hboth
    | none => exact List.mem_cons_self

namespace SerializerPool

variable {lib : SchemaLibraries} {properties : SerializerProperties} {options : SerializerOptions lib}
  {field : MessageField} {validated : lib.World} (topic : Text) (resolver : Option lib.Resolver)
  (world : lib.World)

theorem protobufDocument_descriptors {schema : ProtobufSchema} (hof : schema.Of properties.protobuf)
    (message : Text) :
    protobufDocument lib world properties.protobuf message false =
      schema.document lib world message none := by
  rw [protobufDocument, hof.descriptorSet_eq, ProtobufSchema.document]
  refine bind_congr fun descriptorSet => bind_congr fun messageClasses => ?_
  cases messageClasses message with
  | none => rfl
  | some messageClass => rfl

theorem protobufDocument_text {path : Text} {includes : List Text}
    (hof : (ProtobufSchema.source path includes).Of properties.protobuf) (message : Text) :
    protobufDocument lib world properties.protobuf message true =
      (ProtobufSchema.source path includes).document lib world message (some (path, includes)) := by
  rw [protobufDocument, hof.descriptorSet_eq, ProtobufSchema.document]
  refine bind_congr fun descriptorSet => bind_congr fun messageClasses => ?_
  cases messageClasses message with
  | none => rfl
  | some messageClass => simp only [if_true, hof.1, hof.2.2]

theorem registrationDocument_registers (haccepted : Accepted lib validated properties options)
    (hname : field.lowerName ∈ schemaFileConfigs) {file : LocalSchema}
    (hfile : properties.localSchemas field.lowerName = [file])
    (hprotobuf : file.format = .protobuf → ∃ schema : ProtobufSchema, schema.Of properties.protobuf ∧
      (registryProvider (splitRegistryConfig properties.registry).1 = apicurioOption →
        hasProperty properties.protobuf (text "source"))) :
    file.RegistersAs lib world properties
      ((ofOptions topic options resolver).registrationDocument world field
        (registryProvider (splitRegistryConfig properties.registry).1)) := by
  have havro : (ofOptions topic options resolver).avroConfig = properties.avro := haccepted.avro
  have hconfig : (ofOptions topic options resolver).protobufConfig = properties.protobuf :=
    haccepted.protobuf
  have hjson : (ofOptions topic options resolver).jsonConfig.lookup field.lowerName =
      properties.json.lookup field.lowerName := haccepted.json _ hname
  rw [SerializerProperties.localSchemas] at hfile
  simp only [registrationDocument, havro, hconfig, hjson]
  cases hlookupAvro : properties.avro.lookup field.lowerName with
  | some path =>
    rw [hlookupAvro] at hfile
    obtain ⟨rfl, -⟩ := List.cons.inj hfile
    rfl
  | none =>
    rw [hlookupAvro] at hfile
    cases hlookupJson : properties.json.lookup field.lowerName with
    | some path =>
      rw [hlookupJson] at hfile
      obtain ⟨rfl, -⟩ := List.cons.inj hfile
      rfl
    | none =>
      rw [hlookupJson] at hfile
      cases hlookupProtobuf : properties.protobuf.lookup field.lowerName with
      | some message =>
        rw [hlookupProtobuf] at hfile
        obtain ⟨rfl, -⟩ := List.cons.inj hfile
        obtain ⟨schema, hof, hsource⟩ := hprotobuf rfl
        refine ⟨schema, hof, ?_⟩
        split_ifs with happicurio
        · obtain ⟨path, includes, rfl⟩ := hof.source (hsource happicurio)
          refine ⟨path, includes, rfl, ?_⟩
          rw [decide_eq_true happicurio]
          exact congrArg (Except.map fun document => (document, some message))
            (protobufDocument_text world hof message)
        · rw [decide_eq_false happicurio]
          exact congrArg (Except.map fun document => (document, some message))
            (protobufDocument_descriptors world hof message)
      | none =>
        rw [hlookupProtobuf] at hfile
        cases hfile

theorem withMessage_eq (selection : FieldSelection) (message : Option Text) :
    withMessage selection message =
      { selection with protobufMessage := message.or selection.protobufMessage } := by
  cases message with
  | none => rfl
  | some message => rfl

theorem registrySerializer_eq {pool : SerializerPool lib} {selection : FieldSelection}
    (h : FieldSelection.fromConfig lib.python (splitRegistryConfig pool.registryConfig).2
      (registryProvider (splitRegistryConfig pool.registryConfig).1) field = .ok selection) :
    pool.registrySerializer world field =
      if selection.autoRegister then
        pool.registrationDocument world field
            (registryProvider (splitRegistryConfig pool.registryConfig).1) >>= fun registration =>
          pool.withResolver world field (withMessage selection registration.2) (some registration.1)
      else pool.withResolver world field selection none := by
  rw [registrySerializer, h]
  rfl

/-- The client of the normalized options is the one that the properties configure. -/
theorem schemaResolver_offered (haccepted : Accepted lib validated properties options) :
    properties.OffersResolver lib validated
      (schemaResolver lib world options.registryConfig options.apicurioConfig) := by
  simp only [SerializerProperties.OffersResolver, schemaResolver, haccepted.registry.provider]
  split_ifs with happicurio
  · obtain ⟨configured, hconfigured⟩ :=
      Option.isSome_iff_exists.mp (haccepted.apicurio.configured.mpr happicurio)
    exact ⟨configured, haccepted.apicurio.parsed configured hconfigured, by rw [hconfigured]⟩
  · have hknown := List.mem_pair.mp haccepted.registry.known
    exact ⟨hknown.resolve_left happicurio,
      congrArg lib.confluentSchemaResolver haccepted.registry.client⟩

theorem serves_registry (haccepted : Accepted lib validated properties options)
    (hfield : AcceptedField lib properties field .registry)
    (hname : field.lowerName ∈ schemaFileConfigs) :
    (ofOptions topic options resolver).Serves validated properties .registry field world := by
  obtain ⟨selection, hselection, hfile⟩ := hfield.registry rfl
  have hprovider : registryProvider
      (splitRegistryConfig (ofOptions topic options resolver).registryConfig).1 =
        registryProvider (splitRegistryConfig properties.registry).1 := haccepted.registry.provider
  have hpool : FieldSelection.fromConfig lib.python
      (splitRegistryConfig (ofOptions topic options resolver).registryConfig).2
      (registryProvider (splitRegistryConfig (ofOptions topic options resolver).registryConfig).1) field =
        .ok selection := by
    rw [hprovider, ← hselection]
    exact congrArg (FieldSelection.fromConfig lib.python · _ field) haccepted.registry.selection
  have hget : (ofOptions topic options resolver).get world .registry field =
      (ofOptions topic options resolver).registrySerializer world field := rfl
  rw [registrySerializer_eq world hpool] at hget
  refine ⟨selection, resolver.elim
      (schemaResolver lib world options.registryConfig options.apicurioConfig) .ok,
    hselection, hpool, ?_, ?_, fun hregisters => ?_, fun hregisters => ?_⟩
  · rintro built (rfl : resolver = some built)
    rfl
  · rintro (rfl : resolver = none)
    exact schemaResolver_offered world haccepted
  · rw [hget, hregisters]
    cases resolver with
    | none => rfl
    | some built => rfl
  · obtain ⟨file, honly, hprotobuf⟩ := hfile hregisters
    refine ⟨file, _, honly,
      registrationDocument_registers topic resolver world haccepted hname honly hprotobuf, ?_⟩
    rw [hget, if_pos hregisters, hprovider]
    refine bind_congr fun registered => ?_
    rw [withMessage_eq]
    cases resolver with
    | none => rfl
    | some built => rfl

theorem serves_avro (haccepted : Accepted lib validated properties options)
    (hfield : AcceptedField lib properties field .avro) :
    (ofOptions topic options resolver).Serves validated properties .avro field world := by
  obtain ⟨path, hpath⟩ := Option.isSome_iff_exists.mp (hfield.avro rfl)
  have hlookup : (ofOptions topic options resolver).avroConfig.lookup field.lowerName = some path :=
    (congrArg (List.lookup field.lowerName) haccepted.avro).trans hpath
  refine ⟨path, hpath, ?_⟩
  simp only [get, fixedSerializer, hlookup]

theorem serves_protobuf (haccepted : Accepted lib validated properties options)
    (hfield : AcceptedField lib properties field .protobuf) :
    (ofOptions topic options resolver).Serves validated properties .protobuf field world := by
  obtain ⟨hmessage, schema, hschema⟩ := hfield.protobuf rfl
  obtain ⟨message, hmessage⟩ := Option.isSome_iff_exists.mp hmessage
  have hconfig : (ofOptions topic options resolver).protobufConfig = properties.protobuf :=
    haccepted.protobuf
  refine ⟨message, schema, hmessage, hschema, ?_⟩
  simp only [get, fixedSerializer, hconfig, hmessage, hschema.messageClass_eq]

theorem serves_json (haccepted : Accepted lib validated properties options)
    (hname : field.lowerName ∈ schemaFileConfigs) :
    (ofOptions topic options resolver).Serves validated properties .json field world := by
  have hlookup : (ofOptions topic options resolver).jsonConfig.lookup field.lowerName =
      properties.json.lookup field.lowerName := haccepted.json _ hname
  refine ⟨fun path hpath => ?_, fun hnone => ?_⟩
  · simp only [get, fixedSerializer, hlookup, hpath]
  · simp only [get, fixedSerializer, hlookup, hnone]

theorem serves_bytes (haccepted : Accepted lib validated properties options) (hfield : field ≠ .none) :
    (ofOptions topic options resolver).Serves validated properties .bytes field world := by
  obtain ⟨encoding, hencoding⟩ := BytesEncoding.fromConfig_returns haccepted.bytes hfield
  have hconfig : (ofOptions topic options resolver).bytesConfig = options.bytesConfig := rfl
  refine ⟨encoding, ?_⟩
  simp only [get, fixedSerializer, hconfig, hencoding]
  rfl

theorem serves_of_accepted (haccepted : Accepted lib validated properties options) {serialization : Serialization}
    (hfield : AcceptedField lib properties field serialization) (hne : field ≠ .none)
    (hname : field.lowerName ∈ schemaFileConfigs) :
    (ofOptions topic options resolver).Serves validated properties serialization field world := by
  cases serialization with
  | bytes => exact serves_bytes topic resolver world haccepted hne
  | json => exact serves_json topic resolver world haccepted hname
  | avro => exact serves_avro topic resolver world haccepted hfield
  | protobuf => exact serves_protobuf topic resolver world haccepted hfield
  | registry => exact serves_registry topic resolver world haccepted hfield hname
  | string | boolean | integer | long | float | double => exact ⟨_, rfl⟩

/-- Whatever the files hold when a serializer is requested, and whether a resolver is there or not: for
all accepted properties each field gets its serializer without a missing property, but what the client of
the registry asks for. -/
theorem get_serves {key value : Serialization}
    (h : normalizeSerializerOptions lib validated key value properties = .ok options) :
    (ofOptions topic options resolver).Serves validated properties key .key world ∧
      (ofOptions topic options resolver).Serves validated properties value .value world := by
  obtain ⟨haccepted, hkey, hvalue⟩ := normalizeSerializerOptions_returns h
  have hnames : text "key" ∈ schemaFileConfigs ∧ text "value" ∈ schemaFileConfigs := by decide
  exact ⟨serves_of_accepted topic resolver world haccepted hkey nofun hnames.1,
    serves_of_accepted topic resolver world haccepted hvalue nofun hnames.2⟩

def pathLibraries : SchemaLibraries where
  World := Unit
  Moment := ℤ
  ApicurioConfig := Properties
  JsonSchema := Text
  AvroSchema := Text
  DescriptorSet := Text
  MessageClass := Text
  Resolver := Unit
  python := oneTime
  reprText t := text "'" ++ t ++ text "'"
  pathExists _ _ := true
  isDir _ _ := false
  apicurioConfig _ config := .ok config
  loadJsonSchema _ path := .ok path
  loadAvroSchema _ path := .ok path
  compileProtoFile _ path _ := .ok path
  loadDescriptorSet _ path := .ok path
  getMessages descriptorSet := .ok fun messageName => some (descriptorSet ++ messageName)
  avroDocument _ path := .ok (.mk (.avro, path) [])
  jsonDocument _ path := .ok (.mk (.json, path) [])
  protobufDocument _ descriptorSet _ _ := .ok (.mk (.protobuf, descriptorSet) [])
  confluentSchemaResolver _ := .ok ()
  apicurioSchemaResolver _ := .ok ()

def addressLibraries : SchemaLibraries :=
  { pathLibraries with
    confluentSchemaResolver := fun config =>
      if hasProperty config (text "url") then .ok ()
      else .error ⟨.valueError, text "Missing required configuration property url"⟩ }

def addresslessProperties : SerializerProperties where
  registry := [(text "basic.auth.user.info", text "a:b")]
  protobuf := []
  avro := []
  json := []
  bytes := []
  distinct := by decide

/-- Properties are accepted for which the client of the registry misses its address. -/
theorem get_misses_address : ∃ options,
    normalizeSerializerOptions addressLibraries () .registry .string addresslessProperties = .ok options ∧
      (ofOptions (text "orders") options none).get () .registry .key =
        .error ⟨.valueError, text "Missing required configuration property url"⟩ :=
  ⟨⟨addresslessProperties.registry, none, [], [], [], []⟩, rfl, rfl⟩

def registeringProperties : SerializerProperties where
  registry := [(text "provider", text "Apicurio"), (text "apicurio.registry.url", text "http://a"),
    (text "key.apicurio.registry.auto-register", text "true")]
  protobuf := [(text "source", text "a.proto"), (text "key", text "A")]
  avro := [(text "value", text "b.avsc")]
  json := []
  bytes := []
  distinct := by decide

def registeringOptions : SerializerOptions pathLibraries where
  registryConfig := [(text "provider", text "apicurio"), (text "apicurio.registry.url", text "http://a"),
    (text "key.apicurio.registry.auto-register", text "true")]
  apicurioConfig := some
    [(text "provider", text "apicurio"), (text "apicurio.registry.url", text "http://a")]
  protobufConfig := registeringProperties.protobuf
  avroConfig := registeringProperties.avro
  jsonConfig := []
  bytesConfig := []

theorem get_serves_registering :
    (ofOptions (text "orders") registeringOptions none).Serves () registeringProperties .registry .key () ∧
      (ofOptions (text "orders") registeringOptions none).Serves () registeringProperties .avro .value () := by
  have haccepted : normalizeSerializerOptions pathLibraries () .registry .avro registeringProperties =
      .ok registeringOptions := rfl
  exact get_serves (text "orders") none () haccepted

end SerializerPool

end Kaskade
