import Kaskade.Deserializers

/-!
# Registry frames

A registered schema is named by a header of five octets before the body. Two resolvers
write the header, for Confluent and for Apicurio; their deserializers and the framing of
the local formats read it. All readers want at least one octet behind the header, so an
empty body, which Avro has for a null schema, is not read back.
-/

namespace Kaskade

open Python

variable {F E : Type}

/-- What encodes the content of a registered schema. -/
abbrev Encoder (F E : Type) := Value F E → Outcome Bytes

/-- `REGISTRY_HEADER.pack` of the magic byte and a schema ID. -/
def packRegistryHeader (schemaId : ℕ) : Outcome Bytes :=
  if schemaId < 2 ^ 32 then
    .ok [0, byte (schemaId / 2 ^ 24), byte (schemaId / 2 ^ 16 % 256),
      byte (schemaId / 2 ^ 8 % 256), byte (schemaId % 256)]
  else .error ⟨.structError, text "'I' format requires 0 <= number <= 4294967295"⟩

def framed (header : Bytes) (encode : Encoder F E) : Encoder F E :=
  fun content => (encode content).map (header ++ ·)

namespace ConfluentSchemaResolver

/-- What `resolve` leaves to encode content with the schema it found. -/
def encoder (schemaId : ℕ) (encode : Encoder F E) : Outcome (Encoder F E) :=
  (packRegistryHeader schemaId).map fun header => framed header encode

end ConfluentSchemaResolver

/-- The two IDs of an Apicurio version. -/
structure ApicurioIds where
  contentId : ℕ
  globalId : ℕ

namespace ApicurioSchemaResolver

/-- The ID that `resolve` frames with. -/
def schemaId (useContentId : Bool) (version : ApicurioIds) : ℕ :=
  if useContentId then version.contentId else version.globalId

/-- What `resolve` leaves to encode content with the artifact it found. -/
def encoder (useContentId : Bool) (version : ApicurioIds) (encode : Encoder F E) :
    Outcome (Encoder F E) :=
  (packRegistryHeader (schemaId useContentId version)).map fun header => framed header encode

end ApicurioSchemaResolver

/-- `ConfluentRegistryDeserializer._schema`, with the registry's `schema_type`. -/
def confluentSchema (schemaType : ℕ → Outcome SchemaType) (data : Bytes) (topic : Option Text)
    (context : MessageField) : Outcome (Text × ℕ × SchemaType) := do
  let topic ← requireField topic context
  let minimumLength := headerSize + 1
  if data.length < minimumLength then
    .error (deserializationError (text "Expecting data framing of length " ++ natText minimumLength
      ++ text " bytes or more but total data size is " ++ natText data.length
      ++ text " bytes. This message was not produced with a Confluent Schema Registry serializer"))
  else
    let (magic, schemaId) ← registryHeader data
    if magic ≠ magicByte then
      .error (deserializationError (text "Unexpected magic byte " ++ intText magic
        ++ text ". This message was not produced with a Confluent Schema Registry serializer"))
    else
      let found ← schemaType schemaId
      return (topic, schemaId, found)

/-- `ApicurioRegistryDeserializer._artifact`, with the registry's `get_artifact`. -/
def apicurioArtifact {A : Type} (getArtifact : ℕ → Outcome A) (data : Bytes)
    (topic : Option Text) (context : MessageField) : Outcome (Text × A × Bytes) := do
  let topic ← requireField topic context
  if data.length ≤ headerSize then
    .error (deserializationError (text "Expecting Apicurio data framing of length "
      ++ natText (headerSize + 1) ++ text " bytes or more but total data size is "
      ++ natText data.length ++ text " bytes"))
  else
    let (magic, artifactId) ← registryHeader data
    if magic ≠ magicByte then
      .error (deserializationError (text "Unexpected Apicurio magic byte: " ++ intText magic))
    else
      let artifact ← getArtifact artifactId
      return (topic, artifact, data.drop headerSize)

theorem packRegistryHeader_eq_ok {schemaId : ℕ} {header : Bytes}
    (h : packRegistryHeader schemaId = .ok header) : schemaId < 2 ^ 32 ∧ header =
      [0, byte (schemaId / 2 ^ 24), byte (schemaId / 2 ^ 16 % 256),
        byte (schemaId / 2 ^ 8 % 256), byte (schemaId % 256)] := by
  rw [packRegistryHeader] at h
  split_ifs at h with hid
  exact ⟨hid, (Except.ok.inj h).symm⟩

theorem packRegistryHeader_length {schemaId : ℕ} {header : Bytes}
    (h : packRegistryHeader schemaId = .ok header) : header.length = headerSize := by
  rw [(packRegistryHeader_eq_ok h).2]
  rfl

theorem registryHeader_pack {schemaId : ℕ} {header : Bytes}
    (h : packRegistryHeader schemaId = .ok header) (body : Bytes) :
    registryHeader (header ++ body) = .ok (magicByte, schemaId) := by
  obtain ⟨hid, rfl⟩ := packRegistryHeader_eq_ok h
  have htop : (byte (schemaId / 2 ^ 24)).toNat = schemaId / 2 ^ 24 := toNat_byte (by omega)
  have hlow : ∀ n, (byte (n % 256)).toNat = n % 256 := fun n => toNat_byte (by omega)
  have hvalue : ((schemaId / 2 ^ 24 * 256 + schemaId / 2 ^ 16 % 256) * 256 +
      schemaId / 2 ^ 8 % 256) * 256 + schemaId % 256 = schemaId := by omega
  simp only [registryHeader, headerSize, List.cons_append, List.nil_append, List.take_succ_cons,
    List.take_zero, htop, hlow, hvalue]
  rfl

/-- Each reader recovers the ID and the body of a frame. -/
structure RecoversFrame (frame : Bytes) (schemaId : ℕ) (body : Bytes) : Prop where
  confluent : ∀ (schemaType : ℕ → Outcome SchemaType) (topic : Text) (field : MessageField),
    field ≠ .none → confluentSchema schemaType frame (some topic) field =
      (schemaType schemaId).map fun found => (topic, schemaId, found)
  confluent_body : frame.drop headerSize = body
  apicurio : ∀ {A : Type} (getArtifact : ℕ → Outcome A) (topic : Text) (field : MessageField),
    field ≠ .none → apicurioArtifact getArtifact frame (some topic) field =
      (getArtifact schemaId).map fun artifact => (topic, artifact, body)
  header : registryHeader frame = .ok (magicByte, schemaId)
  payload : ∀ (config : Config) (field : MessageField) (deserializer : Text),
    scopedProperty config (text "framing") field (text "raw") ∈ registryProviders →
      payload frame config field deserializer = .ok body

structure RefusesFrame (frame : Bytes) : Prop where
  confluent : ∀ (schemaType : ℕ → Outcome SchemaType) (topic : Text) (field : MessageField),
    field ≠ .none → ∃ message, confluentSchema schemaType frame (some topic) field =
      .error (deserializationError message)
  apicurio : ∀ {A : Type} (getArtifact : ℕ → Outcome A) (topic : Text) (field : MessageField),
    field ≠ .none → ∃ message, apicurioArtifact getArtifact frame (some topic) field =
      .error (deserializationError message)
  payload : ∀ (config : Config) (field : MessageField) (deserializer : Text),
    scopedProperty config (text "framing") field (text "raw") ∈ registryProviders →
      ∃ message, payload frame config field deserializer = .error (deserializationError message)

theorem requireField_some {topic : Text} {field : MessageField} (h : field ≠ .none) :
    requireField (some topic) field = .ok topic := by
  simp [requireField, requireContext, h, Except.map]

theorem raw_notMem_registryProviders : text "raw" ∉ registryProviders := by decide

theorem recoversFrame {schemaId : ℕ} {header body : Bytes}
    (hheader : packRegistryHeader schemaId = .ok header) (hbody : body ≠ []) :
    RecoversFrame (header ++ body) schemaId body := by
  have hread := registryHeader_pack hheader body
  have hlength : (header ++ body).length = headerSize + body.length := by
    rw [List.length_append, packRegistryHeader_length hheader]
  have hpos := List.length_pos_iff.mpr hbody
  have hdrop : (header ++ body).drop headerSize = body := by
    rw [← packRegistryHeader_length hheader, List.drop_left]
  have hhas : hasRegistryHeader (header ++ body) = true := by
    rw [hasRegistryHeader, if_neg (by omega), hread]
    rfl
  constructor
  · intro schemaType topic field hfield
    have hlong : ¬ (header ++ body).length < headerSize + 1 := by omega
    simp only [confluentSchema, requireField_some hfield, bind, Except.bind, if_neg hlong, hread,
      ne_eq, not_true_eq_false, if_false]
    cases schemaType schemaId <;> rfl
  · exact hdrop
  · intro A getArtifact topic field hfield
    have hlong : ¬ (header ++ body).length ≤ headerSize := by omega
    simp only [apicurioArtifact, requireField_some hfield, bind, Except.bind, if_neg hlong, hread,
      ne_eq, not_true_eq_false, if_false, hdrop]
    cases getArtifact schemaId <;> rfl
  · exact hread
  · intro config field deserializer hframing
    have hraw : scopedProperty config (text "framing") field (text "raw") ≠ text "raw" :=
      fun h => raw_notMem_registryProviders (h ▸ hframing)
    simp only [payload, if_neg hraw, hframing, hhas, true_and, if_true, hdrop]

/-- A frame without a body is refused by every reader. -/
theorem refusesFrame {schemaId : ℕ} {header : Bytes}
    (hheader : packRegistryHeader schemaId = .ok header) : RefusesFrame header := by
  have hlength := packRegistryHeader_length hheader
  have hhas : hasRegistryHeader header = false := by
    rw [hasRegistryHeader, if_pos (by omega)]
  constructor
  · intro schemaType topic field hfield
    have hshort : header.length < headerSize + 1 := by omega
    exact ⟨_, by simp only [confluentSchema, requireField_some hfield, bind, Except.bind,
      if_pos hshort]; rfl⟩
  · intro A getArtifact topic field hfield
    have hshort : header.length ≤ headerSize := by omega
    exact ⟨_, by simp only [apicurioArtifact, requireField_some hfield, bind, Except.bind,
      if_pos hshort]; rfl⟩
  · intro config field deserializer hframing
    have hraw : scopedProperty config (text "framing") field (text "raw") ≠ text "raw" :=
      fun h => raw_notMem_registryProviders (h ▸ hframing)
    refine ⟨providerTitle (scopedProperty config (text "framing") field (text "raw")) ++
      text " " ++ deserializer ++ text " framing header not found", ?_⟩
    simp only [payload, if_neg hraw, hframing, hhas, if_true]
    rfl

/-- An encoder that one of the resolvers leaves for a schema ID. -/
def Resolves (schemaId : ℕ) (encode : Encoder F E) (resolved : Outcome (Encoder F E)) : Prop :=
  resolved = ConfluentSchemaResolver.encoder schemaId encode ∨
    ∃ useContentId version, ApicurioSchemaResolver.schemaId useContentId version = schemaId ∧
      resolved = ApicurioSchemaResolver.encoder useContentId version encode

theorem resolves_frame {schemaId : ℕ} (hid : schemaId < 2 ^ 32) {encode : Encoder F E}
    {resolved : Outcome (Encoder F E)} (hresolved : Resolves schemaId encode resolved)
    {content : Value F E} {body : Bytes} (hbody : encode content = .ok body) :
    ∃ encoder header, resolved = .ok encoder ∧ packRegistryHeader schemaId = .ok header ∧
      encoder content = .ok (header ++ body) := by
  have hheader : ∃ header, packRegistryHeader schemaId = .ok header := ⟨_, if_pos hid⟩
  obtain ⟨header, hheader⟩ := hheader
  have hframed : framed header encode content = .ok (header ++ body) := by
    simp [framed, hbody, Except.map]
  refine ⟨framed header encode, header, ?_, hheader, hframed⟩
  rcases hresolved with rfl | ⟨useContentId, version, rfl, rfl⟩
  · simp [ConfluentSchemaResolver.encoder, hheader, Except.map]
  · simp [ApicurioSchemaResolver.encoder, hheader, Except.map]

/-- Whichever resolver wrote a frame, every reader recovers its ID and its body if the body is
not empty, and refuses it otherwise. -/
theorem frame_read_back {schemaId : ℕ} (hid : schemaId < 2 ^ 32) {encode : Encoder F E}
    {resolved : Outcome (Encoder F E)} (hresolved : Resolves schemaId encode resolved)
    {content : Value F E} {body : Bytes} (hbody : encode content = .ok body) :
    ∃ encoder frame, resolved = .ok encoder ∧ encoder content = .ok frame ∧
      (body ≠ [] → RecoversFrame frame schemaId body) ∧ (body = [] → RefusesFrame frame) := by
  obtain ⟨encoder, header, hencoder, hheader, hframe⟩ := resolves_frame hid hresolved hbody
  refine ⟨encoder, header ++ body, hencoder, hframe, recoversFrame hheader, ?_⟩
  rintro rfl
  rw [List.append_nil]
  exact refusesFrame hheader

def encodeOptionalBoolean : Encoder FloatRepr Empty
  | .bool b => .ok [if b then 1 else 0]
  | .null => .ok []
  | _ => .error (deserializationError (text "Expected a boolean or null"))

theorem boolean_frame_read_back :
    ∃ encoder frame, ConfluentSchemaResolver.encoder 7 encodeOptionalBoolean = .ok encoder ∧
      encoder (.bool true) = .ok frame ∧ RecoversFrame frame 7 [1] := by
  obtain ⟨encoder, frame, hencoder, hframe, hrecovers, -⟩ :=
    frame_read_back (by decide) (Or.inl rfl : Resolves 7 encodeOptionalBoolean _)
      (rfl : encodeOptionalBoolean (.bool true) = .ok [1])
  exact ⟨encoder, frame, hencoder, hframe, hrecovers (by decide)⟩

/-- The frame of an Avro null is its header, which no reader accepts. -/
theorem null_frame_refused :
    ∃ encoder, ConfluentSchemaResolver.encoder 7 encodeOptionalBoolean = .ok encoder ∧
      encoder .null = .ok [0, 0, 0, 0, 7] ∧ RefusesFrame [0, 0, 0, 0, 7] :=
  ⟨_, rfl, rfl, refusesFrame (rfl : packRegistryHeader 7 = .ok [0, 0, 0, 0, 7])⟩

end Kaskade
