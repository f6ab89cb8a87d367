import Kaskade.ByteTexts
import Kaskade.Interpreter

/-!
# Deserializers

The vocabulary of `kaskade.deserializers.base`: formats and byte encodings, the metadata
of a registered schema, what a deserializer returns, the exceptions the consumer recovers
from, and the configuration and framing helpers the deserializers share.
-/

namespace Kaskade

open Python

inductive MessageField where
  | none
  | key
  | value
  deriving DecidableEq

namespace MessageField

def name : MessageField → Text
  | .none => text "NONE"
  | .key => text "KEY"
  | .value => text "VALUE"

def lowerName : MessageField → Text
  | .none => text "none"
  | .key => text "key"
  | .value => text "value"

end MessageField

inductive Deserialization where
  | bytes
  | boolean
  | string
  | long
  | integer
  | double
  | float
  | json
  | avro
  | protobuf
  | registry
  deriving DecidableEq

namespace Deserialization

def name : Deserialization → Text
  | .bytes => text "BYTES"
  | .boolean => text "BOOLEAN"
  | .string => text "STRING"
  | .long => text "LONG"
  | .integer => text "INTEGER"
  | .double => text "DOUBLE"
  | .float => text "FLOAT"
  | .json => text "JSON"
  | .avro => text "AVRO"
  | .protobuf => text "PROTOBUF"
  | .registry => text "REGISTRY"

end Deserialization

inductive BytesEncoding where
  | base64
  | hex
  | byteArray
  | escaped
  deriving DecidableEq

namespace BytesEncoding

def name : BytesEncoding → Text
  | .base64 => text "BASE64"
  | .hex => text "HEX"
  | .byteArray => text "BYTE_ARRAY"
  | .escaped => text "ESCAPED"

end BytesEncoding

inductive SchemaType where
  | avro
  | json
  | protobuf
  deriving DecidableEq

namespace SchemaType

def value : SchemaType → Text
  | .avro => text "AVRO"
  | .json => text "JSON"
  | .protobuf => text "PROTOBUF"

end SchemaType

/-- A schema as the Confluent registry lists it: subjects have names and versions count
from one. -/
structure RegistrySchema where
  id : ℕ
  subject : Text
  version : ℕ
  type : SchemaType
  subject_ne : subject ≠ []
  version_pos : 1 ≤ version

inductive IdKind where
  | contentId
  | globalId
  deriving DecidableEq

namespace IdKind

def value : IdKind → Text
  | .contentId => text "CONTENT_ID"
  | .globalId => text "GLOBAL_ID"

end IdKind

/-- The place of an artifact in the Apicurio registry; the resolver leaves none of its
parts empty. -/
structure ApicurioVersion where
  group : Text
  artifact : Text
  version : Text
  group_ne : group ≠ []
  artifact_ne : artifact ≠ []
  version_ne : version ≠ []

/-- A schema in the Apicurio registry; its place is known or not as a whole. -/
structure ApicurioRegistrySchema where
  id : ℕ
  idKind : IdKind
  type : SchemaType
  place : Option ApicurioVersion

/-- `RegistrySchema | ApicurioRegistrySchema`. -/
inductive SchemaMetadata where
  | confluent (schema : RegistrySchema)
  | apicurio (schema : ApicurioRegistrySchema)

section Values

variable {F E : Type}

namespace RegistrySchema

def dict (s : RegistrySchema) : Value F E :=
  .dict [(text "provider", .str (text "CONFLUENT")), (text "id", .int s.id),
    (text "subject", .str s.subject), (text "version", .int s.version),
    (text "type", .str s.type.value)]

end RegistrySchema

namespace ApicurioRegistrySchema

def dict (s : ApicurioRegistrySchema) : Value F E :=
  .dict ([(text "provider", .str (text "APICURIO")), (text "id", .int s.id),
      (text "id_kind", .str s.idKind.value), (text "type", .str s.type.value)] ++
    match s.place with
    | none => []
    | some p => [(text "group", .str p.group), (text "artifact", .str p.artifact),
        (text "version", .str p.version)])

end ApicurioRegistrySchema

namespace SchemaMetadata

def dict : SchemaMetadata → Value F E
  | .confluent s => s.dict
  | .apicurio s => s.dict

end SchemaMetadata

end Values

structure DeserializationResult (F E : Type) where
  content : Value F E
  schema : Option SchemaMetadata

abbrev Deserialize (F E : Type) := Bytes → Option Text → MessageField → Outcome (Value F E)

/-- A deserializer, by its `deserialize_with_metadata`. -/
abbrev Deserializer (F E : Type) :=
  Bytes → Option Text → MessageField → Outcome (DeserializationResult F E)

variable {F E : Type}

/-- The inherited `deserialize_with_metadata`, which has no metadata. -/
def withoutMetadata (deserialize : Deserialize F E) : Deserializer F E :=
  fun data topic context => (deserialize data topic context).map (⟨·, none⟩)

def deserializationExceptions : List ExceptionClass :=
  [.deserializationError, .eofError, .osError, .valueError, .schemaRegistryError,
    .confluentSerializationError, .decodeError, .apicurioRegistryError]

def deserializationError (message : Text) : PyException := ⟨.deserializationError, message⟩

/-- `_deserialize_avro`: an index error becomes a `DeserializationError`. -/
def deserializeAvro {α : Type} (call : Outcome α) : Outcome α :=
  call.tryExcept [.indexError] (fun e => .error (deserializationError e.message))

def requireContext (context : MessageField) : Outcome Unit :=
  if context = .none then .error (deserializationError (text "Context is needed: KEY or VALUE"))
  else .ok ()

def requireField (topic : Option Text) (context : MessageField) : Outcome Text :=
  match topic with
  | none => .error (deserializationError (text "Topic name needed"))
  | some topic => (requireContext context).map (fun _ => topic)

/-- A configuration dictionary, known through `get`. -/
abbrev Config := Text → Option Text

/-- `_scoped_property`: a property of one field overrides the property of both. -/
def scopedProperty (config : Config) (property : Text) (context : MessageField)
    (default : Text) : Text :=
  let own := if context = .none then none else config (context.lowerName ++ text "." ++ property)
  (own.orElse fun _ => config property).getD default

/-- `SCHEMA_REGISTRY_HEADER_SIZE`. -/
def headerSize : ℕ := 5

/-- `SCHEMA_REGISTRY_MAGIC_BYTE`. -/
def magicByte : ℤ := 0

/-- `REGISTRY_HEADER.unpack`: a signed octet and an unsigned big-endian number. -/
def registryHeader (data : Bytes) : Outcome (ℤ × ℕ) :=
  match data.take headerSize with
  | [m, a, b, c, d] =>
    .ok (if m.toNat < 128 then m.toNat else (m.toNat : ℤ) - 256,
      ((a.toNat * 256 + b.toNat) * 256 + c.toNat) * 256 + d.toNat)
  | _ => .error ⟨.structError, text "unpack requires a buffer of 5 bytes"⟩

def hasRegistryHeader (data : Bytes) : Bool :=
  if data.length ≤ headerSize then false
  else
    match registryHeader data with
    | .ok (magic, _) => magic = magicByte
    | .error _ => false

def registryProviders : List Text := [text "apicurio", text "confluent"]

/-- `str.title()` of a provider. -/
def providerTitle (framing : Text) : Text :=
  if framing = text "apicurio" then text "Apicurio" else text "Confluent"

/-- `_payload`: the octets behind the framing that is configured. -/
def payload (data : Bytes) (config : Config) (context : MessageField) (deserializer : Text) :
    Outcome Bytes :=
  let framing := scopedProperty config (text "framing") context (text "raw")
  if framing = text "raw" then .ok data
  else if framing ∈ registryProviders ∧ hasRegistryHeader data then .ok (data.drop headerSize)
  else if framing ∈ registryProviders then
    .error (deserializationError
      (providerTitle framing ++ text " " ++ deserializer ++ text " framing header not found"))
  else
    .error (deserializationError
      (text "Unsupported " ++ deserializer ++ text " framing: " ++ framing))

end Kaskade
