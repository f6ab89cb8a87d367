import Kaskade.JsonSchemas

/-!
# The record contract

The JSON Schema of consumed records, `schemas/consumer-record.schema.json`: one definition
for each of its `$defs`, and the schema of the whole document.
-/

namespace Kaskade.ConsumerRecordSchema

open Python Python.JsonSchema

variable {F E : Type}

def deserializerType : JsonSchema F E :=
  enum [text "BYTES", text "BOOLEAN", text "STRING", text "LONG", text "INTEGER", text "DOUBLE",
    text "FLOAT", text "JSON", text "AVRO", text "PROTOBUF", text "REGISTRY"]

def nonBytesDeserializerType : JsonSchema F E :=
  enum [text "BOOLEAN", text "STRING", text "LONG", text "INTEGER", text "DOUBLE", text "FLOAT",
    text "JSON", text "AVRO", text "PROTOBUF"]

def bytesEncoding : JsonSchema F E :=
  enum [text "BASE64", text "HEX", text "BYTE_ARRAY", text "ESCAPED"]

def schemaType : JsonSchema F E := enum [text "AVRO", text "JSON", text "PROTOBUF"]

def digit : RegularExpression CodePoint := oneOfCodes (codePoints '0' '9')

/-- `[0-9]{4}-[0-9]{2}-[0-9]{2}T[0-9]{2}:[0-9]{2}:[0-9]{2}\.[0-9]{3}Z` -/
def timestampPattern : RegularExpression CodePoint :=
  digit ^ 4 * exactly (text "-") * digit ^ 2 * exactly (text "-") * digit ^ 2 * exactly (text "T")
    * digit ^ 2 * exactly (text ":") * digit ^ 2 * exactly (text ":") * digit ^ 2
    * exactly (text ".") * digit ^ 3 * exactly (text "Z")

/-- `[A-Za-z0-9+/]` -/
def base64Digit : RegularExpression CodePoint :=
  oneOfCodes (codePoints 'A' 'Z' ++ codePoints 'a' 'z' ++ codePoints '0' '9' ++ text "+/")

/-- `(?:[A-Za-z0-9+/]{4})*(?:[A-Za-z0-9+/]{2}==|[A-Za-z0-9+/]{3}=)?` -/
def base64Pattern : RegularExpression CodePoint :=
  .star (base64Digit ^ 4)
    * (base64Digit ^ 2 * exactly (text "==") + base64Digit ^ 3 * exactly (text "=") + 1)

/-- `[0-9a-f]` -/
def lowerHexDigit : RegularExpression CodePoint :=
  oneOfCodes (codePoints '0' '9' ++ codePoints 'a' 'f')

/-- `(?:[0-9a-f]{2})*` -/
def hexPattern : RegularExpression CodePoint := .star (lowerHexDigit ^ 2)

/-- `(?:[\x20-\x5b\x5d-\x7e]|\\\\|\\x[0-9a-f]{2})*` -/
def escapedPattern : RegularExpression CodePoint :=
  .star (oneOfCodes (codePoints ' ' '[' ++ codePoints ']' '~') + exactly (text "\\\\")
    + exactly (text "\\x") * lowerHexDigit ^ 2)

variable [PyFloat F]

def base64Content : JsonSchema F E := allOf [type .string, pattern base64Pattern]

def hexContent : JsonSchema F E := allOf [type .string, pattern hexPattern]

def byteArrayContent : JsonSchema F E :=
  allOf [type .array, items (allOf [type .integer, minimum 0, maximum 255])]

def escapedContent : JsonSchema F E := allOf [type .string, pattern escapedPattern]

def encodedBytes : JsonSchema F E := oneOf [type .string, byteArrayContent]

/-- The content under a name agrees with the encoding that `declares` recognizes. -/
def encodingRules (declares : Text → JsonSchema F E) (name : Text) : JsonSchema F E :=
  allOf [
    ifThen (declares (text "BASE64")) (properties [(name, base64Content)]),
    ifThen (declares (text "HEX")) (properties [(name, hexContent)]),
    ifThen (declares (text "BYTE_ARRAY")) (properties [(name, byteArrayContent)]),
    ifThen (declares (text "ESCAPED")) (properties [(name, escapedContent)])]

def declaresEncoding (encoding : Text) : JsonSchema F E :=
  properties [(text "encoding", const encoding)]

def declaresErrorEncoding (encoding : Text) : JsonSchema F E :=
  properties [(text "error", declaresEncoding encoding)]

def fieldEncodingRules : JsonSchema F E := encodingRules declaresEncoding (text "content")

def errorEncodingRules : JsonSchema F E := encodingRules declaresErrorEncoding (text "content")

def headerErrorEncodingRules : JsonSchema F E := encodingRules declaresErrorEncoding (text "value")

def naturalNumber (least : ℤ) : JsonSchema F E := allOf [type .integer, minimum least]

def nonEmptyString : JsonSchema F E := allOf [type .string, minLength 1]

def confluentSchemaMetadata : JsonSchema F E :=
  object [text "provider", text "id", text "subject", text "version", text "type"]
    [(text "provider", const (text "CONFLUENT")), (text "id", naturalNumber 0),
      (text "subject", nonEmptyString), (text "version", naturalNumber 1),
      (text "type", schemaType)]

def apicurioSchemaMetadata : JsonSchema F E :=
  object [text "provider", text "id", text "id_kind", text "type"]
    [(text "provider", const (text "APICURIO")), (text "id", naturalNumber 0),
      (text "id_kind", enum [text "CONTENT_ID", text "GLOBAL_ID"]),
      (text "group", nonEmptyString), (text "artifact", nonEmptyString),
      (text "version", nonEmptyString), (text "type", schemaType)]

def schemaMetadata : JsonSchema F E := oneOf [confluentSchemaMetadata, apicurioSchemaMetadata]

def errorMetadata : JsonSchema F E :=
  object [text "message", text "fallback", text "encoding"]
    [(text "message", type .string), (text "fallback", const (text "BYTES")),
      (text "encoding", bytesEncoding)]

def nullDeserializedField : JsonSchema F E :=
  object [text "content", text "deserializer"]
    [(text "content", type .null), (text "deserializer", deserializerType)]

def bytesDeserializedField : JsonSchema F E :=
  allOf [
    object [text "content", text "deserializer", text "encoding"]
      [(text "content", encodedBytes), (text "deserializer", const (text "BYTES")),
        (text "encoding", bytesEncoding)],
    fieldEncodingRules]

def nonBytesDeserializedField : JsonSchema F E :=
  object [text "content", text "deserializer"]
    [(text "content", JsonSchema.not (type .null)),
      (text "deserializer", nonBytesDeserializerType)]

def registryDeserializedField : JsonSchema F E :=
  object [text "content", text "deserializer"]
    [(text "content", JsonSchema.not (type .null)), (text "deserializer", const (text "REGISTRY")),
      (text "schema", schemaMetadata)]

def errorDeserializedField : JsonSchema F E :=
  allOf [
    object [text "content", text "deserializer", text "error"]
      [(text "content", encodedBytes), (text "deserializer", deserializerType),
        (text "error", errorMetadata)],
    errorEncodingRules]

def deserializedField : JsonSchema F E :=
  oneOf [nullDeserializedField, bytesDeserializedField, nonBytesDeserializedField,
    registryDeserializedField, errorDeserializedField]

def plainHeader : JsonSchema F E :=
  object [text "key", text "value"]
    [(text "key", type .string), (text "value", fun v => type .string v || type .null v)]

def errorHeader : JsonSchema F E :=
  allOf [
    object [text "key", text "value", text "error"]
      [(text "key", type .string), (text "value", encodedBytes), (text "error", errorMetadata)],
    headerErrorEncodingRules]

def header : JsonSchema F E := oneOf [plainHeader, errorHeader]

def timestamp : JsonSchema F E :=
  oneOf [allOf [type .string, pattern timestampPattern], type .null]

def consumerRecord : JsonSchema F E :=
  object [text "topic", text "partition", text "offset", text "timestamp", text "headers",
      text "key", text "value"]
    [(text "topic", type .string), (text "partition", naturalNumber 0),
      (text "offset", naturalNumber 0), (text "timestamp", timestamp),
      (text "headers", allOf [type .array, items header]),
      (text "key", deserializedField), (text "value", deserializedField)]

end Kaskade.ConsumerRecordSchema
