import Kaskade.Deserializers

/-!
# Primitive and local deserializers

The deserializers of `kaskade.deserializers.primitives`, the JSON and Avro deserializers of
`kaskade.deserializers.local`, and the pool that picks one for a format. Schema validators
and the Avro reader are parameters.
-/

namespace Kaskade

open Python

variable {F E : Type}

def defaultDeserializer : Deserialize F E := fun data _ _ => .ok (.bytes data)

def stringDeserializer (py : Interpreter F E) : Deserialize F E :=
  fun data _ _ => (py.decodeUtf8 data).map .str

/-- `StructDeserializer` of one value in so many octets. -/
def structDeserializer (size : ℕ) (unpack : Bytes → Value F E) : Deserialize F E :=
  fun data _ _ =>
    Outcome.tryExcept
      (if data.length = size then .ok (unpack data)
        else .error ⟨.structError, text "unpack requires a buffer of " ++ natText size ++ text " bytes"⟩)
      [.structError] (fun e => .error (deserializationError e.message))

def unpackInt (data : Bytes) : ℤ :=
  let n : ℤ := data.foldl (fun acc b => acc * 256 + b.toNat) 0
  if n < 2 ^ (8 * data.length - 1) then n else n - 2 ^ (8 * data.length)

def booleanDeserializer : Deserialize F E :=
  structDeserializer 1 (fun data => .bool (data ≠ [0]))

def integerDeserializer : Deserialize F E := structDeserializer 4 (fun data => .int (unpackInt data))

def longDeserializer : Deserialize F E := structDeserializer 8 (fun data => .int (unpackInt data))

section Floats

variable [PyFloat F]

def floatDeserializer : Deserialize F E :=
  structDeserializer 4 (fun data => .float (PyFloat.unpack data))

def doubleDeserializer : Deserialize F E :=
  structDeserializer 8 (fun data => .float (PyFloat.unpack data))

end Floats

/-- What `describe` asks of a `ValidationError`: its path, its rule, what the schema says there, and
what was found. -/
structure Violation (F E : Type) where
  jsonPath : Text
  validator : Option Text
  validatorValue : Value F E
  instanceValue : Value F E

inductive ValidatorFailure where
  | unresolvable (ref : Text)
  | raised (e : PyException)

/-- `best_match(validator.iter_errors(content))` with the JSON Schema of a field. -/
abbrev SchemaValidator (F E : Type) :=
  Value F E → Except ValidatorFailure (Option (Violation F E))

section Describing

variable [PyFloat F] (py : Interpreter F E)

omit [PyFloat F] in
/-- The items that `for name in value` goes through. -/
def Interpreter.iterate : Value F E → Outcome (List (Value F E))
  | .list items => .ok items
  | .dict entries => .ok (entries.map fun kv => .str kv.1)
  | .str t => .ok (t.map fun c => .str [c])
  | .bytes data => .ok (data.map fun b => .int b.toNat)
  | _ => .error ⟨.typeError, py.limitMessage .typeError⟩

omit [PyFloat F] in
/-- `name not in entries` of a dictionary. -/
def Interpreter.missesKey (entries : List (Text × Value F E)) : Value F E → Outcome Bool
  | .str name => .ok (entries.all (·.1 ≠ name))
  | .list _ | .dict _ => .error ⟨.typeError, py.limitMessage .typeError⟩
  | _ => .ok true

def describe (error : Violation F E) : Outcome Text := do
  let reason ← match error.validator, error.validatorValue, error.instanceValue with
    | none, _, _ => pure (text "is not allowed")
    | some rule, expected, found =>
      if rule = text "type" then do
        let types := match expected with
          | .list names => names
          | name => [name]
        let names ← types.mapM py.strOf
        pure (text "expected type " ++ List.intercalate (text " or ") names)
      else
        match decide (rule = text "required"), found, expected with
        | true, .dict entries, _ => do
          let names ← py.iterate expected
          let missing ← names.filterM (py.missesKey entries)
          let shown ← missing.mapM py.strOf
          pure (text "missing required property " ++ List.intercalate (text ", ") shown)
        | _, _, .bool _ | _, _, .int _ | _, _, .float _ | _, _, .str _ => do
          let shown ← py.dumps .readable false expected
          pure (text "fails " ++ rule ++ text " " ++ shown)
        | _, _, _ => pure (text "fails " ++ rule)
  pure (error.jsonPath ++ text " " ++ reason)

end Describing

/-- `validation_error` with the JSON Schema of a field. -/
abbrev Validator (F E : Type) := Value F E → Outcome (Option Text)

def validationError [PyFloat F] (py : Interpreter F E) (validator : SchemaValidator F E) :
    Validator F E := fun content =>
  match validator content with
  | .error (.unresolvable ref) =>
    .error ⟨.schemaError, text "Unresolvable JSON Schema reference: " ++ ref⟩
  | .error (.raised e) => .error e
  | .ok none => .ok none
  | .ok (some error) => do
    let description ← describe py error
    return some (text "JSON Schema validation failed: " ++ description)

def jsonDeserializer [PyFloat F] (py : Interpreter F E) (config : Config)
    (validators : MessageField → Option (Validator F E)) : Deserialize F E :=
  fun data _ context => do
    let body ← payload data config context (text "JSON")
    let content ← py.loadsBytes body
    match validators context with
    | none => .ok content
    | some validationError =>
      match ← validationError content with
      | none => .ok content
      | some message => .error (deserializationError message)

/-- What the Avro deserializer uses of `fastavro`, for parsed schemas `S`. -/
structure AvroReader (F E S : Type) where
  loadSchema : Text → Outcome S
  schemalessReader : Bytes → S → Outcome (Value F E)

def avroDeserializer {S : Type} (fastavro : AvroReader F E S) (config : Config) : Deserialize F E :=
  fun data _ context => do
    requireContext context
    match if context = .key then config (text "key") else config (text "value") with
    | none => .error (deserializationError
        (text "Avro schema was not provided for context " ++ context.name))
    | some path =>
      let body ← payload data config context (text "Avro")
      let schema ← fastavro.loadSchema path
      deserializeAvro (fastavro.schemalessReader body schema)

/-- The deserializers that need a configuration; the others are fixed. -/
structure DeserializerPool (F E : Type) where
  registryDeserializer : Option (Deserializer F E)
  protobufDeserializer : Option (Deserialize F E)
  avroDeserializer : Option (Deserialize F E)
  jsonDeserializer : Deserialize F E

namespace DeserializerPool

def configured {α : Type} (name : Text) : Option α → Outcome α
  | some d => .ok d
  | none => .error (deserializationError (name ++ text " is not configured"))

def get [PyFloat F] (py : Interpreter F E) (pool : DeserializerPool F E) :
    Deserialization → Outcome (Deserializer F E)
  | .bytes => .ok (withoutMetadata defaultDeserializer)
  | .string => .ok (withoutMetadata (stringDeserializer py))
  | .json => .ok (withoutMetadata pool.jsonDeserializer)
  | .integer => .ok (withoutMetadata integerDeserializer)
  | .long => .ok (withoutMetadata longDeserializer)
  | .double => .ok (withoutMetadata doubleDeserializer)
  | .float => .ok (withoutMetadata floatDeserializer)
  | .boolean => .ok (withoutMetadata booleanDeserializer)
  | .registry => configured (text "Schema Registry") pool.registryDeserializer
  | .avro => (configured (text "Avro") pool.avroDeserializer).map withoutMetadata
  | .protobuf => (configured (text "Protobuf") pool.protobufDeserializer).map withoutMetadata

end DeserializerPool

/-- What the pool supplies for a format: the format `BYTES` always passes octets through,
and only the format `REGISTRY` adds metadata. -/
def Supplies (format : Deserialization) (d : Deserializer F E) : Prop :=
  match format with
  | .bytes => d = withoutMetadata defaultDeserializer
  | .registry => True
  | _ => ∃ deserialize, d = withoutMetadata deserialize

theorem supplies_bytes :
    Supplies .bytes (withoutMetadata (defaultDeserializer : Deserialize F E)) := rfl

theorem DeserializerPool.get_supplies [PyFloat F] {py : Interpreter F E}
    {pool : DeserializerPool F E} {format : Deserialization} {d : Deserializer F E}
    (h : pool.get py format = .ok d) : Supplies format d := by
  cases format with
  | bytes => exact (Except.ok.inj h).symm
  | registry => trivial
  | avro =>
    cases hd : pool.avroDeserializer with
    | none => simp [get, configured, hd, Except.map] at h
    | some deserialize => exact ⟨deserialize, by simpa [get, configured, hd, Except.map] using h.symm⟩
  | protobuf =>
    cases hd : pool.protobufDeserializer with
    | none => simp [get, configured, hd, Except.map] at h
    | some deserialize => exact ⟨deserialize, by simpa [get, configured, hd, Except.map] using h.symm⟩
  | _ => exact ⟨_, (Except.ok.inj h).symm⟩

end Kaskade
