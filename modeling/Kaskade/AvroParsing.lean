import Kaskade.MessageSelection

/-!
# Parsing of Avro schemas

`fastavro.parse_schema` is a parameter: it parses a schema with the named schemas that are known
already and adds those that the schema defines. `parse_avro_schema` parses a content after the
contents of its references.
-/

namespace Kaskade

open Python

/-- Why `parse_schema` fails: a name that is not known, another exception of `fastavro`, or an
exception of Python. -/
inductive ParseFailure where
  | unknownType (name : Text)
  | schemaException (message : Text)
  | raised (e : PyException)

namespace ParseFailure

/-- Whether it is one of `AVRO_SCHEMA_EXCEPTIONS`. -/
def isAvroSchemaException : ParseFailure → Bool
  | .raised e => e.isInstance [.jsonDecodeError, .typeError, .valueError]
  | _ => true

def message : ParseFailure → Text
  | .unknownType name => name
  | .schemaException message => message
  | .raised e => e.message

/-- What is raised where `AVRO_SCHEMA_EXCEPTIONS` become a `SchemaError` that begins with a text. -/
def exception (invalid : Text) (failure : ParseFailure) : PyException :=
  match failure with
  | .raised e =>
    if failure.isAvroSchemaException then schemaError (invalid ++ failure.message) else e
  | _ => schemaError (invalid ++ failure.message)

theorem exception_cases (invalid : Text) (failure : ParseFailure) :
    (∃ message, failure.exception invalid = schemaError (invalid ++ message)) ∨
      (failure.exception invalid).isInstance [.jsonDecodeError, .typeError, .valueError] = false := by
  cases failure with
  | raised e =>
    rw [exception, isAvroSchemaException]
    split_ifs with hinstance
    · exact .inl ⟨_, rfl⟩
    · exact .inr (by simpa using hinstance)
  | _ => exact .inl ⟨_, rfl⟩

end ParseFailure

/-- The definitions of named schemas, of which only the names are looked at here. -/
abbrev NamedSchemas (D : Type) := Text → Option D

def NamedSchemas.update {D : Type} (named other : NamedSchemas D) : NamedSchemas D :=
  fun name => (other name).or (named name)

/-- A schema parser, which returns a parsed schema and the named schemas with those it defines. -/
structure AvroParser (F E D : Type) where
  parseSchema : Value F E → NamedSchemas D → Except ParseFailure (D × NamedSchemas D)

/-- What the documentation says about the names of a schema: those that it uses before it defines
them, in order, and those that it defines. -/
structure AvroParser.Documented {F E D : Type} (parser : AvroParser F E D) where
  needs : Value F E → List Text
  defines : Value F E → List Text
  unknown_first : ∀ {schema named name}, parser.parseSchema schema named = .error (.unknownType name) →
    (needs schema).find? (fun n => (named n).isNone) = some name
  named_of_ok : ∀ {schema named parsed named'}, parser.parseSchema schema named = .ok (parsed, named') →
    ∀ n, (named n).isSome ∨ n ∈ defines schema → (named' n).isSome

namespace AvroParser

variable {F E D : Type} [PyFloat F] (py : Interpreter F E) (parser : AvroParser F E D)

/-- `json.loads` inside the `try` of a parser. -/
def document (content : Text) : Except ParseFailure (Value F E) :=
  match py.loads content with
  | .ok v => .ok v
  | .error e => .error (.raised e)

def parseReferences : List Text → NamedSchemas D → Except ParseFailure (NamedSchemas D)
  | [], named => .ok named
  | reference :: references, named => do
    let (_, named) ← parser.parseSchema (← document py reference) named
    parseReferences references named

def parseAvroSchema (content : Text) (references : List Text) : Outcome D :=
  let parsed : Except ParseFailure D := do
    let named ← parseReferences py parser references fun _ => none
    let (schema, _) ← parser.parseSchema (← document py content) named
    pure schema
  match parsed with
  | .ok schema => .ok schema
  | .error failure => .error (failure.exception (text "Invalid Avro schema: "))

variable {py parser}

theorem document_eq_ok {content : Text} {v : Value F E} :
    document py content = .ok v ↔ py.loads content = .ok v := by
  rw [document]
  cases py.loads content <;> simp

theorem parseReferences_cons {reference : Text} {references : List Text}
    {named named' : NamedSchemas D} :
    parseReferences py parser (reference :: references) named = .ok named' ↔
      ∃ v parsed between, py.loads reference = .ok v ∧
        parser.parseSchema v named = .ok (parsed, between) ∧
        parseReferences py parser references between = .ok named' := by
  rw [parseReferences]
  cases hdocument : document py reference with
  | error failure =>
    simp only [bind, Except.bind, reduceCtorEq, false_iff]
    rintro ⟨v, parsed, between, hv, -⟩
    rw [document_eq_ok.mpr hv] at hdocument
    cases hdocument
  | ok v =>
    rw [document_eq_ok] at hdocument
    simp only [hdocument, bind, Except.bind, Except.ok.injEq]
    cases hparse : parser.parseSchema v named with
    | error failure => simp [hparse]
    | ok result =>
      obtain ⟨parsed, between⟩ := result
      simp [hparse]

/-- What `AVRO_SCHEMA_EXCEPTIONS` names is raised as a `SchemaError` that says so. -/
theorem parseAvroSchema_raises {content : Text} {references : List Text} {e : PyException}
    (h : parseAvroSchema py parser content references = .error e) :
    (∃ message, e = schemaError (text "Invalid Avro schema: " ++ message)) ∨
      e.isInstance [.jsonDecodeError, .typeError, .valueError] = false := by
  rw [parseAvroSchema] at h
  split at h
  · cases h
  next failure _ =>
    obtain rfl := Except.error.inj h
    exact failure.exception_cases (text "Invalid Avro schema: ")

/-- The names that the parsed contents define are known, and so are those that were. -/
theorem Documented.known_of_parseReferences (documented : parser.Documented)
    {references : List Text} {named named' : NamedSchemas D}
    (h : parseReferences py parser references named = .ok named') {name : Text}
    (hname : (named name).isSome ∨ ∃ reference ∈ references, ∃ v,
      py.loads reference = .ok v ∧ name ∈ documented.defines v) : (named' name).isSome := by
  induction references generalizing named with
  | nil =>
    cases h
    simpa using hname
  | cons reference references ih =>
    obtain ⟨v, parsed, between, hv, hparse, hrest⟩ := parseReferences_cons.mp h
    apply ih hrest
    rcases hname with hknown | ⟨r, hr, w, hw, hdefines⟩
    · exact .inl (documented.named_of_ok hparse name (.inl hknown))
    · rcases List.mem_cons.mp hr with rfl | hr
      · obtain rfl : v = w := Except.ok.inj (hv.symm.trans hw)
        exact .inl (documented.named_of_ok hparse name (.inr hdefines))
      · exact .inr ⟨r, hr, w, hw, hdefines⟩

/-- A name that the parser does not know is defined by none of the contents it parsed before. -/
theorem Documented.not_defined_of_unknown (documented : parser.Documented)
    {references : List Text} {named named' : NamedSchemas D} {schema : Value F E} {name : Text}
    (h : parseReferences py parser references named = .ok named')
    (hunknown : parser.parseSchema schema named' = .error (.unknownType name)) :
    ∀ reference ∈ references, ∀ v, py.loads reference = .ok v → name ∉ documented.defines v := by
  intro reference hreference v hv hdefines
  have hknown := documented.known_of_parseReferences h (.inr ⟨reference, hreference, v, hv, hdefines⟩)
  have hnone := List.find?_some (documented.unknown_first hunknown)
  simp [Option.isNone_iff_eq_none.mp hnone] at hknown

def primitiveTypes : List Text :=
  ["null", "boolean", "int", "long", "float", "double", "bytes", "string"].map text

def recordName : Value F E → Option Text
  | .dict items =>
    match Value.getItem? items (text "name") with
    | some (.str name) => some name
    | _ => none
  | _ => none

def usedTypes : Value F E → List Text
  | .str name => [name]
  | .dict items =>
    match Value.getItem? items (text "fields") with
    | some (.list fields) => fields.filterMap fun field =>
      match field with
      | .dict field =>
        match Value.getItem? field (text "type") with
        | some (.str name) => some name
        | _ => none
      | _ => none
    | _ => []
  | _ => []

/-- The named types that a schema uses and does not define. -/
def neededTypes (schema : Value F E) : List Text :=
  (usedTypes schema).filter fun name => name ∉ primitiveTypes ∧ recordName schema ≠ some name

/-- A parser of names and of records whose fields have names as types. -/
def recordParser (F E : Type) : AvroParser F E Unit where
  parseSchema schema named :=
    match (neededTypes schema).find? fun name => (named name).isNone with
    | some name => .error (.unknownType name)
    | none => .ok ((), named.update fun name => if recordName schema = some name then some () else none)

def recordParser_documented (F E : Type) : (recordParser F E).Documented where
  needs := neededTypes
  defines schema := (recordName schema).toList
  unknown_first := by
    intro schema named name h
    simp only [recordParser] at h
    split at h
    · cases h
      assumption
    · cases h
  named_of_ok := by
    intro schema named parsed named' h n hn
    simp only [recordParser] at h
    split at h
    · cases h
    · cases h
      rw [NamedSchemas.update]
      rcases hn with hn | hn
      · simp [Option.isSome_or, hn]
      · rw [Option.mem_toList] at hn
        simp [Option.mem_def.mp hn]

end AvroParser

end Kaskade
