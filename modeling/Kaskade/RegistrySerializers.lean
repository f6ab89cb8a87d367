import Kaskade.BoundedSteps
import Kaskade.SchemaRegistration
import Kaskade.Serializers

/-!
# Registry serializers

`RegistrySerializer`, which asks a resolver for the schema of its field again and again, and the
`resolve` of the two resolvers: a schema is found in the registry or registered, and frames what it
encodes with its ID. What the registries answer in one call are parameters.
-/

namespace Kaskade

open Python Registration

variable {F E : Type}

/-- All of a `SchemaSelection`. -/
structure FieldSelection extends SchemaSelection where
  schemaId : Option ℤ := none
  version : Option Text := none
  protobufMessage : Option Text := none
  autoRegister : Bool := false

/-- The arguments of `resolve`. -/
structure LookupCall where
  topic : Text
  field : MessageField
  selection : FieldSelection
  document : Option SchemaDocument

structure SchemaSummary where
  name : Text
  version : Text
  id : ℤ
  type : Text

structure ResolvedSchema (F E : Type) where
  summary : SchemaSummary
  encode : Encoder F E

/-- `REGISTRY_HEADER.pack` of the magic byte and an integer. -/
def packSchemaId : ℤ → Outcome Bytes
  | .ofNat schemaId => packRegistryHeader schemaId
  | .negSucc _ => .error ⟨.structError, text "'I' format requires 0 <= number <= 4294967295"⟩

/-- `_with_prefix`. -/
def withIndexes (indexes : Bytes) (encode : Encoder F E) : Encoder F E :=
  fun content => (encode content).map (indexes ++ ·)

/-- The end of `resolve`, for both resolvers. -/
def frameWith : SchemaSummary × Encoder F E → Outcome (ResolvedSchema F E)
  | (summary, encode) => (packSchemaId summary.id).map fun header => ⟨summary, framed header encode⟩

/-- The encoders that a registry's schemas become, with the octets before a Protobuf message. -/
structure SchemaEncoders (κ F E : Type) where
  avro : κ → Outcome (Encoder F E)
  json : κ → Outcome (Encoder F E)
  protobuf : κ → Option Text → Outcome (Bytes × Encoder F E)

def SchemaEncoders.encoder {κ : Type} (encoders : SchemaEncoders κ F E) (schema : κ)
    (schemaType : SchemaType) (selection : FieldSelection) : Outcome (Encoder F E) :=
  match schemaType with
  | .avro => encoders.avro schema
  | .json => encoders.json schema
  | .protobuf => (encoders.protobuf schema selection.protobufMessage).map fun
      (indexes, encode) => withIndexes indexes encode

namespace ConfluentSchemaResolver

/-- What a registry answers in one call of `resolve`, after earlier ones. -/
structure Answers (F E : Type) where
  client : Client
  earlier : List ResolveCall
  /-- The schema ID, which a registry may leave out, and the version. -/
  getLatestVersion : Text → Outcome (Option ℤ × ℤ)
  getSchemaVersions : ℤ → Outcome (List (Text × ℤ))
  schemaType : ℤ → Outcome SchemaType
  encoders : SchemaEncoders ℤ F E

/-- `_register` in this call. -/
def Answers.register (answers : Answers F E) (subject : Text) (document : SchemaDocument)
    (normalize : Bool) : Outcome (ℤ × ℤ) :=
  (ConfluentSchemaResolver.register answers.client
    ((answers.earlier.foldl (resolve answers.client) {}).append .call) subject document normalize).1

def versionOf (registrations : List (Text × ℤ)) (subject : Text) : Text :=
  match registrations.find? (·.1 = subject) with
  | some (_, version) => intText version
  | none => text "—"

/-- The ID and the version of the schema that `resolve` chooses. -/
def chosen (answers : Answers F E) (call : LookupCall) : Outcome (ℤ × Text) :=
  let subject := subject call.topic call.field
  match call.document, call.selection.schemaId with
  | some document, _ =>
    (answers.register subject document call.selection.normalize).map fun (schemaId, version) =>
      (schemaId, intText version)
  | none, none => do
    let (schemaId, version) ← answers.getLatestVersion subject
    match schemaId with
    | none => .error ⟨.schemaError, text "Subject " ++ subject ++ text " has no schema ID"⟩
    | some schemaId => return (schemaId, intText version)
  | none, some schemaId =>
    (answers.getSchemaVersions schemaId).map fun registrations =>
      (schemaId, versionOf registrations subject)

def readChosen (answers : Answers F E) (call : LookupCall) (schemaId : ℤ) :
    Outcome (SchemaType × Encoder F E) := do
  let schemaType ← answers.schemaType schemaId
  let encode ← answers.encoders.encoder schemaId schemaType call.selection
  return (schemaType, encode)

/-- `resolve`, up to the header. -/
def find (answers : Answers F E) (call : LookupCall) : Outcome (SchemaSummary × Encoder F E) := do
  let (schemaId, version) ← chosen answers call
  let (schemaType, encode) ← readChosen answers call schemaId
  return (⟨subject call.topic call.field, version, schemaId, schemaType.value⟩, encode)

end ConfluentSchemaResolver

namespace ApicurioSchemaResolver

/-- What a registry answers in one call of `resolve`, after earlier ones. -/
structure Answers (F E A : Type) where
  client : Client
  earlier : List ResolveCall
  /-- Whether records are framed with content IDs. -/
  useContentId : Bool
  getVersion : Text → Text → Text → Except Failure CreatedVersion
  /-- The artifact with an ID, and its type. -/
  getArtifact : ℕ → Outcome (A × SchemaType)
  encoders : SchemaEncoders A F E

variable {A : Type}

/-- `_register` in this call. -/
def Answers.register (answers : Answers F E A) (group artifactId : Text)
    (document : SchemaDocument) : Outcome CreatedVersion :=
  (ApicurioSchemaResolver.register answers.client
    ((answers.earlier.foldl (resolve answers.client) {}).append .call) group artifactId document).1

/-- `a or b` of two texts. -/
def orElse (a : Option Text) (b : Text) : Text :=
  match a with
  | some (c :: t) => c :: t
  | _ => b

def artifactName (group artifactId : Text) : Text :=
  if group = text "default" then artifactId else group ++ text "/" ++ artifactId

def versionOf (answers : Answers F E A) (selection : FieldSelection) (artifactId name : Text) :
    Outcome CreatedVersion :=
  match answers.getVersion selection.group artifactId
      (orElse selection.version (text "branch=latest")) with
  | .ok version => .ok version
  | .error (e, status) =>
    if e.isInstance [.apicurioRegistryError] ∧ status = some 404 then
      .error ⟨.schemaError, text "Apicurio artifact " ++ name ++ text " has no such version"⟩
    else .error e

/-- The version that `resolve` chooses. -/
def chosen (answers : Answers F E A) (call : LookupCall) (artifactId : Text) :
    Outcome CreatedVersion :=
  match call.document with
  | some document => answers.register call.selection.group artifactId document
  | none =>
    versionOf answers call.selection artifactId (artifactName call.selection.group artifactId)

/-- `selection.artifact or _subject(topic, field)`. -/
def artifactOf (call : LookupCall) : Text :=
  orElse call.selection.artifact (subject call.topic call.field)

def readChosen (answers : Answers F E A) (call : LookupCall) (version : CreatedVersion) :
    Outcome (SchemaType × Encoder F E) := do
  let (artifact, artifactType) ← answers.getArtifact (schemaId answers.useContentId version.ids)
  let encode ← answers.encoders.encoder artifact artifactType call.selection
  return (artifactType, encode)

/-- `resolve`, up to the header. -/
def find (answers : Answers F E A) (call : LookupCall) :
    Outcome (SchemaSummary × Encoder F E) := do
  let name := artifactName call.selection.group (artifactOf call)
  let version ← chosen answers call (artifactOf call)
  let (artifactType, encode) ← readChosen answers call version
  return (⟨name, version.version, schemaId answers.useContentId version.ids, artifactType.value⟩, encode)

end ApicurioSchemaResolver

/-- `SchemaResolver`, with what its registry answers in one call. -/
inductive SchemaResolver (F E A : Type) where
  | confluent (answers : ConfluentSchemaResolver.Answers F E)
  | apicurio (answers : ApicurioSchemaResolver.Answers F E A)

namespace SchemaResolver

variable {A : Type}

/-- What `resolve` finds, up to the header. -/
def find (resolver : SchemaResolver F E A) (call : LookupCall) :
    Outcome (SchemaSummary × Encoder F E) :=
  match resolver with
  | confluent answers => ConfluentSchemaResolver.find answers call
  | apicurio answers => ApicurioSchemaResolver.find answers call

def resolve (resolver : SchemaResolver F E A) (call : LookupCall) : Outcome (ResolvedSchema F E) :=
  resolver.find call >>= frameWith

end SchemaResolver

def registryExceptions : List ExceptionClass :=
  [.schemaRegistryError, .httpError, .osError, .valueError]

/-- What a `RegistrySerializer` remembers between calls. -/
structure RegistrySerializer (F E : Type) where
  resolved : Option (ResolvedSchema F E) := none
  problem : Option Text := none

/-- `registry_problem`, with the `http_status_code` of exceptions. -/
def registryProblem (httpStatusCode : PyException → ℤ) (e : PyException) (registering : Bool) :
    Text :=
  if e.isInstance [.schemaRegistryError] then
    text "Schema Registry error: " ++ e.message ++
      if registering ∧ (httpStatusCode e = 401 ∨ httpStatusCode e = 403) then
        text "; registering needs write access to the subject"
      else []
  else
    text "Schema " ++ text (if registering then "registration" else "lookup") ++ text " failed: "
      ++ e.message

namespace RegistrySerializer

variable {A : Type} (httpStatusCode : PyException → ℤ) (call : LookupCall)

def resolve (resolver : SchemaResolver F E A) (serializer : RegistrySerializer F E) :
    Outcome Unit × RegistrySerializer F E :=
  match resolver.resolve call with
  | .ok resolved => (.ok (), { resolved := some resolved, problem := none })
  | .error e =>
    if e.isInstance registryExceptions then
      (.ok (), { serializer with
        problem := some (registryProblem httpStatusCode e call.document.isSome) })
    else (.error e, serializer)

/-- `problem or pending`. -/
def missingSchema (serializer : RegistrySerializer F E) : PyException :=
  let pending := text (if call.document.isSome then "Registering the schema"
    else "Looking up the schema")
  match serializer.problem with
  | some (c :: problem) => serializationError (c :: problem)
  | _ => serializationError pending

def serialize [PyFloat F] (py : Interpreter F E) (serializer : RegistrySerializer F E)
    (t : Text) : Outcome Bytes := do
  let content ← parseJson py t
  match serializer.resolved with
  | none => .error (missingSchema call serializer)
  | some resolved => resolved.encode content

/-- One call of `resolve` after another; the first that raises ends them. -/
def resolveAll (serializer : RegistrySerializer F E) :
    List (SchemaResolver F E A) → Outcome Unit × RegistrySerializer F E
  | [] => (.ok (), serializer)
  | resolver :: resolvers =>
    match serializer.resolve httpStatusCode call resolver with
    | (.ok (), next) => resolveAll next resolvers
    | (.error e, next) => (.error e, next)

end RegistrySerializer

/-- An exception of `REGISTRY_EXCEPTIONS`. -/
def Expected (e : PyException) : Prop := e.isInstance registryExceptions

theorem expected_schemaError (message : Text) : Expected ⟨.schemaError, message⟩ := rfl

/-- The outcome of a request: a result that meets a condition, or an expected failure. -/
abbrev Answers {α : Type} (P : α → Prop) (outcome : Outcome α) : Prop := Satisfies P Expected outcome

/-- A call that goes on with what a request has answered fails as expected just when all that it goes
on with does. -/
theorem expected_bind_iff {A B C : Type} {P : A → Prop} {request : Outcome A} {next : A → Outcome B}
    {result : A → B → C} (h : Answers P request) :
    (∀ e, (do let a ← request; let b ← next a; return result a b) = .error e → Expected e) ↔
      ∀ a, request = .ok a → ∀ e, next a = .error e → Expected e := by
  cases request with
  | error e =>
    refine iff_of_true ?_ (by simp)
    rintro _ ⟨⟩
    exact h.error e rfl
  | ok a =>
    simp only [Except.ok.injEq, forall_eq', bind, Except.bind]
    cases next a with
    | error e => simp
    | ok b => simp [pure, Except.pure]

namespace ConfluentSchemaResolver

/-- The requests of a registry are answered with positive schema IDs, or fail as expected. -/
structure Answers.Expected (answers : Answers F E) : Prop where
  register : ∀ history submission,
    Kaskade.Answers (fun result => ∀ schemaId, result.1 = some schemaId → 0 < schemaId)
      (answers.client.registerSchemaFullResponse history submission)
  lookupSchema : ∀ history submission,
    Kaskade.Answers (fun _ => True) (answers.client.lookupSchema history submission)
  latest : ∀ subject,
    Kaskade.Answers (fun result => ∀ schemaId, result.1 = some schemaId → 0 < schemaId)
      (answers.getLatestVersion subject)
  versions : ∀ schemaId, Kaskade.Answers (fun _ => True) (answers.getSchemaVersions schemaId)

def ReadsChosen (answers : Answers F E) (call : LookupCall) : Prop :=
  ∀ result, chosen answers call = .ok result →
    ∀ e, readChosen answers call result.1 = .error e → Kaskade.Expected e

variable {answers : Answers F E}

theorem submit_expected (h : answers.Expected) (history : History) (submission : SchemaSubmission) :
    Kaskade.Answers (fun result => 0 < result.1) (submit answers.client history submission) := by
  refine (h.register history submission).bind fun response hid => ?_
  obtain ⟨schemaId, registered⟩ := response
  cases schemaId with
  | none =>
    cases registered with
    | some version => exact .of_error (expected_schemaError _)
    | none =>
      exact (h.lookupSchema history submission).bind fun _ _ => .of_error (expected_schemaError _)
  | some schemaId =>
    cases registered with
    | some version => exact .of_ok (hid schemaId rfl)
    | none =>
      refine (h.lookupSchema history submission).bind fun version _ => ?_
      cases version with
      | none => exact .of_error (expected_schemaError _)
      | some version => exact .of_ok (hid schemaId rfl)

/-- What was registered before has positive IDs, too. -/
theorem register_expected (h : answers.Expected) (subject : Text) (document : SchemaDocument)
    (normalize : Bool) :
    Kaskade.Answers (fun result => 0 < result.1) (answers.register subject document normalize) := by
  have hbefore := (registrar answers.client).remembers_calls (submit_expected h)
    (answers.earlier.map fun call => call.document.map fun document =>
      (call.selection.normalize, Kaskade.subject call.topic call.field, document))
  rw [Registrar.calls, List.foldl_map] at hbefore
  simp only [← resolve_eq] at hbefore
  exact (Registrar.register_satisfies (submit_expected h) (Registrar.remembers_call hbefore)
    document (Prod.eta _).symm).2

theorem chosen_expected (h : answers.Expected) {call : LookupCall}
    (hcall : ∀ schemaId, call.selection.schemaId = some schemaId → 0 < schemaId) :
    Kaskade.Answers (fun result => 0 < result.1) (chosen answers call) := by
  rw [chosen]
  cases call.document with
  | some document => exact (register_expected h _ document _).map fun _ hid => hid
  | none =>
    cases hid : call.selection.schemaId with
    | some schemaId => exact (h.versions schemaId).map fun _ _ => hcall schemaId hid
    | none =>
      refine (h.latest _).bind fun (schemaId, version) hid => ?_
      cases schemaId with
      | none => exact .of_error (expected_schemaError _)
      | some schemaId => exact .of_ok (hid schemaId rfl)

/-- A lookup fails as expected, or finds a positive ID, if the chosen schema can be read. -/
theorem find_expected (h : answers.Expected) {call : LookupCall}
    (hcall : ∀ schemaId, call.selection.schemaId = some schemaId → 0 < schemaId) :
    (∀ found, find answers call = .ok found → 0 < found.1.id) ∧
      ((∀ e, find answers call = .error e → Expected e) ↔ ReadsChosen answers call) := by
  have hchosen := chosen_expected h hcall
  refine ⟨fun found hfind => ?_, expected_bind_iff hchosen⟩
  obtain ⟨result, hresult, hfind⟩ := bind_eq_ok.mp hfind
  obtain ⟨_, -, hfind⟩ := bind_eq_ok.mp hfind
  obtain rfl := Except.ok.inj hfind
  exact hchosen.ok result hresult

end ConfluentSchemaResolver

namespace ApicurioSchemaResolver

variable {A : Type}

def Positive (version : CreatedVersion) : Prop := 0 < version.ids.contentId ∧ 0 < version.ids.globalId

/-- The requests of a registry are answered with positive content and global IDs, or fail as
expected. -/
structure Answers.Expected (answers : Answers F E A) : Prop where
  createVersion : ∀ history submission,
    Satisfies Positive (fun e => Kaskade.Expected e.1) (answers.client.createVersion history submission)
  getVersion : ∀ group artifact version,
    Satisfies Positive (fun e => Kaskade.Expected e.1) (answers.getVersion group artifact version)

def ReadsChosen (answers : Answers F E A) (call : LookupCall) : Prop :=
  ∀ version, chosen answers call (artifactOf call) = .ok version →
    ∀ e, readChosen answers call version = .error e → Kaskade.Expected e

variable {answers : Answers F E A}

theorem submit_expected (h : answers.Expected) (history : History)
    (submission : ArtifactSubmission) :
    Kaskade.Answers Positive (submit answers.client history submission) := by
  have hcreated := h.createVersion history submission
  rw [submit]
  cases hcreate : answers.client.createVersion history submission with
  | ok version => exact .of_ok (hcreated.ok version hcreate)
  | error e =>
    dsimp only
    split_ifs
    · exact .of_error (expected_schemaError _)
    · exact .of_error (hcreated.error e hcreate)

theorem register_expected (h : answers.Expected) (group artifactId : Text)
    (document : SchemaDocument) :
    Kaskade.Answers Positive (answers.register group artifactId document) := by
  have hbefore := (registrar answers.client).remembers_calls (submit_expected h)
    (answers.earlier.map fun call => call.document.map fun document =>
      ((), (call.selection.group, ApicurioSchemaResolver.artifactId call), document))
  rw [Registrar.calls, List.foldl_map] at hbefore
  simp only [← resolve_eq] at hbefore
  exact (Registrar.register_satisfies (submit_expected h) (Registrar.remembers_call hbefore)
    document (Prod.eta _).symm).2

theorem versionOf_expected (h : answers.Expected) (selection : FieldSelection)
    (artifactId name : Text) :
    Kaskade.Answers Positive (versionOf answers selection artifactId name) := by
  have hgot := h.getVersion selection.group artifactId
    (orElse selection.version (text "branch=latest"))
  rw [versionOf]
  cases hget : answers.getVersion selection.group artifactId
      (orElse selection.version (text "branch=latest")) with
  | ok version => exact .of_ok (hgot.ok version hget)
  | error e =>
    dsimp only
    split_ifs
    · exact .of_error (expected_schemaError _)
    · exact .of_error (hgot.error e hget)

theorem chosen_expected (h : answers.Expected) (call : LookupCall) (artifactId : Text) :
    Kaskade.Answers Positive (chosen answers call artifactId) := by
  rw [chosen]
  cases call.document with
  | some document => exact register_expected h _ _ document
  | none => exact versionOf_expected h _ _ _

theorem schemaId_pos {useContentId : Bool} {version : CreatedVersion} (h : Positive version) :
    0 < schemaId useContentId version.ids := by
  rw [schemaId]
  split_ifs
  · exact h.1
  · exact h.2

/-- A lookup fails as expected, or finds a positive ID, if the chosen version can be read. -/
theorem find_expected (h : answers.Expected) (call : LookupCall) :
    (∀ found, find answers call = .ok found → 0 < found.1.id) ∧
      ((∀ e, find answers call = .error e → Expected e) ↔ ReadsChosen answers call) := by
  have hchosen := chosen_expected h call (artifactOf call)
  refine ⟨fun found hfind => ?_, expected_bind_iff hchosen⟩
  obtain ⟨version, hversion, hfind⟩ := bind_eq_ok.mp hfind
  obtain ⟨_, -, hfind⟩ := bind_eq_ok.mp hfind
  obtain rfl := Except.ok.inj hfind
  exact Int.natCast_pos.mpr (schemaId_pos (hchosen.ok version hversion))

end ApicurioSchemaResolver

namespace SchemaResolver

variable {A : Type}

/-- The requests of a resolver are answered with positive schema IDs, or fail as expected. -/
def Documented (call : LookupCall) : SchemaResolver F E A → Prop
  | confluent answers =>
    answers.Expected ∧ ∀ schemaId, call.selection.schemaId = some schemaId → 0 < schemaId
  | apicurio answers => answers.Expected

/-- Reading the schema that a resolver has chosen fails as expected, if at all. -/
def ReadsChosen (call : LookupCall) : SchemaResolver F E A → Prop
  | confluent answers => ConfluentSchemaResolver.ReadsChosen answers call
  | apicurio answers => ApicurioSchemaResolver.ReadsChosen answers call

theorem find_expected {resolver : SchemaResolver F E A} {call : LookupCall}
    (h : resolver.Documented call) :
    (∀ found, resolver.find call = .ok found → 0 < found.1.id) ∧
      ((∀ e, resolver.find call = .error e → Expected e) ↔ resolver.ReadsChosen call) := by
  cases resolver with
  | confluent answers => exact ConfluentSchemaResolver.find_expected h.1 h.2
  | apicurio answers => exact ApicurioSchemaResolver.find_expected h call

end SchemaResolver

theorem frameWith_small {found : SchemaSummary × Encoder F E} (hpos : 0 < found.1.id)
    (hsmall : found.1.id < 2 ^ 32) : ∃ header, frameWith found =
        .ok ⟨found.1, framed header found.2⟩ ∧
      registryHeader header = .ok (magicByte, found.1.id.toNat) := by
  obtain ⟨⟨name, version, id, type⟩, encode⟩ := found
  obtain ⟨schemaId, rfl⟩ := Int.eq_ofNat_of_zero_le hpos.le
  have hid : schemaId < 2 ^ 32 := Int.ofNat_lt.mp hsmall
  obtain ⟨header, hheader⟩ : ∃ header, packRegistryHeader schemaId = .ok header := ⟨_, if_pos hid⟩
  refine ⟨header, ?_, by simpa using registryHeader_pack hheader []⟩
  change (packRegistryHeader schemaId).map _ = _
  rw [hheader]
  rfl

theorem frameWith_large {found : SchemaSummary × Encoder F E} (hpos : 0 < found.1.id)
    (hlarge : ¬ found.1.id < 2 ^ 32) :
    ∃ message, frameWith found = .error ⟨.structError, message⟩ := by
  obtain ⟨⟨name, version, id, type⟩, encode⟩ := found
  obtain ⟨schemaId, rfl⟩ := Int.eq_ofNat_of_zero_le hpos.le
  have hid : ¬ schemaId < 2 ^ 32 := fun h => hlarge (Int.ofNat_lt.mpr h)
  change ∃ message, (packRegistryHeader schemaId).map _ = _
  rw [packRegistryHeader, if_neg hid]
  exact ⟨_, rfl⟩

namespace RegistrySerializer

variable {A : Type} {httpStatusCode : PyException → ℤ} {call : LookupCall}

/-- The found schema is installed, with a header that reads as its ID, and there is no problem. -/
def Installs (found : SchemaSummary × Encoder F E) (serializer : RegistrySerializer F E) : Prop :=
  ∃ header, registryHeader header = .ok (magicByte, found.1.id.toNat) ∧
    serializer = { resolved := some ⟨found.1, framed header found.2⟩, problem := none }

/-- A call that finds a schema whose ID fits into the header. -/
theorem resolve_small (httpStatusCode : PyException → ℤ) {resolver : SchemaResolver F E A}
    {found : SchemaSummary × Encoder F E}
    (hfind : resolver.find call = .ok found) (hpos : 0 < found.1.id) (hsmall : found.1.id < 2 ^ 32)
    (serializer : RegistrySerializer F E) :
    ∃ next, serializer.resolve httpStatusCode call resolver = (.ok (), next) ∧
      Installs found next := by
  obtain ⟨header, hframe, hheader⟩ := frameWith_small hpos hsmall
  have hresolve : resolver.resolve call = .ok ⟨found.1, framed header found.2⟩ := by
    rw [SchemaResolver.resolve, hfind]
    exact hframe
  refine ⟨_, ?_, header, hheader, rfl⟩
  rw [resolve, hresolve]

/-- A call that finds a schema whose ID does not fit raises `struct.error`, which is no
`ValueError`. -/
theorem resolve_large (httpStatusCode : PyException → ℤ) {resolver : SchemaResolver F E A}
    {found : SchemaSummary × Encoder F E}
    (hfind : resolver.find call = .ok found) (hpos : 0 < found.1.id)
    (hlarge : ¬ found.1.id < 2 ^ 32) (serializer : RegistrySerializer F E) :
    ∃ e, serializer.resolve httpStatusCode call resolver = (.error e, serializer) := by
  obtain ⟨message, hframe⟩ := frameWith_large hpos hlarge
  have hresolve : resolver.resolve call = .error ⟨.structError, message⟩ := by
    rw [SchemaResolver.resolve, hfind]
    exact hframe
  refine ⟨⟨.structError, message⟩, ?_⟩
  rw [resolve, hresolve]
  rfl

theorem resolve_failed {resolver : SchemaResolver F E A} {e : PyException}
    (hfind : resolver.find call = .error e) (he : Expected e)
    (serializer : RegistrySerializer F E) :
    serializer.resolve httpStatusCode call resolver = (.ok (), { serializer with
      problem := some (registryProblem httpStatusCode e call.document.isSome) }) := by
  have hresolve : resolver.resolve call = .error e := by
    rw [SchemaResolver.resolve, hfind]
    rfl
  rw [resolve, hresolve]
  exact if_pos he

def lastFound (call : LookupCall) (resolvers : List (SchemaResolver F E A)) :
    Option (SchemaSummary × Encoder F E) :=
  resolvers.foldl (fun last resolver => (resolver.find call).toOption.or last) none

theorem lastFound_concat (call : LookupCall) (before : List (SchemaResolver F E A))
    (resolver : SchemaResolver F E A) : lastFound call (before ++ [resolver]) =
      (resolver.find call).toOption.or (lastFound call before) := by
  rw [lastFound, List.foldl_append]
  rfl

variable (httpStatusCode call) in
def run (resolvers : List (SchemaResolver F E A)) : Outcome Unit × RegistrySerializer F E :=
  ({} : RegistrySerializer F E).resolveAll httpStatusCode call resolvers

theorem resolveAll_concat (serializer : RegistrySerializer F E)
    (before : List (SchemaResolver F E A)) (resolver : SchemaResolver F E A) :
    serializer.resolveAll httpStatusCode call (before ++ [resolver]) =
      match serializer.resolveAll httpStatusCode call before with
      | (.ok (), next) => next.resolve httpStatusCode call resolver
      | (.error e, next) => (.error e, next) := by
  induction before generalizing serializer with
  | nil =>
    simp only [List.nil_append, resolveAll]
    split <;> simp_all
  | cons first before ih =>
    simp only [List.cons_append, resolveAll]
    cases serializer.resolve httpStatusCode call first with
    | mk outcome next =>
      cases outcome with
      | ok _ => exact ih next
      | error e => rfl

theorem run_concat {before : List (SchemaResolver F E A)} {resolver : SchemaResolver F E A}
    (hbefore : (run httpStatusCode call before).1 = .ok ()) :
    run httpStatusCode call (before ++ [resolver]) =
      (run httpStatusCode call before).2.resolve httpStatusCode call resolver := by
  have hpair : run httpStatusCode call before = (.ok (), (run httpStatusCode call before).2) :=
    Prod.ext hbefore rfl
  rw [run, resolveAll_concat, ← run, hpair]

theorem run_ok_before {before : List (SchemaResolver F E A)} {resolver : SchemaResolver F E A}
    (h : (run httpStatusCode call (before ++ [resolver])).1 = .ok ()) :
    (run httpStatusCode call before).1 = .ok () := by
  rw [run] at h ⊢
  rw [resolveAll_concat] at h
  cases hrun : ({} : RegistrySerializer F E).resolveAll httpStatusCode call before with
  | mk outcome next =>
    cases outcome with
    | ok _ => rfl
    | error e => simp [hrun] at h

/-- The chosen schema can be read, and one that was found fits into the header. -/
def Fits (call : LookupCall) (resolver : SchemaResolver F E A) : Prop :=
  resolver.ReadsChosen call ∧ ∀ found, resolver.find call = .ok found → found.1.id < 2 ^ 32

/-- A call whose lookup fails otherwise raises. -/
theorem resolve_unexpected {resolver : SchemaResolver F E A} {e : PyException}
    (hfind : resolver.find call = .error e) (he : ¬ Expected e)
    (serializer : RegistrySerializer F E) :
    serializer.resolve httpStatusCode call resolver = (.error e, serializer) := by
  have hresolve : resolver.resolve call = .error e := by
    rw [SchemaResolver.resolve, hfind]
    rfl
  rw [resolve, hresolve]
  exact if_neg he

/-- A run that does not raise has found only schemas that fit. -/
theorem fits_of_run {resolvers : List (SchemaResolver F E A)}
    (hdoc : ∀ resolver ∈ resolvers, resolver.Documented call)
    (hrun : (run httpStatusCode call resolvers).1 = .ok ()) :
    ∀ resolver ∈ resolvers, Fits call resolver := by
  induction resolvers using List.reverseRecOn with
  | nil => simp
  | append_singleton before last ih =>
    have hbefore := run_ok_before hrun
    intro resolver hmem
    rcases List.mem_append.mp hmem with hold | hlast
    · exact ih (fun r hr => hdoc r (List.mem_append_left _ hr)) hbefore resolver hold
    · obtain rfl := List.mem_singleton.mp hlast
      obtain ⟨hpos, hreads⟩ := SchemaResolver.find_expected (hdoc resolver hmem)
      rw [run_concat hbefore] at hrun
      refine ⟨hreads.mp fun e hfind => ?_, fun found hfind => ?_⟩
      · by_contra hunexpected
        rw [resolve_unexpected hfind hunexpected] at hrun
        cases hrun
      · by_contra hlarge
        obtain ⟨e, he⟩ := resolve_large httpStatusCode hfind (hpos found hfind) hlarge
          (run httpStatusCode call before).2
        rw [he] at hrun
        cases hrun

/-- The last schema that was found is installed. -/
def Shows (last : Option (SchemaSummary × Encoder F E)) (serializer : RegistrySerializer F E) :
    Prop :=
  match last with
  | none => serializer.resolved = none
  | some found => ∃ header, registryHeader header = .ok (magicByte, found.1.id.toNat) ∧
      serializer.resolved = some ⟨found.1, framed header found.2⟩

/-- What one call does after a run of calls whose schemas fit. -/
theorem run_step {before : List (SchemaResolver F E A)} {resolver : SchemaResolver F E A}
    (hdoc : resolver.Documented call) (hfits : Fits call resolver)
    (hbefore : (run httpStatusCode call before).1 = .ok ()) :
    ∃ next, run httpStatusCode call (before ++ [resolver]) = (.ok (), next) ∧
      (∀ found, resolver.find call = .ok found → Installs found next) ∧
      ∀ e, resolver.find call = .error e → next.problem.isSome ∧
        next.resolved = (run httpStatusCode call before).2.resolved := by
  rw [run_concat hbefore]
  obtain ⟨hpos, hreads⟩ := SchemaResolver.find_expected hdoc
  cases hfind : resolver.find call with
  | ok found =>
    obtain ⟨next, hnext, hinstalls⟩ := resolve_small httpStatusCode hfind
      (hpos found hfind) (hfits.2 found hfind) (run httpStatusCode call before).2
    refine ⟨next, hnext, fun other hother => ?_, nofun⟩
    obtain rfl := Except.ok.inj hother
    exact hinstalls
  | error e =>
    exact ⟨_, resolve_failed hfind (hreads.mpr hfits.1 e hfind) _, nofun, fun _ _ => ⟨rfl, rfl⟩⟩

theorem run_of_fits {resolvers : List (SchemaResolver F E A)}
    (hdoc : ∀ resolver ∈ resolvers, resolver.Documented call)
    (hfits : ∀ resolver ∈ resolvers, Fits call resolver) :
    (run httpStatusCode call resolvers).1 = .ok () ∧
      Shows (lastFound call resolvers) (run httpStatusCode call resolvers).2 := by
  induction resolvers using List.reverseRecOn with
  | nil => exact ⟨rfl, rfl⟩
  | append_singleton before last ih =>
    have hlast := List.mem_append_right before (List.mem_singleton_self last)
    obtain ⟨hbefore, hshows⟩ := ih (fun r hr => hdoc r (List.mem_append_left _ hr))
      fun r hr => hfits r (List.mem_append_left _ hr)
    obtain ⟨next, hnext, hinstalls, hkeeps⟩ := run_step (hdoc last hlast) (hfits last hlast) hbefore
    rw [hnext, lastFound_concat]
    refine ⟨rfl, ?_⟩
    cases hfind : last.find call with
    | ok found =>
      obtain ⟨header, hheader, rfl⟩ := hinstalls found hfind
      exact ⟨header, hheader, rfl⟩
    | error e =>
      have hresolved := (hkeeps e hfind).2
      change Shows (lastFound call before) next
      cases hfound : lastFound call before with
      | none =>
        rw [hfound] at hshows
        exact hresolved.trans hshows
      | some found =>
        rw [hfound] at hshows
        obtain ⟨header, hheader, hinstalled⟩ := hshows
        exact ⟨header, hheader, hresolved.trans hinstalled⟩

variable [PyFloat F] (py : Interpreter F E)

variable (httpStatusCode call) in
/-- What is asked of a run of calls, after each part of it. -/
structure Survives (resolvers : List (SchemaResolver F E A)) : Prop where
  /-- No call raises. -/
  returns : (run httpStatusCode call resolvers).1 = .ok ()
  /-- A call that finds a schema installs it, -/
  installs : ∀ before resolver found, before ++ [resolver] <+: resolvers →
    resolver.find call = .ok found →
    Installs found (run httpStatusCode call (before ++ [resolver])).2
  /-- and another call records a problem and keeps the schema. -/
  keeps : ∀ before resolver e, before ++ [resolver] <+: resolvers → resolver.find call = .error e →
    (run httpStatusCode call (before ++ [resolver])).2.problem.isSome ∧
      (run httpStatusCode call (before ++ [resolver])).2.resolved =
        (run httpStatusCode call before).2.resolved
  /-- As long as no schema was found, content is refused, -/
  refuses : ∀ before, before <+: resolvers → lastFound call before = none →
    ∀ t content, parseJson py t = .ok content →
      (run httpStatusCode call before).2.serialize call py t =
        .error (missingSchema call (run httpStatusCode call before).2)
  /-- and then it is encoded with the last schema and its header. -/
  serializes : ∀ before found, before <+: resolvers → lastFound call before = some found →
    ∃ header, registryHeader header = .ok (magicByte, found.1.id.toNat) ∧
      ∀ t content, parseJson py t = .ok content →
        (run httpStatusCode call before).2.serialize call py t = framed header found.2 content

/-- A `RegistrySerializer` survives every order of failures and schemas exactly if reading the chosen
schemas only fails as expected, and the IDs of those that are found fit into the header. -/
theorem survives_iff {resolvers : List (SchemaResolver F E A)}
    (hdoc : ∀ resolver ∈ resolvers, resolver.Documented call) :
    Survives httpStatusCode call py resolvers ↔ ∀ resolver ∈ resolvers,
      resolver.ReadsChosen call ∧
        ∀ found, resolver.find call = .ok found → found.1.id < 2 ^ 32 := by
  constructor
  · intro h
    exact fits_of_run hdoc h.returns
  · intro hfits
    have hpart : ∀ before, before <+: resolvers → (run httpStatusCode call before).1 = .ok () ∧
        Shows (lastFound call before) (run httpStatusCode call before).2 :=
      fun before hbefore => run_of_fits (fun r hr => hdoc r (hbefore.subset hr))
        fun r hr => hfits r (hbefore.subset hr)
    have hstep : ∀ before resolver, before ++ [resolver] <+: resolvers →
        ∃ next, run httpStatusCode call (before ++ [resolver]) = (.ok (), next) ∧
          (∀ found, resolver.find call = .ok found → Installs found next) ∧
          ∀ e, resolver.find call = .error e → next.problem.isSome ∧
            next.resolved = (run httpStatusCode call before).2.resolved := by
      intro before resolver hinitial
      have hmem := hinitial.subset (List.mem_append_right before (List.mem_singleton_self resolver))
      exact run_step (hdoc resolver hmem) (hfits resolver hmem)
        (hpart before ((List.prefix_append _ _).trans hinitial)).1
    refine ⟨(hpart resolvers List.prefix_rfl).1, ?_, ?_, ?_, ?_⟩
    · intro before resolver found hinitial hfind
      obtain ⟨next, hnext, hinstalls, -⟩ := hstep before resolver hinitial
      rw [hnext]
      exact hinstalls found hfind
    · intro before resolver e hinitial hfind
      obtain ⟨next, hnext, -, hkeeps⟩ := hstep before resolver hinitial
      rw [hnext]
      exact hkeeps e hfind
    · intro before hinitial hnone t content hparse
      have hshows := (hpart before hinitial).2
      rw [hnone] at hshows
      have hresolved : (run httpStatusCode call before).2.resolved = none := hshows
      simp only [serialize, hparse, bind, Except.bind, hresolved]
    · intro before found hinitial hsome
      have hshows := (hpart before hinitial).2
      rw [hsome] at hshows
      obtain ⟨header, hheader, hresolved⟩ := hshows
      refine ⟨header, hheader, fun t content hparse => ?_⟩
      simp only [serialize, hparse, bind, Except.bind, hresolved]

/-- An Apicurio registry that has one version of every artifact, a JSON Schema that accepts
everything, under one content ID. -/
def artifactWith (id : ℕ) : ApicurioSchemaResolver.Answers FloatRepr Empty Unit where
  client := ⟨fun _ _ => .error (⟨.apicurioRegistryError, text "Apicurio request failed"⟩, none)⟩
  earlier := []
  useContentId := true
  getVersion group artifact version := .ok ⟨group, artifact, version, ⟨id, 1⟩⟩
  getArtifact _ := .ok ((), .json)
  encoders := {
    avro := fun _ => .error ⟨.schemaError, text "Invalid Avro schema"⟩
    json := fun _ => .ok (compactJson Interpreter.plain)
    protobuf := fun _ _ => .error ⟨.schemaError, text "Invalid Protobuf schema"⟩ }

theorem artifactWith_expected {id : ℕ} (h : 0 < id) : (artifactWith id).Expected where
  createVersion _ _ := .of_error rfl
  getVersion _ _ _ := .of_ok ⟨h, Nat.one_pos⟩

def latestValue : LookupCall where
  topic := text "orders"
  field := .value
  selection := {}
  document := none

theorem survives_seven :
    Survives (fun _ => 0) latestValue Interpreter.plain [.apicurio (artifactWith 7)] := by
  have hdoc : ∀ resolver ∈ [SchemaResolver.apicurio (artifactWith 7)],
      resolver.Documented latestValue := by
    rintro _ (_ | ⟨_, ⟨⟩⟩)
    exact artifactWith_expected (by decide)
  refine (survives_iff Interpreter.plain hdoc).mpr ?_
  rintro _ (_ | ⟨_, ⟨⟩⟩)
  refine ⟨?_, fun found hfind => ?_⟩
  · rintro version ⟨⟩
    exact nofun
  · obtain rfl := Except.ok.inj hfind
    decide

/-- The content ID 2^32 is one that Apicurio can give, and that the header cannot hold. -/
theorem not_survives_large :
    (∀ resolver ∈ [SchemaResolver.apicurio (artifactWith (2 ^ 32))],
      resolver.Documented latestValue) ∧
    ¬ Survives (fun _ => 0) latestValue Interpreter.plain [.apicurio (artifactWith (2 ^ 32))] := by
  have hdoc : ∀ resolver ∈ [SchemaResolver.apicurio (artifactWith (2 ^ 32))],
      resolver.Documented latestValue := by
    rintro _ (_ | ⟨_, ⟨⟩⟩)
    exact artifactWith_expected (by decide)
  refine ⟨hdoc, fun h => ?_⟩
  have hfits := (fits_of_run hdoc h.returns _ (List.mem_singleton_self _)).2 _ rfl
  exact absurd hfits (by decide)

end RegistrySerializer

end Kaskade
