import Kaskade.Registrations
import Kaskade.RegistryFraming

/-!
# Registration of local schemas

`_register` of the two resolvers. A resolver is asked to resolve the schemas of both fields, again
after each failure, and registers local schemas with all the documents that they reference. The
clients of the registries are parameters: an answer may depend on everything that was sent before.
-/

namespace Kaskade

open Python Registration

/-- `SchemaDocument`: its type, its content and its `DocumentReference`s. -/
abbrev SchemaDocument := Document Text (SchemaType × Text)

/-- What a selection says about registration. -/
structure SchemaSelection where
  group : Text := text "default"
  artifact : Option Text := none
  normalize : Bool := false

/-- The arguments of `resolve`. -/
structure ResolveCall where
  topic : Text
  field : MessageField
  selection : SchemaSelection
  document : Option SchemaDocument

def subject (topic : Text) (field : MessageField) : Text :=
  topic ++ text "-" ++ field.lowerName

structure SchemaReference where
  name : Text
  subject : Text
  version : ℤ

structure Schema where
  content : Text
  type : Text
  references : List SchemaReference

/-- The arguments of `register_schema_full_response`. -/
structure SchemaSubmission where
  subject : Text
  schema : Schema
  normalize : Bool

namespace ConfluentSchemaResolver

/-- What was sent to a registry: subjects have schemas with IDs and versions. -/
abbrev History := List (Event Text Text (SchemaType × Text) SchemaSubmission (ℤ × ℤ) PyException)

/-- The answers of a registry, each after what was sent before. -/
structure Client where
  /-- The schema ID and the version, which a registry may leave out. -/
  registerSchemaFullResponse : History → SchemaSubmission → Outcome (Option ℤ × Option ℤ)
  lookupSchema : History → SchemaSubmission → Outcome (Option ℤ)

/-- The schema of a document whose references were registered with these IDs and versions. -/
def schema (document : SchemaDocument) (results : List (ℤ × ℤ)) : Schema where
  content := document.content.2
  type := document.content.1.value
  references := List.zipWith
    (fun reference result => ⟨reference.1, reference.1, result.2⟩) document.references results

/-- The end of `_register`, from the request on. -/
def submit (client : Client) (history : History) (submission : SchemaSubmission) :
    Outcome (ℤ × ℤ) := do
  let (schemaId, registeredVersion) ← client.registerSchemaFullResponse history submission
  let version ← match registeredVersion with
    | some version => pure (some version)
    | none => client.lookupSchema history submission
  match schemaId, version with
  | some schemaId, some version => .ok (schemaId, version)
  | _, _ => .error ⟨.schemaError,
      text "Schema Registry returned no ID or version for " ++ submission.subject⟩

/-- `_register` makes the name of a reference its subject, and hands `normalize` on. -/
def registrar (client : Client) :
    Registrar Bool Text Text (SchemaType × Text) SchemaSubmission (ℤ × ℤ) PyException where
  child := fun _ name => name
  request := fun normalize subject document results => ⟨subject, schema document results, normalize⟩
  answer := submit client

abbrev Registered := State Text Text (SchemaType × Text) SchemaSubmission (ℤ × ℤ) PyException

def register (client : Client) (registered : Registered) (subject : Text) (document : SchemaDocument)
    (normalize : Bool) : Outcome (ℤ × ℤ) × Registered :=
  (registrar client).register normalize registered subject document

/-- What `resolve` registers; what it asks the registry afterwards changes no registration. -/
def resolve (client : Client) (registered : Registered) (call : ResolveCall) : Registered :=
  match call.document with
  | some document =>
    (register client (registered.append .call) (subject call.topic call.field) document
      call.selection.normalize).2
  | none => registered.append .call

theorem resolve_eq (client : Client) (registered : Registered) (call : ResolveCall) :
    resolve client registered call =
      ((registrar client).call registered (call.document.map fun document =>
        (call.selection.normalize, subject call.topic call.field, document))).2 := by
  rw [resolve]
  cases call.document <;> rfl

end ConfluentSchemaResolver

structure ApicurioReference where
  name : Text
  group : Text
  artifact : Text
  version : Text

/-- `ApicurioVersion`, as `create_version` returns it. -/
structure CreatedVersion where
  group : Text
  artifact : Text
  version : Text
  ids : ApicurioIds

/-- The arguments of `create_version`. -/
structure ArtifactSubmission where
  group : Text
  artifact : Text
  type : Text
  content : Text
  references : List ApicurioReference

namespace ApicurioSchemaResolver

/-- What was sent to a registry: groups have artifacts with versions. -/
abbrev History :=
  List (Event (Text × Text) Text (SchemaType × Text) ArtifactSubmission CreatedVersion PyException)

/-- An exception, with the HTTP status of its cause. -/
abbrev Failure := PyException × Option ℕ

/-- The answers of a registry, each after what was sent before. -/
structure Client where
  createVersion : History → ArtifactSubmission → Except Failure CreatedVersion

/-- The references of a document whose references were registered as these versions. -/
def references (group : Text) (document : SchemaDocument) (results : List CreatedVersion) :
    List ApicurioReference :=
  List.zipWith (fun reference result => ⟨reference.1, group, reference.1, result.version⟩)
    document.references results

/-- The end of `_register`, from the request on. -/
def submit (client : Client) (history : History) (submission : ArtifactSubmission) :
    Outcome CreatedVersion :=
  match client.createVersion history submission with
  | .ok version => .ok version
  | .error (e, status) =>
    if e.isInstance [.apicurioRegistryError] ∧ (status = some 401 ∨ status = some 403) then
      .error ⟨.schemaError, text "Apicurio refused to register " ++ submission.artifact ++
        text "; registering needs write access"⟩
    else .error e

/-- `_register` makes the name of a reference its artifact, in the same group. -/
def registrar (client : Client) :
    Registrar Unit (Text × Text) Text (SchemaType × Text) ArtifactSubmission CreatedVersion
      PyException where
  child := fun (group, _) name => (group, name)
  request := fun _ (group, artifact) document results =>
    ⟨group, artifact, document.content.1.value, document.content.2,
      references group document results⟩
  answer := submit client

abbrev Registered :=
  State (Text × Text) Text (SchemaType × Text) ArtifactSubmission CreatedVersion PyException

def register (client : Client) (registered : Registered) (group artifactId : Text)
    (document : SchemaDocument) : Outcome CreatedVersion × Registered :=
  (registrar client).register () registered (group, artifactId) document

/-- `selection.artifact or _subject(topic, field)`. -/
def artifactId (call : ResolveCall) : Text :=
  match call.selection.artifact with
  | some (c :: artifact) => c :: artifact
  | _ => subject call.topic call.field

/-- What `resolve` registers; what it asks the registry afterwards changes no registration. -/
def resolve (client : Client) (registered : Registered) (call : ResolveCall) : Registered :=
  match call.document with
  | some document =>
    (register client (registered.append .call) call.selection.group (artifactId call) document).2
  | none => registered.append .call

theorem resolve_eq (client : Client) (registered : Registered) (call : ResolveCall) :
    resolve client registered call =
      ((registrar client).call registered (call.document.map fun document =>
        ((), (call.selection.group, artifactId call), document))).2 := by
  rw [resolve]
  cases call.document <;> rfl

end ApicurioSchemaResolver

namespace ConfluentSchemaResolver

/-- What a request for a document carries: the document under its subject, and each reference under
its name as subject, with the version that was returned for it before. -/
structure Carries (before : History) (subject : Text) (document : SchemaDocument)
    (submission : SchemaSubmission) : Prop where
  subject_eq : submission.subject = subject
  content_eq : submission.schema.content = document.content.2
  type_eq : submission.schema.type = document.content.1.value
  references : List.Forall₂
    (fun reference sent => sent.name = reference.1 ∧ sent.subject = reference.1 ∧
      ∃ submission' id, .sent reference.1 reference.2 submission' (.ok (id, sent.version)) ∈ before)
    document.references submission.schema.references

theorem carries {client : Client} {registered : Registered} (h : (registrar client).Sound registered)
    {before after : History} {subject : Text} {document : SchemaDocument}
    {submission : SchemaSubmission} {answer : Outcome (ℤ × ℤ)}
    (hlog : registered.log = before ++ .sent subject document submission answer :: after) :
    Carries before subject document submission := by
  obtain ⟨normalize, results, rfl, hreferences⟩ := h.referencesFirst _ _ _ _ _ _ hlog
  refine ⟨rfl, rfl, rfl, (Registrar.forall₂_zipWith _ hreferences).imp ?_⟩
  rintro reference _ ⟨⟨id, version⟩, ⟨submission', hsent⟩, rfl⟩
  exact ⟨rfl, rfl, submission', id, hsent⟩

end ConfluentSchemaResolver

namespace ApicurioSchemaResolver

/-- What a request for a document carries: the document as its artifact, and each reference under
its name as an artifact of the same group, with the version that was returned for it before. -/
structure Carries (before : History) (group artifact : Text) (document : SchemaDocument)
    (submission : ArtifactSubmission) : Prop where
  group_eq : submission.group = group
  artifact_eq : submission.artifact = artifact
  type_eq : submission.type = document.content.1.value
  content_eq : submission.content = document.content.2
  references : List.Forall₂
    (fun reference sent => sent.name = reference.1 ∧ sent.group = group ∧ sent.artifact = reference.1 ∧
      ∃ submission' created, .sent (group, reference.1) reference.2 submission' (.ok created) ∈ before ∧
        sent.version = created.version)
    document.references submission.references

theorem carries {client : Client} {registered : Registered} (h : (registrar client).Sound registered)
    {before after : History} {group artifact : Text} {document : SchemaDocument}
    {submission : ArtifactSubmission} {answer : Outcome CreatedVersion}
    (hlog : registered.log = before ++ .sent (group, artifact) document submission answer :: after) :
    Carries before group artifact document submission := by
  obtain ⟨_, results, rfl, hreferences⟩ := h.referencesFirst _ _ _ _ _ _ hlog
  refine ⟨rfl, rfl, rfl, rfl, (Registrar.forall₂_zipWith _ hreferences).imp ?_⟩
  rintro reference _ ⟨created, ⟨submission', hsent⟩, rfl⟩
  exact ⟨rfl, rfl, rfl, submission', created, hsent, rfl⟩

end ApicurioSchemaResolver

theorem sound_resolves :
    (∀ (client : ConfluentSchemaResolver.Client) (calls : List ResolveCall),
      (ConfluentSchemaResolver.registrar client).Sound
        (calls.foldl (ConfluentSchemaResolver.resolve client) {})) ∧
    (∀ (client : ApicurioSchemaResolver.Client) (calls : List ResolveCall),
      (ApicurioSchemaResolver.registrar client).Sound
        (calls.foldl (ApicurioSchemaResolver.resolve client) {})) := by
  constructor
  · intro client calls
    have h := (ConfluentSchemaResolver.registrar client).sound_calls (calls.map fun call =>
      call.document.map fun document =>
        (call.selection.normalize, subject call.topic call.field, document))
    rw [Registrar.calls, List.foldl_map] at h
    simpa only [← ConfluentSchemaResolver.resolve_eq] using h
  · intro client calls
    have h := (ApicurioSchemaResolver.registrar client).sound_calls (calls.map fun call =>
      call.document.map fun document =>
        ((), (call.selection.group, ApicurioSchemaResolver.artifactId call), document))
    rw [Registrar.calls, List.foldl_map] at h
    simpa only [← ApicurioSchemaResolver.resolve_eq] using h

/-- Whatever the registries answer to any calls of `resolve`: documents are sent after their
references and with the versions that were returned for these, completed registrations are not
sent again, and a failure ends the requests of its call and leaves what was completed. -/
theorem registrations_sound :
    (∀ (client : ConfluentSchemaResolver.Client) (calls : List ResolveCall) registered,
      registered = calls.foldl (ConfluentSchemaResolver.resolve client) {} →
        (ConfluentSchemaResolver.registrar client).Sound registered ∧
        ∀ before after subject document submission answer,
          registered.log = before ++ .sent subject document submission answer :: after →
            ConfluentSchemaResolver.Carries before subject document submission) ∧
    (∀ (client : ApicurioSchemaResolver.Client) (calls : List ResolveCall) registered,
      registered = calls.foldl (ApicurioSchemaResolver.resolve client) {} →
        (ApicurioSchemaResolver.registrar client).Sound registered ∧
        ∀ before after group artifact document submission answer,
          registered.log = before ++ .sent (group, artifact) document submission answer :: after →
            ApicurioSchemaResolver.Carries before group artifact document submission) := by
  constructor
  · rintro client calls _ rfl
    have hsound := sound_resolves.1 client calls
    exact ⟨hsound, fun _ _ _ _ _ _ => ConfluentSchemaResolver.carries hsound⟩
  · rintro client calls _ rfl
    have hsound := sound_resolves.2 client calls
    exact ⟨hsound, fun _ _ _ _ _ _ _ => ApicurioSchemaResolver.carries hsound⟩

def customerDocument : SchemaDocument := .mk (.avro, text "customer schema") []

def orderDocument : SchemaDocument :=
  .mk (.avro, text "order schema") [(text "Customer", customerDocument)]

def numberingClient : ConfluentSchemaResolver.Client where
  registerSchemaFullResponse history _ := .ok (some 7, some history.length)
  lookupSchema _ _ := .ok none

/-- The customer is sent as the second event, so its version is one. -/
theorem registrations_sound_referencing :
    ∃ before submission answer,
      (ConfluentSchemaResolver.resolve numberingClient {}
        ⟨text "orders", .value, {}, some orderDocument⟩).log =
          before ++ [.sent (text "orders-value") orderDocument submission answer] ∧
      (submission.schema.references.map fun sent => (sent.name, sent.version)) =
        [(text "Customer", 1)] ∧
      ConfluentSchemaResolver.Carries before (text "orders-value") orderDocument submission := by
  refine ⟨[.call, .sent (text "Customer") customerDocument
      ⟨text "Customer", ⟨text "customer schema", text "AVRO", []⟩, false⟩ (.ok (7, 1))], _, _, rfl,
    rfl, ?_⟩
  exact (registrations_sound.1 numberingClient
    [⟨text "orders", .value, {}, some orderDocument⟩] _ rfl).2 _ [] _ _ _ _ rfl

end Kaskade
