import Kaskade.Deserializers
import Kaskade.Dictionaries
import Kaskade.MessageSelection
import Kaskade.Runs

/-!
# Sessions with a Confluent registry

`ConfluentSchemas.schema` and `ConfluentRegistryDeserializer` over all the records of a session: the
schemas and the metadata they keep, beside a client that keeps schemas by ID whatever format was
requested.
-/

namespace Kaskade

open Python

/-- `fmt` of `get_schema`. -/
inductive SchemaFormat where
  | registered
  | serialized

/-- The client of a registry, with what the registry answers a request. It keeps the schemas that it
was answered by ID, without considering the requested format. -/
structure SchemaClient (C S : Type) where
  getSchema : C → ℕ → SchemaFormat → Outcome S → Outcome S × C
  clearCaches : C → C
  kept : C → ℕ → Option S
  getSchema_kept : ∀ c id format answer s, kept c id = some s →
    (getSchema c id format answer).1 = .ok s
  getSchema_asks : ∀ c id format answer, kept c id = none → (getSchema c id format answer).1 = answer
  kept_getSchema : ∀ c id format answer other s,
    kept (getSchema c id format answer).2 other = some s →
      kept c other = some s ∨ other = id ∧ answer = .ok s
  kept_clearCaches : ∀ c id, kept (clearCaches c) id = none

abbrev SubjectName : Type := { subject : Text // subject ≠ [] }

abbrev SubjectVersion : Type := { version : ℕ // 1 ≤ version }

/-- A subject and a version that a schema is registered under. -/
structure Registration where
  subject : Option SubjectName
  version : Option SubjectVersion

/-- What the metadata are kept under: the schema ID, the topic and the field. -/
abbrev MetadataKey : Type := ℕ × Text × MessageField

structure ConfluentSession (C S : Type) where
  client : C
  /-- `_schemas` of `ConfluentSchemas`. -/
  schemas : List (ℕ × S) := []
  /-- `_schema_cache` of `ConfluentRegistryDeserializer`. -/
  metadata : List (MetadataKey × Option RegistrySchema) := []

/-- A framed record to read, with what the registry would answer each request made for it and what
its content is under a schema of some type. -/
structure FramedRecord (S V : Type) where
  id : ℕ
  topic : Text
  field : MessageField
  answers : SchemaFormat → Outcome S
  content : SchemaType → Outcome V
  versions : Outcome (List Registration)

def FramedRecord.key {S V : Type} (record : FramedRecord S V) : MetadataKey :=
  (record.id, record.topic, record.field)

def schemaMetadataExceptions : List ExceptionClass :=
  deserializationExceptions ++ [.attributeError, .typeError]

def selectSchema (id : ℕ) (type : SchemaType) (topic : Text) (field : MessageField)
    (registrations : List Registration) : Option RegistrySchema :=
  let candidates : List (SubjectName × SubjectVersion) := registrations.filterMap fun registration =>
    match registration.subject, registration.version with
    | some subject, some version => some (subject, version)
    | _, _ => none
  let conventionalSubject := topic ++ text "-" ++ field.lowerName
  let selected : Option (SubjectName × SubjectVersion) :=
    match candidates with
    | [candidate] => some candidate
    | candidates =>
      match candidates.filter fun (subject, _) => subject.val = conventionalSubject with
      | [candidate] => some candidate
      | _ => none
  selected.map fun (subject, version) =>
    ⟨id, subject.val, version.val, type, subject.property, version.property⟩

namespace ConfluentSession

variable {C S V : Type}

section Calls

variable (client : SchemaClient C S) (typeOf : S → Option SchemaType)

def schema (s : ConfluentSession C S) (id : ℕ) (answers : SchemaFormat → Outcome S) :
    Outcome S × ConfluentSession C S :=
  match s.schemas.lookup id with
  | some found => (.ok found, s)
  | none =>
    match client.getSchema s.client id .registered (answers .registered) with
    | (.error e, c) => (.error e, { s with client := c })
    | (.ok found, c) =>
      if typeOf found = some .protobuf then
        -- The client would answer with what it has just kept.
        match client.getSchema (client.clearCaches c) id .serialized (answers .serialized) with
        | (.error e, c) => (.error e, { s with client := c })
        | (.ok found, c) =>
          (.ok found, { s with client := c, schemas := Dictionary.setItem s.schemas id found })
      else (.ok found, { s with client := c, schemas := Dictionary.setItem s.schemas id found })

def schemaType (s : ConfluentSession C S) (id : ℕ) (answers : SchemaFormat → Outcome S) :
    Outcome SchemaType × ConfluentSession C S :=
  match s.schema client typeOf id answers with
  | (.error e, s) => (.error e, s)
  | (.ok found, s) =>
    match typeOf found with
    | some type => (.ok type, s)
    | none => (.error (schemaError (text "Schema type not supported")), s)

/-- `deserialize`, after the frame has been read. -/
def deserialize (s : ConfluentSession C S) (record : FramedRecord S V) :
    Outcome V × ConfluentSession C S :=
  match s.schemaType client typeOf record.id record.answers with
  | (.error e, s) => (.error e, s)
  | (.ok type, s) => (record.content type, s)

def resolveSchema (s : ConfluentSession C S) (type : SchemaType) (record : FramedRecord S V) :
    Outcome (Option RegistrySchema) × ConfluentSession C S :=
  match s.metadata.lookup record.key with
  | some found => (.ok found, s)
  | none =>
    let result := Outcome.tryExcept
      (record.versions.map (selectSchema record.id type record.topic record.field))
      schemaMetadataExceptions fun _ => .ok none
    match result with
    | .error e => (.error e, s)
    | .ok found =>
      (.ok found, { s with metadata := Dictionary.setItem s.metadata record.key found })

/-- `deserialize_with_metadata`, after the frame has been read. -/
def deserializeWithMetadata (s : ConfluentSession C S) (record : FramedRecord S V) :
    Outcome (V × Option RegistrySchema) × ConfluentSession C S :=
  match s.schemaType client typeOf record.id record.answers with
  | (.error e, s) => (.error e, s)
  | (.ok type, s) =>
    match record.content type with
    | .error e => (.error e, s)
    | .ok content =>
      match s.resolveSchema type record with
      | (.error e, s) => (.error e, s)
      | (.ok found, s) => (.ok (content, found), s)

end Calls

/-- A record is read with its metadata or without them, or the client is asked for a schema by one
of the deserializers that share it. -/
inductive Use (S V : Type) where
  | deserialize (record : FramedRecord S V)
  | deserializeWithMetadata (record : FramedRecord S V)
  | getSchema (id : ℕ) (answer : Outcome S)

/-- The schemas that are registered under the IDs, which do not change. -/
structure Registered (S : Type) (typeOf : S → Option SchemaType) where
  form : SchemaFormat → ℕ → S
  sameType : ∀ id, typeOf (form .serialized id) = typeOf (form .registered id)

section Sessions

variable (client : SchemaClient C S) {typeOf : S → Option SchemaType}
  (registered : Registered S typeOf)

def Registered.schema (id : ℕ) : S :=
  if typeOf (registered.form .registered id) = some .protobuf then registered.form .serialized id
  else registered.form .registered id

def Registered.Answers (id : ℕ) (format : SchemaFormat) (answer : Outcome S) : Prop :=
  ∀ s, answer = .ok s → s = registered.form format id

/-- One use of the registry, which answers with what is registered or fails. -/
inductive Step : ConfluentSession C S → Use S V → ConfluentSession C S → Prop where
  | deserialize (s : ConfluentSession C S) (record : FramedRecord S V) :
      (∀ format, registered.Answers record.id format (record.answers format)) →
      Step s (.deserialize record) (s.deserialize client typeOf record).2
  | deserializeWithMetadata (s : ConfluentSession C S) (record : FramedRecord S V) :
      (∀ format, registered.Answers record.id format (record.answers format)) →
      Step s (.deserializeWithMetadata record) (s.deserializeWithMetadata client typeOf record).2
  | getSchema (s : ConfluentSession C S) (id : ℕ) (answer : Outcome S) :
      registered.Answers id .registered answer →
      Step s (.getSchema id answer)
        { s with client := (client.getSchema s.client id .registered answer).2 }

end Sessions

section Kept

variable {client : SchemaClient C S} {typeOf : S → Option SchemaType}
  {registered : Registered S typeOf} {s t : ConfluentSession C S}

/-- The schemas are those to be read; the client may keep a Protobuf schema in either form. -/
structure Keeps (client : SchemaClient C S) (registered : Registered S typeOf)
    (s : ConfluentSession C S) : Prop where
  schemas : ∀ id found, s.schemas.lookup id = some found → found = registered.schema id
  client : ∀ id found, client.kept s.client id = some found →
    ∃ format, found = registered.form format id ∧
      (typeOf found ≠ some .protobuf → format = .registered)

theorem Registered.typeOf_form (registered : Registered S typeOf) (format : SchemaFormat) (id : ℕ) :
    typeOf (registered.form format id) = typeOf (registered.form .registered id) := by
  cases format with
  | registered => rfl
  | serialized => exact registered.sameType id

theorem Keeps.getSchema (h : Keeps client registered s) {id : ℕ} {answer : Outcome S}
    (hanswer : registered.Answers id .registered answer) :
    Keeps client registered
      { s with client := (client.getSchema s.client id .registered answer).2 } where
  schemas := h.schemas
  client other found hfound := by
    rcases client.kept_getSchema _ _ _ _ _ _ hfound with hkept | ⟨rfl, hok⟩
    · exact h.client other found hkept
    · exact ⟨.registered, hanswer found hok, fun _ => rfl⟩

/-- What the client answers first: a form of the registered schema, and for another type than
Protobuf the one in which it is registered. -/
theorem Keeps.first (h : Keeps client registered s) {id : ℕ} {answer : Outcome S} {found : S}
    (hanswer : registered.Answers id .registered answer)
    (hfound : (client.getSchema s.client id .registered answer).1 = .ok found) :
    ∃ format, found = registered.form format id ∧
      (typeOf found ≠ some .protobuf → format = .registered) := by
  cases hkept : client.kept s.client id with
  | some earlier =>
    rw [client.getSchema_kept _ _ _ _ _ hkept] at hfound
    obtain rfl := Except.ok.inj hfound
    exact h.client id earlier hkept
  | none =>
    rw [client.getSchema_asks _ _ _ _ hkept] at hfound
    exact ⟨.registered, hanswer found hfound, fun _ => rfl⟩

/-- What a call of `schema` gives and leaves. -/
structure Fetches (client : SchemaClient C S) (registered : Registered S typeOf)
    (s : ConfluentSession C S) (id : ℕ) (outcome : Outcome S) (t : ConfluentSession C S) : Prop where
  keeps : Keeps client registered t
  metadata : t.metadata = s.metadata
  found : ∀ found, outcome = .ok found →
    found = registered.schema id ∧ t.schemas.lookup id = some found
  earlier : ∀ other found, s.schemas.lookup other = some found → t.schemas.lookup other = some found

theorem Keeps.setItem (h : Keeps client registered s) {id : ℕ} {found : S}
    (hfound : found = registered.schema id) :
    Keeps client registered { s with schemas := Dictionary.setItem s.schemas id found } where
  schemas other value hvalue := by
    dsimp only at hvalue
    rw [Dictionary.lookup_setItem] at hvalue
    split_ifs at hvalue with hsame
    · rw [← Option.some.inj hvalue, hsame, hfound]
    · exact h.schemas other value hvalue
  client := h.client

theorem Fetches.stored {c : C} {id : ℕ} {found : S} (hnone : s.schemas.lookup id = none)
    (hkeeps : Keeps client registered { s with client := c })
    (hfound : found = registered.schema id) :
    Fetches client registered s id (.ok found)
      { s with client := c, schemas := Dictionary.setItem s.schemas id found } where
  keeps := hkeeps.setItem hfound
  metadata := rfl
  found other hother := by
    obtain rfl := Except.ok.inj hother
    exact ⟨hfound, by rw [Dictionary.lookup_setItem, if_pos rfl]⟩
  earlier other value hvalue := by
    have hne : other ≠ id := by
      rintro rfl
      rw [hnone] at hvalue
      cases hvalue
    rw [Dictionary.lookup_setItem, if_neg hne, hvalue]

theorem Fetches.failed {c : C} {id : ℕ} (e : PyException)
    (hkeeps : Keeps client registered { s with client := c }) :
    Fetches client registered s id (.error e) { s with client := c } where
  keeps := hkeeps
  metadata := rfl
  found _ hfound := by cases hfound
  earlier _ _ hvalue := hvalue

/-- After its caches are cleared the client asks the registry, and keeps only what that answers. -/
theorem Keeps.cleared (h : Keeps client registered s) {c : C} {id : ℕ} {answer : Outcome S}
    (hanswer : registered.Answers id .serialized answer)
    (htype : typeOf (registered.form .registered id) = some .protobuf) :
    Keeps client registered
      { s with client := (client.getSchema (client.clearCaches c) id .serialized answer).2 } where
  schemas := h.schemas
  client other found hfound := by
    rcases client.kept_getSchema _ _ _ _ _ _ hfound with hkept | ⟨rfl, hok⟩
    · rw [client.kept_clearCaches] at hkept
      cases hkept
    · refine ⟨.serialized, hanswer found hok, fun hother => absurd ?_ hother⟩
      rw [hanswer found hok, registered.sameType, htype]

theorem Keeps.schema (h : Keeps client registered s) {id : ℕ} {answers : SchemaFormat → Outcome S}
    (hanswers : ∀ format, registered.Answers id format (answers format)) :
    Fetches client registered s id (s.schema client typeOf id answers).1
      (s.schema client typeOf id answers).2 := by
  rw [ConfluentSession.schema]
  cases hlookup : s.schemas.lookup id with
  | some found =>
    refine ⟨h, rfl, fun other hother => ?_, fun _ _ hvalue => hvalue⟩
    obtain rfl := Except.ok.inj hother
    exact ⟨h.schemas id found hlookup, hlookup⟩
  | none =>
    have hkeeps := h.getSchema (hanswers .registered)
    have hfirst : ∀ found, (client.getSchema s.client id .registered (answers .registered)).1 =
        .ok found → ∃ format, found = registered.form format id ∧
          (typeOf found ≠ some .protobuf → format = .registered) :=
      fun found => h.first (hanswers .registered)
    cases hcall : client.getSchema s.client id .registered (answers .registered) with
    | mk outcome c =>
      rw [hcall] at hkeeps hfirst
      cases outcome with
      | error e => exact Fetches.failed e hkeeps
      | ok found =>
        obtain ⟨format, rfl, hformat⟩ := hfirst found rfl
        have htype := registered.typeOf_form format id
        dsimp only
        split_ifs with hprotobuf
        · rw [htype] at hprotobuf
          have hcleared := h.cleared (c := c) (hanswers .serialized) hprotobuf
          have hasks := client.getSchema_asks (client.clearCaches c) id .serialized
            (answers .serialized) (client.kept_clearCaches c id)
          cases hsecond : client.getSchema (client.clearCaches c) id .serialized
            (answers .serialized) with
          | mk outcome c' =>
            rw [hsecond] at hcleared hasks
            cases outcome with
            | error e => exact Fetches.failed e hcleared
            | ok serialized =>
              refine Fetches.stored hlookup hcleared ?_
              rw [Registered.schema, if_pos hprotobuf]
              exact hanswers .serialized serialized hasks.symm
        · have hregistered := hformat hprotobuf
          subst hregistered
          refine Fetches.stored hlookup hkeeps ?_
          rw [Registered.schema, if_neg hprotobuf]

theorem Keeps.schemaType (h : Keeps client registered s) {id : ℕ}
    {answers : SchemaFormat → Outcome S}
    (hanswers : ∀ format, registered.Answers id format (answers format)) :
    ∃ t, (s.schemaType client typeOf id answers).2 = t ∧ Keeps client registered t ∧
      t.metadata = s.metadata ∧
      (∀ other found, s.schemas.lookup other = some found → t.schemas.lookup other = some found) ∧
      ∀ type, (s.schemaType client typeOf id answers).1 = .ok type →
        typeOf (registered.schema id) = some type := by
  have hfetches := h.schema hanswers
  rw [ConfluentSession.schemaType]
  cases hcall : s.schema client typeOf id answers with
  | mk outcome t =>
    rw [hcall] at hfetches
    cases outcome with
    | error e => exact ⟨t, rfl, hfetches.keeps, hfetches.metadata, hfetches.earlier, fun type h => by cases h⟩
    | ok found =>
      obtain ⟨rfl, -⟩ := hfetches.found found rfl
      dsimp only
      cases htype : typeOf (registered.schema id) with
      | none => exact ⟨t, rfl, hfetches.keeps, hfetches.metadata, hfetches.earlier, fun type h => by cases h⟩
      | some type =>
        refine ⟨t, rfl, hfetches.keeps, hfetches.metadata, hfetches.earlier, fun other hother => ?_⟩
        rw [Except.ok.inj hother]

theorem Keeps.withMetadata (h : Keeps client registered s)
    (metadata : List (MetadataKey × Option RegistrySchema)) :
    Keeps client registered { s with metadata := metadata } where
  schemas := h.schemas
  client := h.client

theorem Keeps.resolveSchema (h : Keeps client registered s) (type : SchemaType)
    (record : FramedRecord S V) :
    Keeps client registered (s.resolveSchema type record).2 ∧
      (s.resolveSchema type record).2.schemas = s.schemas ∧
      (∀ key found, s.metadata.lookup key = some found →
        (s.resolveSchema type record).2.metadata.lookup key = some found) ∧
      ∀ found, (s.resolveSchema type record).1 = .ok found →
        (s.resolveSchema type record).2.metadata.lookup record.key = some found := by
  rw [ConfluentSession.resolveSchema]
  cases hlookup : s.metadata.lookup record.key with
  | some known =>
    refine ⟨h, rfl, fun _ _ hfound => hfound, fun found hfound => ?_⟩
    rw [← Except.ok.inj hfound]
    exact hlookup
  | none =>
    dsimp only
    cases Outcome.tryExcept (record.versions.map (selectSchema record.id type record.topic record.field))
      schemaMetadataExceptions fun _ => .ok none with
    | error e => exact ⟨h, rfl, fun _ _ hfound => hfound, fun found h => by cases h⟩
    | ok result =>
      refine ⟨h.withMetadata _, rfl, fun key found hfound => ?_, fun found hfound => ?_⟩
      · have hne : key ≠ record.key := by
          rintro rfl
          rw [hlookup] at hfound
          cases hfound
        rw [Dictionary.lookup_setItem, if_neg hne, hfound]
      · rw [Dictionary.lookup_setItem, if_pos rfl, Except.ok.inj hfound]

structure Extends (client : SchemaClient C S) (registered : Registered S typeOf)
    (s t : ConfluentSession C S) : Prop where
  keeps : Keeps client registered t
  schemas : ∀ id found, s.schemas.lookup id = some found → t.schemas.lookup id = some found
  metadata : ∀ key found, s.metadata.lookup key = some found → t.metadata.lookup key = some found

theorem Extends.trans {u : ConfluentSession C S} (h : Extends client registered s t)
    (hlater : Extends client registered t u) : Extends client registered s u where
  keeps := hlater.keeps
  schemas id found hfound := hlater.schemas id found (h.schemas id found hfound)
  metadata key found hfound := hlater.metadata key found (h.metadata key found hfound)

theorem Keeps.extends_schemaType (h : Keeps client registered s) {id : ℕ}
    {answers : SchemaFormat → Outcome S}
    (hanswers : ∀ format, registered.Answers id format (answers format)) :
    Extends client registered s (s.schemaType client typeOf id answers).2 := by
  obtain ⟨t, ht, hkeeps, hmetadata, hearlier, -⟩ := h.schemaType hanswers
  rw [ht]
  exact ⟨hkeeps, hearlier, fun key found hfound => hmetadata ▸ hfound⟩

theorem Keeps.deserialize (h : Keeps client registered s) {record : FramedRecord S V}
    (hanswers : ∀ format, registered.Answers record.id format (record.answers format)) :
    Extends client registered s (s.deserialize client typeOf record).2 := by
  have hextends := h.extends_schemaType hanswers
  rw [ConfluentSession.deserialize]
  cases hcall : s.schemaType client typeOf record.id record.answers with
  | mk outcome t =>
    rw [hcall] at hextends
    cases outcome with
    | error e => exact hextends
    | ok type => exact hextends

theorem Keeps.deserializeWithMetadata (h : Keeps client registered s) {record : FramedRecord S V}
    (hanswers : ∀ format, registered.Answers record.id format (record.answers format)) :
    Extends client registered s (s.deserializeWithMetadata client typeOf record).2 := by
  have hextends := h.extends_schemaType hanswers
  rw [ConfluentSession.deserializeWithMetadata]
  cases hcall : s.schemaType client typeOf record.id record.answers with
  | mk outcome t =>
    rw [hcall] at hextends
    cases outcome with
    | error e => exact hextends
    | ok type =>
      dsimp only
      cases record.content type with
      | error e => exact hextends
      | ok content =>
        obtain ⟨hkeeps, hschemas, hmetadata, -⟩ := hextends.keeps.resolveSchema type record
        have hresolved : Extends client registered t (t.resolveSchema type record).2 :=
          ⟨hkeeps, fun id found hfound => hschemas ▸ hfound, hmetadata⟩
        cases hresolve : t.resolveSchema type record with
        | mk outcome u =>
          rw [hresolve] at hresolved
          cases outcome with
          | error e => exact hextends.trans hresolved
          | ok found => exact hextends.trans hresolved

theorem Keeps.step {use : Use S V} (h : Keeps client registered s)
    (hstep : Step client registered s use t) : Extends client registered s t := by
  cases hstep with
  | deserialize record hanswers => exact h.deserialize hanswers
  | deserializeWithMetadata record hanswers => exact h.deserializeWithMetadata hanswers
  | getSchema id answer hanswer =>
    exact ⟨h.getSchema hanswer, fun _ _ hfound => hfound, fun _ _ hfound => hfound⟩

theorem Keeps.run {uses : List (Use S V)} (h : Keeps client registered s)
    (hrun : Run (Step client registered) s uses t) : Extends client registered s t := by
  induction hrun with
  | nil => exact ⟨h, fun _ _ hfound => hfound, fun _ _ hfound => hfound⟩
  | snoc _ hlast ih => exact ih.trans (ih.keeps.step hlast)

theorem keeps_new {c : C} (hnew : ∀ id, client.kept c id = none) :
    Keeps client registered { client := c } where
  schemas _ _ hfound := by cases hfound
  client id found hfound := by
    rw [hnew] at hfound
    cases hfound

end Kept

section Results

variable {client : SchemaClient C S} {typeOf : S → Option SchemaType}
  {registered : Registered S typeOf} {c : C} {s : ConfluentSession C S}

/-- In every session a schema that is returned is the one to be read, Protobuf in its serialized
form, although the client does not tell the forms apart; and from then on it is returned without a
request, whatever the registry would answer. -/
theorem returns_readable_form (hnew : ∀ id, client.kept c id = none) {uses : List (Use S V)}
    (hrun : Run (Step client registered) { client := c } uses s) {id : ℕ}
    {answers : SchemaFormat → Outcome S} {found : S}
    (hanswers : ∀ format, registered.Answers id format (answers format))
    (hfound : (s.schema client typeOf id answers).1 = .ok found) :
    found = registered.schema id ∧
      ∀ (later : List (Use S V)) u,
        Run (Step client registered) (s.schema client typeOf id answers).2 later u →
          ∀ others, u.schema client typeOf id others = (.ok found, u) := by
  have hfetches := ((keeps_new hnew).run hrun).keeps.schema hanswers
  obtain ⟨hform, hstored⟩ := hfetches.found found hfound
  refine ⟨hform, fun later u hlater others => ?_⟩
  rw [schema, (hfetches.keeps.run hlater).schemas id found hstored]

theorem resolveSchema_returns {type : SchemaType} {record : FramedRecord S V}
    (h : ∀ e, record.versions = .error e → e.isInstance schemaMetadataExceptions) :
    ∃ found t, s.resolveSchema type record = (.ok found, t) := by
  rw [resolveSchema]
  cases s.metadata.lookup record.key with
  | some known => exact ⟨known, s, rfl⟩
  | none =>
    cases hversions : record.versions with
    | ok registrations => exact ⟨_, _, rfl⟩
    | error e =>
      simp only [Except.map, Outcome.tryExcept, if_pos (h e hversions)]
      exact ⟨_, _, rfl⟩

theorem deserializeWithMetadata_content {record : FramedRecord S V}
    (h : ∀ e, record.versions = .error e → e.isInstance schemaMetadataExceptions) :
    (s.deserializeWithMetadata client typeOf record).1.map Prod.fst =
      (s.deserialize client typeOf record).1 := by
  rw [ConfluentSession.deserializeWithMetadata, ConfluentSession.deserialize]
  cases s.schemaType client typeOf record.id record.answers with
  | mk outcome t =>
    cases outcome with
    | error e => rfl
    | ok type =>
      dsimp only
      cases record.content type with
      | error e => rfl
      | ok content =>
        obtain ⟨found, u, hresolve⟩ : ∃ found u, t.resolveSchema type record = (.ok found, u) :=
          resolveSchema_returns h
        rw [hresolve]
        rfl

/-- A record that is returned with its metadata leaves these under its key. -/
theorem Keeps.stores (h : Keeps client registered s) {record : FramedRecord S V} {content : V}
    {found : Option RegistrySchema}
    (hanswers : ∀ format, registered.Answers record.id format (record.answers format))
    (hreturned : (s.deserializeWithMetadata client typeOf record).1 = .ok (content, found)) :
    (∃ type, typeOf (registered.schema record.id) = some type ∧ record.content type = .ok content) ∧
      (s.deserializeWithMetadata client typeOf record).2.metadata.lookup record.key = some found := by
  obtain ⟨t, ht, hkeeps, -, -, htype⟩ := h.schemaType hanswers
  rw [ConfluentSession.deserializeWithMetadata] at hreturned ⊢
  cases hcall : s.schemaType client typeOf record.id record.answers with
  | mk outcome t' =>
    rw [hcall] at ht htype hreturned
    obtain rfl : t' = t := ht
    cases outcome with
    | error e => cases hreturned
    | ok type =>
      have hregistered := htype type rfl
      obtain ⟨-, -, -, hlookup⟩ := hkeeps.resolveSchema type record
      dsimp only at hreturned ⊢
      cases hcontent : record.content type with
      | error e =>
        rw [hcontent] at hreturned
        cases hreturned
      | ok value =>
        rw [hcontent] at hreturned
        cases hresolve : t'.resolveSchema type record with
        | mk outcome u =>
          rw [hresolve] at hlookup hreturned
          cases outcome with
          | error e => cases hreturned
          | ok metadata =>
            obtain ⟨rfl, rfl⟩ := Prod.mk.inj (Except.ok.inj hreturned)
            exact ⟨⟨type, hregistered, hcontent⟩, hlookup _ rfl⟩

/-- Reading the metadata of a record never costs its content, and the metadata that are shown for a
schema, a topic and a field stay what they were the first time. -/
theorem metadata_settled (hnew : ∀ id, client.kept c id = none) {uses : List (Use S V)}
    (hrun : Run (Step client registered) { client := c } uses s) {record : FramedRecord S V}
    (hanswers : ∀ format, registered.Answers record.id format (record.answers format)) :
    ((∀ e, record.versions = .error e → e.isInstance schemaMetadataExceptions) →
      (s.deserializeWithMetadata client typeOf record).1.map Prod.fst =
        (s.deserialize client typeOf record).1) ∧
    ∀ content found, (s.deserializeWithMetadata client typeOf record).1 = .ok (content, found) →
      (∃ type, typeOf (registered.schema record.id) = some type ∧ record.content type = .ok content) ∧
      ∀ (later : List (Use S V)) u (other : FramedRecord S V) content' found',
        Run (Step client registered) (s.deserializeWithMetadata client typeOf record).2 later u →
        (∀ format, registered.Answers other.id format (other.answers format)) →
        other.key = record.key →
        (u.deserializeWithMetadata client typeOf other).1 = .ok (content', found') →
        found' = found := by
  have hkeeps := ((keeps_new hnew).run hrun).keeps
  refine ⟨deserializeWithMetadata_content, fun content found hreturned => ?_⟩
  obtain ⟨hcontent, hstored⟩ := hkeeps.stores hanswers hreturned
  refine ⟨hcontent, fun later u other content' found' hlater hother hkey hagain => ?_⟩
  have hbefore := (hkeeps.deserializeWithMetadata hanswers).keeps.run hlater
  have hafter := hbefore.keeps.deserializeWithMetadata hother
  obtain ⟨-, hrestored⟩ := hbefore.keeps.stores hother hagain
  have hkept := hafter.metadata _ _ (hbefore.metadata _ _ hstored)
  rw [hkey, hkept] at hrestored
  exact (Option.some.inj hrestored).symm

end Results

section KeepingClients

variable {S : Type}

/-- `get_schema` of a client that keeps its schemas in a dictionary. -/
def keepingGetSchema (c : List (ℕ × S)) (id : ℕ) (answer : Outcome S) : Outcome S × List (ℕ × S) :=
  match c.lookup id with
  | some s => (.ok s, c)
  | none =>
    match answer with
    | .ok s => (.ok s, (id, s) :: c)
    | .error e => (.error e, c)

def keepingClient : SchemaClient (List (ℕ × S)) S where
  getSchema c id _ answer := keepingGetSchema c id answer
  clearCaches _ := []
  kept c id := c.lookup id
  getSchema_kept c id _ answer s h := by simp [keepingGetSchema, h]
  getSchema_asks c id _ answer h := by
    simp only [keepingGetSchema, h]
    cases answer with
    | ok s => rfl
    | error e => rfl
  kept_getSchema c id _ answer other s h := by
    simp only [keepingGetSchema] at h
    cases hlookup : c.lookup id with
    | some known =>
      rw [hlookup] at h
      exact .inl h
    | none =>
      rw [hlookup] at h
      cases answer with
      | error e => exact .inl h
      | ok answered =>
        dsimp only at h
        rw [List.lookup_cons] at h
        cases hsame : other == id with
        | true =>
          rw [hsame] at h
          exact .inr ⟨eq_of_beq hsame, congrArg Except.ok (Option.some.inj h)⟩
        | false =>
          rw [hsame] at h
          exact .inl h
  kept_clearCaches _ _ := rfl

end KeepingClients

def orderMessage : Registered (SchemaType × Text) (fun schema => some schema.1) where
  form
    | .registered, _ => (.protobuf, text "message Order {}")
    | .serialized, _ => (.protobuf, text "IgcKBU9yZGVy")
  sameType _ := rfl

def orderAnswers : SchemaFormat → Outcome (SchemaType × Text)
  | format => .ok (orderMessage.form format 7)

theorem orderAnswers_answer (format : SchemaFormat) :
    orderMessage.Answers 7 format (orderAnswers format) :=
  fun _ h => (Except.ok.inj h).symm

def order (versions : Outcome (List Registration)) : FramedRecord (SchemaType × Text) ℕ where
  id := 7
  topic := text "orders"
  field := .value
  answers := orderAnswers
  content _ := .ok 1
  versions := versions

/-- The client has kept the schema as it is registered. -/
theorem returns_readable_form_kept :
    ∃ found : SchemaType × Text, found = (.protobuf, text "IgcKBU9yZGVy") ∧
      found = orderMessage.schema 7 := by
  have hrun : Run (Step keepingClient orderMessage)
      { client := [] } [Use.getSchema (V := ℕ) 7 (orderAnswers .registered)] _ :=
    Run.nil.snoc (.getSchema _ 7 _ (orderAnswers_answer .registered))
  exact ⟨_, rfl, (returns_readable_form (fun _ => rfl) hrun orderAnswers_answer rfl).1⟩

def unavailable : ConfluentSession (List (ℕ × SchemaType × Text)) (SchemaType × Text) :=
  (deserializeWithMetadata keepingClient (fun schema => some schema.1) { client := [] }
    (order (.error ⟨.schemaRegistryError, text "unavailable"⟩))).2

/-- They are not read again for the next one. -/
theorem metadata_settled_unavailable :
    ∃ found, (unavailable.deserializeWithMetadata keepingClient (fun schema => some schema.1)
        (order (.ok [⟨some ⟨text "orders-value", by decide⟩, some ⟨3, by decide⟩⟩]))).1 =
          .ok (1, found) ∧ found = none := by
  have hstart : Run (Step keepingClient orderMessage) { client := [] } ([] : List (Use _ ℕ)) _ := .nil
  refine ⟨_, rfl, ?_⟩
  exact ((metadata_settled (fun _ => rfl) hstart orderAnswers_answer).2 1 none rfl).2 [] unavailable
    _ 1 _ .nil orderAnswers_answer rfl rfl

end ConfluentSession

end Kaskade
