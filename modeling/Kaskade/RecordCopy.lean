import Kaskade.RecordModels
import Kaskade.Serializers
import Kaskade.JsonEncoding
import Kaskade.JsonReading

/-!
# Copying a field

Record Details copies the text of a field: strings as they are, everything else as readable
JSON. The producer's JSON serializer parses whatever is pasted, so a copied string does not
produce the octets it was copied from.
-/

namespace Kaskade

open Python

variable {F E : Type}

/-- `data[key]` of a dictionary. -/
def subscript (data : Value F E) (key : Text) : Outcome (Value F E) :=
  match data with
  | .dict items =>
    match Value.getItem? items key with
    | some v => .ok v
    | none => .error ⟨.keyError, key⟩
  | _ => .error ⟨.typeError, text "string indices must be integers"⟩

/-- `data[index]` of a list. -/
def subscriptAt (data : Value F E) (index : ℕ) : Outcome (Value F E) :=
  match data with
  | .list items =>
    match items[index]? with
    | some v => .ok v
    | none => .error ⟨.indexError, text "list index out of range"⟩
  | _ => .error ⟨.typeError, text "object is not a list"⟩

/-- The tabs with content of their own; the headers have a row under the cursor. -/
inductive ActiveTab where
  | headers (cursorRow : ℕ)
  | key
  | value

section Texts

variable [PyFloat F] (py : Interpreter F E)

def readableJson (data : Value F E) : Outcome Text := py.dumps .readable true data

def readableContent (content : Value F E) : Outcome Text :=
  match content with
  | .str s => .ok s
  | v => readableJson py v

def copiedText (payload : Option Bytes) (content : Value F E) : Outcome (Option Text) :=
  match payload with
  | none => .ok none
  | some _ => (readableContent py content).map some

/-- `_active_content`: the subject of the active tab and its text; `data` is the document
of the record. -/
def activeContent (record : Record F E) (data : Value F E) :
    ActiveTab → Outcome (Text × Option Text)
  | .headers cursorRow =>
    if record.headers.isEmpty then .ok (text "record headers", none)
    else
      match record.headers[cursorRow]? with
      | none => .error ⟨.indexError, text "list index out of range"⟩
      | some header => do
        let shown ← subscriptAt (← subscript data (text "headers")) cursorRow
        let content ← subscript shown (text "value")
        return (text "header value", ← copiedText py header.value content)
  | .key => do
    let content ← subscript (← subscript data (text "key")) (text "content")
    return (text "record key", ← copiedText py record.key content)
  | .value => do
    let content ← subscript (← subscript data (text "value")) (text "content")
    return (text "record value", ← copiedText py record.value content)

end Texts

variable [PyFloat F] (py : Interpreter F E)

/-- The field has octets, the JSON format and the deserializer of that format, which
decodes the octets to the value. -/
def JsonField (raw : Option Bytes) (requested : Deserialization)
    (deserializer : Option (Deserializer F E)) (topic : Text) (field : MessageField)
    (v : Value F E) : Prop :=
  requested = .json ∧ ∃ data config validators, raw = some data ∧
    deserializer = some (withoutMetadata (jsonDeserializer py config validators)) ∧
    jsonDeserializer py config validators data (some topic) field = .ok v

def ShowsJson (record : Record F E) (v : Value F E) : ActiveTab → Prop
  | .headers _ => False
  | .key => JsonField py record.key record.keyDeserialization record.keyDeserializer
      record.topic .key v
  | .value => JsonField py record.value record.valueDeserialization record.valueDeserializer
      record.topic .value v

/-- What a value must be for its copy to be sent back: no string, free of lone surrogates,
and nested no deeper than `json.dumps` follows in either layout. -/
structure CopiesBack (v : Value F E) : Prop where
  not_string : ∀ s, v ≠ .str s
  encodable : v.encodable
  readable : v.depth ≤ py.dumpNesting .readable
  compact : v.depth ≤ py.dumpNesting .compact

variable {py}

theorem loadsBytes_read {data : Bytes} {v : Value F E} (h : py.loadsBytes data = .ok v) :
    ReadWithin py.jsonLimits py.jsonLimits.nesting v := by
  rw [Interpreter.loadsBytes] at h
  cases htext : decodeDetected data with
  | none => simp [htext] at h
  | some t =>
    cases hdocument : decodeDocument (F := F) (E := E) py.jsonLimits t with
    | error failure => simp [htext, hdocument] at h
    | ok w =>
      simp only [htext, hdocument, Except.ok.injEq] at h
      exact h ▸ decodeDocument_read hdocument

theorem jsonDeserializer_read {config : Config}
    {validators : MessageField → Option (Validator F E)} {data : Bytes} {topic : Option Text}
    {field : MessageField} {v : Value F E}
    (h : jsonDeserializer py config validators data topic field = .ok v) :
    ReadWithin py.jsonLimits py.jsonLimits.nesting v := by
  rw [jsonDeserializer] at h
  cases hbody : payload data config field (text "JSON") with
  | error e => simp [hbody, bind, Except.bind] at h
  | ok body =>
    cases hloads : py.loadsBytes body with
    | error e => simp [hbody, hloads, bind, Except.bind] at h
    | ok content =>
      have hcontent : content = v := by
        simp only [hbody, hloads, bind, Except.bind] at h
        cases hvalidator : validators field with
        | none => simpa [hvalidator] using h
        | some validate =>
          cases hvalidate : validate content with
          | error e => simp [hvalidator, hvalidate] at h
          | ok message =>
            cases message with
            | none => simpa [hvalidator, hvalidate] using h
            | some m => simp [hvalidator, hvalidate] at h
      exact hcontent ▸ loadsBytes_read hloads

theorem JsonField.content {raw : Option Bytes} {requested : Deserialization}
    {deserializer : Option (Deserializer F E)} {topic : Text} {field : MessageField}
    {encoding fallback : BytesEncoding} {v : Value F E} {outcome : DeserializationOutcome F E}
    (h : JsonField py raw requested deserializer topic field v)
    (houtcome : deserializeField raw requested deserializer topic field encoding fallback =
      .ok outcome) :
    subscript outcome.dict (text "content") = .ok v := by
  obtain ⟨-, data, config, validators, rfl, rfl, hv⟩ := h
  have hread := jsonDeserializer_read hv
  have hjson : jsonContent v encoding = v := by
    cases v with
    | bytes data => exact absurd hread.isJson (by simp [Value.isJson, Value.all])
    | _ => rfl
  simp only [deserializeField, withoutMetadata, hv, Except.map, Outcome.tryExcept_ok,
    Except.ok.injEq] at houtcome
  subst houtcome
  simp only [DeserializationOutcome.dict, hjson]
  rfl

/-- The text of a tab is the readable content of the decoded value. -/
theorem ShowsJson.activeContent {record : Record F E} {document v : Value F E} {tab : ActiveTab}
    (h : ShowsJson py record v tab) (hdict : record.dict = .ok document) :
    ∃ subject, activeContent py record document tab =
      (readableContent py v).map fun copied => (subject, some copied) := by
  obtain ⟨headers, key, value, hkey, hvalue, rfl⟩ : ∃ headers key value,
      record.keyOutcome = .ok key ∧ record.valueOutcome = .ok value ∧
        document = .dict [(text "topic", .str record.topic),
          (text "partition", .int record.partition), (text "offset", .int record.offset),
          (text "timestamp", record.timestampValue), (text "headers", .list headers),
          (text "key", key.dict), (text "value", value.dict)] := by
    rw [Record.dict] at hdict
    cases hheaders : record.headers.mapM Header.dict with
    | error e => simp [hheaders, bind, Except.bind] at hdict
    | ok headers =>
      cases hkey : record.keyOutcome with
      | error e => simp [hheaders, hkey, bind, Except.bind] at hdict
      | ok key =>
        cases hvalue : record.valueOutcome with
        | error e => simp [hheaders, hkey, hvalue, bind, Except.bind] at hdict
        | ok value =>
          refine ⟨headers, key, value, rfl, rfl, ?_⟩
          simpa [hheaders, hkey, hvalue, bind, Except.bind, pure, Except.pure] using hdict.symm
  cases tab with
  | headers cursorRow => exact h.elim
  | key =>
    refine ⟨text "record key", ?_⟩
    obtain ⟨-, data, -, -, hraw, -⟩ := id h
    have hcontent := JsonField.content h hkey
    have hkeyDict : subscript (F := F) (E := E) (.dict [(text "topic", .str record.topic),
          (text "partition", .int record.partition), (text "offset", .int record.offset),
          (text "timestamp", record.timestampValue), (text "headers", .list headers),
          (text "key", key.dict), (text "value", value.dict)]) (text "key") = .ok key.dict := rfl
    simp only [Kaskade.activeContent, hkeyDict, hcontent, bind, Except.bind, copiedText, hraw]
    cases readableContent py v <;> rfl
  | value =>
    refine ⟨text "record value", ?_⟩
    obtain ⟨-, data, -, -, hraw, -⟩ := id h
    have hcontent := JsonField.content h hvalue
    have hvalueDict : subscript (F := F) (E := E) (.dict [(text "topic", .str record.topic),
          (text "partition", .int record.partition), (text "offset", .int record.offset),
          (text "timestamp", record.timestampValue), (text "headers", .list headers),
          (text "key", key.dict), (text "value", value.dict)]) (text "value") =
        .ok value.dict := rfl
    simp only [Kaskade.activeContent, hvalueDict, hcontent, bind, Except.bind, copiedText, hraw]
    cases readableContent py v <;> rfl

theorem dumps_eq_ok {L : Layout} {defaultStr : Bool} {v : Value F E} {t : Text}
    (hread : ReadWithin py.jsonLimits py.jsonLimits.nesting v) :
    py.dumps L defaultStr v = .ok t ↔
      v.depth ≤ py.dumpNesting L ∧ t = Python.dumps L py.str v := by
  have hdumps : py.dumps L defaultStr v =
      if py.dumpNesting L < v.depth then
        .error ⟨.recursionError, py.limitMessage .recursionError⟩
      else .ok (Python.dumps L py.str v) := by
    simp [Interpreter.dumps, hread.withinDigits, hread.isJson]
  rw [hdumps]
  split_ifs with hdepth
  · simp [hdepth]
  · simp [Nat.le_of_not_lt hdepth, eq_comm]

theorem compactJson_eq_ok {v : Value F E} {data : Bytes}
    (hread : ReadWithin py.jsonLimits py.jsonLimits.nesting v) :
    compactJson py v = .ok data ↔
      v.depth ≤ py.dumpNesting .compact ∧
        utf8Encode (Python.dumps .compact py.str v) = some data := by
  have hencode : ∀ t : Text, py.encodeUtf8 t = .ok data ↔ utf8Encode t = some data := fun t => by
    rw [Interpreter.encodeUtf8]
    cases utf8Encode t <;> simp
  rw [compactJson]
  constructor
  · intro h
    cases hdumps : py.dumps .compact false v with
    | error e => simp [hdumps, bind, Except.bind] at h
    | ok t =>
      obtain ⟨hdepth, rfl⟩ := (dumps_eq_ok hread).mp hdumps
      exact ⟨hdepth, (hencode _).mp (by simpa [hdumps, bind, Except.bind] using h)⟩
  · rintro ⟨hdepth, hdata⟩
    rw [(dumps_eq_ok hread).mpr ⟨hdepth, rfl⟩]
    exact (hencode _).mpr hdata

theorem loadsBytes_compactJson {v : Value F E} {data : Bytes}
    (hread : ReadWithin py.jsonLimits py.jsonLimits.nesting v)
    (h : compactJson py v = .ok data) : py.loadsBytes data = .ok v := by
  obtain ⟨-, hdata⟩ := (compactJson_eq_ok hread).mp h
  have hloads := loads_dumps py.jsonLimits .compact py.str hread.distinctKeys hread.withinDigits
    hread.depth_le
  rw [Value.shown_eq_self hread.isJson, Python.loads] at hloads
  split_ifs at hloads
  rw [Interpreter.loadsBytes, decodeDetected_dumps hdata]
  simp only [hloads]

theorem loadsBytes_jsonSerialize {t : Text} {data : Bytes} {v : Value F E} :
    jsonSerialize py none t = .ok data ∧ py.loadsBytes data = .ok v ↔
      Python.loads py.jsonLimits t = .ok v ∧ compactJson py v = .ok data := by
  have hserialize : ∀ w, Python.loads py.jsonLimits t = .ok w →
      jsonSerialize py none t = compactJson py w := fun w hw => by
    rw [jsonSerialize, parseJson, hw]
    rfl
  constructor
  · rintro ⟨hdata, hv⟩
    cases hloads : Python.loads (F := F) (E := E) py.jsonLimits t with
    | error failure =>
      rw [jsonSerialize, parseJson, hloads] at hdata
      cases failure <;> cases hdata
    | ok w =>
      rw [hserialize w hloads] at hdata
      rw [loadsBytes_compactJson (loads_read hloads) hdata] at hv
      cases hv
      exact ⟨rfl, hdata⟩
  · rintro ⟨hloads, hdata⟩
    exact ⟨(hserialize v hloads).trans hdata, loadsBytes_compactJson (loads_read hloads) hdata⟩

theorem copiesBack_iff {v : Value F E} (hread : ReadWithin py.jsonLimits py.jsonLimits.nesting v) :
    (∃ copied data, readableContent py v = .ok copied ∧ jsonSerialize py none copied = .ok data ∧
      py.loadsBytes data = .ok v) ↔ CopiesBack py v := by
  simp only [loadsBytes_jsonSerialize]
  by_cases hstring : ∃ s, v = .str s
  · obtain ⟨s, rfl⟩ := hstring
    refine iff_of_false ?_ fun h => h.not_string s rfl
    rintro ⟨copied, data, hcopied, hloads, -⟩
    cases hcopied
    exact loads_ne_str py.jsonLimits s hloads
  · have hreadable : readableContent py v = py.dumps .readable true v := by
      cases v with
      | str s => exact absurd ⟨s, rfl⟩ hstring
      | _ => rfl
    have hencodable : (∃ data, utf8Encode (Python.dumps .compact py.str v) = some data) ↔
        v.encodable := by
      rw [← Option.isSome_iff_exists, utf8Encode_dumps, Value.shown_eq_self hread.isJson]
    have hloads := loads_dumps py.jsonLimits .readable py.str hread.distinctKeys
      hread.withinDigits hread.depth_le
    rw [Value.shown_eq_self hread.isJson] at hloads
    simp only [hreadable, dumps_eq_ok hread, compactJson_eq_ok hread]
    constructor
    · rintro ⟨copied, data, ⟨hdepth, rfl⟩, -, hcompact, hdata⟩
      exact ⟨fun s hs => hstring ⟨s, hs⟩, hencodable.mp ⟨data, hdata⟩, hdepth, hcompact⟩
    · intro h
      obtain ⟨data, hdata⟩ := hencodable.mpr h.encodable
      exact ⟨_, data, ⟨h.readable, rfl⟩, hloads, h.compact, hdata⟩

/-- The copy of a decoded JSON field is accepted and sent back as the same value exactly when
the value copies back. -/
theorem copy_round_trip_iff {record : Record F E} {document v : Value F E} {tab : ActiveTab}
    (hdict : record.dict = .ok document) (hshows : ShowsJson py record v tab) :
    (∃ subject copied data, activeContent py record document tab = .ok (subject, some copied) ∧
      jsonSerialize py none copied = .ok data ∧ py.loadsBytes data = .ok v) ↔
        CopiesBack py v := by
  obtain ⟨subject, hcontent⟩ := hshows.activeContent hdict
  have hread : ReadWithin py.jsonLimits py.jsonLimits.nesting v := by
    cases tab with
    | headers cursorRow => exact hshows.elim
    | key =>
      obtain ⟨-, data, config, validators, -, -, hv⟩ := hshows
      exact jsonDeserializer_read hv
    | value =>
      obtain ⟨-, data, config, validators, -, -, hv⟩ := hshows
      exact jsonDeserializer_read hv
  rw [← copiesBack_iff hread, hcontent]
  constructor
  · rintro ⟨subject', copied, data, hcopied, hsent⟩
    cases hreadable : readableContent py v with
    | error e => simp [hreadable, Except.map] at hcopied
    | ok t =>
      simp only [hreadable, Except.map, Except.ok.injEq, Prod.mk.injEq, Option.some.injEq] at hcopied
      exact ⟨copied, data, by rw [hcopied.2], hsent⟩
  · rintro ⟨copied, data, hreadable, hsent⟩
    refine ⟨subject, copied, data, ?_, hsent⟩
    rw [hreadable]
    rfl

def jsonRecord (value : Bytes) : Record FloatRepr Empty where
  topic := text "orders"
  partition := 0
  offset := 0
  timestamp := none
  key := none
  value := some value
  headers := []
  keyDeserialization := .json
  valueDeserialization := .json
  keyDeserializer := some (withoutMetadata (jsonDeserializer .plain (fun _ => none) fun _ => none))
  valueDeserializer := some (withoutMetadata (jsonDeserializer .plain (fun _ => none) fun _ => none))
  keyBytesEncoding := .base64
  valueBytesEncoding := .base64
  fallbackBytesEncoding := .base64

/-- The list `[7]` copies back. -/
theorem list_copies_back :
    ∃ document, (jsonRecord [0x5b, 0x37, 0x5d]).dict = .ok document ∧
      ∃ subject copied data,
        activeContent .plain (jsonRecord [0x5b, 0x37, 0x5d]) document .value =
            .ok (subject, some copied) ∧
          jsonSerialize .plain none copied = .ok data ∧
          Interpreter.plain.loadsBytes data = .ok (.list [.int 7]) := by
  have hshows : ShowsJson .plain (jsonRecord [0x5b, 0x37, 0x5d]) (.list [.int 7]) .value :=
    ⟨rfl, _, fun _ => none, fun _ => none, rfl, rfl, rfl⟩
  refine ⟨_, rfl, (copy_round_trip_iff rfl hshows).mpr ?_⟩
  exact ⟨nofun, by decide +kernel, by decide +kernel, by decide +kernel⟩

/-- The JSON string `"42"` is sent back as the number 42. -/
theorem string_does_not_copy_back :
    ∃ document, (jsonRecord [0x22, 0x34, 0x32, 0x22]).dict = .ok document ∧
      Interpreter.plain.loadsBytes [0x22, 0x34, 0x32, 0x22] = .ok (.str (text "42")) ∧
      activeContent .plain (jsonRecord [0x22, 0x34, 0x32, 0x22]) document .value =
        .ok (text "record value", some (text "42")) ∧
      jsonSerialize .plain none (text "42") = .ok [0x34, 0x32] ∧
      Interpreter.plain.loadsBytes [0x34, 0x32] = .ok (.int 42) :=
  ⟨_, rfl, rfl, rfl, rfl, rfl⟩

end Kaskade
