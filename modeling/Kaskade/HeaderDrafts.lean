import Kaskade.SchemaFiles
import Mathlib.Data.List.Lex

/-!
# Headers of a record draft

The record document of `--source` (`load_draft`), the composer it is loaded into, and the record
that is produced from the composer before anything is edited.
-/

namespace Kaskade

open Python

abbrev HeaderEntry := Text × Option Text

section Document

variable {F E : Type}

structure DraftField (F E : Type) where
  content : Value F E := .null
  isNull : Bool := true

structure RecordDraft (F E : Type) where
  headers : List HeaderEntry := []
  key : DraftField F E := {}
  value : DraftField F E := {}

def sourceError (message : Text) : PyException := ⟨.sourceError, message⟩

/-- `sorted(set(document) - allowed)`. -/
def unknownFields (document : List (Text × Value F E)) (allowed : List Text) : List Text :=
  ((document.map Prod.fst).filter (!allowed.contains ·)).mergeSort
    fun a b => a.map (·.val) ≤ b.map (·.val)

def rejectUnknown (document : List (Text × Value F E)) (allowed : List Text) (subject : Text) :
    Outcome Unit :=
  match unknownFields document allowed with
  | [] => .ok ()
  | unknown => .error (sourceError
      (text "unknown " ++ subject ++ text " field(s): " ++ (text ", ").intercalate unknown))

/-- `set(header) == HEADER_FIELDS`. -/
def hasHeaderFields (header : List (Text × Value F E)) : Bool :=
  (Value.getItem? header (text "key")).isSome && (Value.getItem? header (text "value")).isSome &&
    header.all fun field => [text "key", text "value"].contains field.1

/-- The body of the loop of `_parse_headers`. -/
def parseHeader (index : ℕ) : Value F E → Outcome HeaderEntry
  | .dict header =>
    if hasHeaderFields header then
      match Value.getItem? header (text "key"), Value.getItem? header (text "value") with
      | some (.str name), some (.str value) => .ok (name, some value)
      | some (.str name), some .null => .ok (name, none)
      | _, _ => .error (sourceError (text "header " ++ natText index ++
          text " needs a string key and a string or null value"))
    else .error (sourceError (text "header " ++ natText index ++
      text " must be an object with 'key' and 'value'"))
  | _ => .error (sourceError (text "header " ++ natText index ++
      text " must be an object with 'key' and 'value'"))

/-- The loop of `_parse_headers`. -/
def parseHeadersFrom (index : ℕ) : List (Value F E) → Outcome (List HeaderEntry)
  | [] => .ok []
  | header :: headers => do
    let entry ← parseHeader index header
    let entries ← parseHeadersFrom (index + 1) headers
    return entry :: entries

/-- `_parse_headers`, on `document.get("headers", [])`. -/
def parseHeaders : Option (Value F E) → Outcome (List HeaderEntry)
  | none => .ok []
  | some (.list headers) => parseHeadersFrom 0 headers
  | some _ => .error (sourceError (text "'headers' must be an array"))

/-- `_parse_field`, on `document.get(name)`. -/
def parseField (name : Text) : Option (Value F E) → Outcome (DraftField F E)
  | none => .ok {}
  | some .null => .ok {}
  | some (.dict field) => do
    rejectUnknown field [text "content"] (text "'" ++ name ++ text "'")
    match (Value.getItem? field (text "content")).getD .null with
    | .null => return { content := .null, isNull := true }
    | content => return { content := content, isNull := false }
  | some _ => .error (sourceError (text "'" ++ name ++ text "' must be an object with 'content'"))

def parseDocument : Value F E → Outcome (RecordDraft F E)
  | .dict document => do
    rejectUnknown document [text "headers", text "key", text "value"] (text "record")
    let headers ← parseHeaders (Value.getItem? document (text "headers"))
    let key ← parseField (text "key") (Value.getItem? document (text "key"))
    let value ← parseField (text "value") (Value.getItem? document (text "value"))
    return { headers := headers, key := key, value := value }
  | _ => .error (sourceError (text "a record document must be a JSON object"))

variable [PyFloat F] (py : Interpreter F E)

/-- The document that `load_draft` reads from the file. -/
def readDocument (file : SchemaFile) : Outcome (Value F E) := do
  let t ← (file.readText py).tryExcept [.osError, .unicodeDecodeError] fun ex =>
    .error (sourceError (text "Unable to read the source file: " ++ ex.message))
  match Python.loads py.jsonLimits t with
  | .ok document => .ok document
  | .error (.syntaxError message remaining) =>
    .error (sourceError (text "Invalid JSON at line " ++
      natText (Interpreter.lineOf t (t.length - remaining)) ++ text ": " ++ text message))
  | .error failure => .error (py.jsonException t failure)

def loadDraft (file : SchemaFile) : Outcome (RecordDraft F E) :=
  readDocument py file >>= parseDocument

end Document

/-- A header row: its two inputs, whether the value is disabled, and its null control. -/
structure HeaderRow where
  nameInput : Text
  valueInput : Text
  valueDisabled : Bool
  nullCheckbox : Bool
  deriving DecidableEq

namespace HeaderRow

/-- `HeaderRow(header)`. -/
def ofHeader (header : HeaderEntry) : HeaderRow where
  nameInput := header.1
  valueInput := header.2.getD []
  valueDisabled := header.2.isNone
  nullCheckbox := header.2.isNone

def entry (row : HeaderRow) : HeaderEntry :=
  (row.nameInput, if row.nullCheckbox then none else some row.valueInput)

def isBlank (row : HeaderRow) : Bool := row.entry = ([], some [])

def isUnnamed (row : HeaderRow) : Bool := !row.isBlank && row.nameInput = []

end HeaderRow

abbrev Problem := Text × Text

structure HeadersPane where
  rows : List HeaderRow

namespace HeadersPane

def headers (pane : HeadersPane) : List HeaderEntry :=
  (pane.rows.filter (!·.isBlank)).map HeaderRow.entry

def unnamedRow (pane : HeadersPane) : Option HeaderRow := pane.rows.find? (·.isUnnamed)

def unnamedProblem (pane : HeadersPane) : Option Problem :=
  pane.unnamedRow.map fun _ =>
    (text "Header " ++ natText (pane.rows.findIdx (·.isUnnamed) + 1), text "Needs a name")

/-- `load`: a row for each header, and the blank one after them. -/
def load (headers : List HeaderEntry) : HeadersPane where
  rows := headers.map HeaderRow.ofHeader ++ [.ofHeader ([], some [])]

end HeadersPane

section Composer

variable {F E : Type}

structure FieldSerializer (F E : Type) where
  draftText : Value F E → Outcome Text
  serialize : Text → Outcome Bytes

structure FieldEditor (F E : Type) where
  serializer : FieldSerializer F E
  isNull : Bool
  contentText : Text

namespace FieldEditor

def serialize (editor : FieldEditor F E) : Outcome (Option Bytes) :=
  if editor.isNull then .ok none else some <$> editor.serializer.serialize editor.contentText

/-- What `serialize` returns, or the problem it reports. -/
def validation (editor : FieldEditor F E) : Outcome (Except Text (Option Bytes)) :=
  Outcome.tryExcept (Except.ok <$> editor.serialize) [.serializationError]
    fun ex => .ok (.error ex.message)

/-- `load`. A text area may keep other line ends than those of the text it loads. -/
def load (loadText : Text → Text) (editor : FieldEditor F E) (field : DraftField F E) :
    Outcome (FieldEditor F E) := do
  let t ← if field.isNull then .ok [] else editor.serializer.draftText field.content
  let loaded := { editor with isNull := field.isNull, contentText := loadText t }
  let _ ← loaded.validation
  return loaded

end FieldEditor

structure OutgoingRecord where
  key : Option Bytes
  value : Option Bytes
  headers : List HeaderEntry
  partition : Option ℕ

/-- What `outgoing_record` returns or reveals. -/
inductive Outgoing where
  | record (record : OutgoingRecord)
  | invalidHeader (problem : Problem)
  | invalidField (problem : Problem)

structure RecordComposer (F E : Type) where
  headersPane : HeadersPane
  key : FieldEditor F E
  value : FieldEditor F E
  partition : Option ℕ

namespace RecordComposer

variable [PyFloat F] (py : Interpreter F E)

/-- `HeadersPane.byte_size`. -/
def headersByteSize (pane : HeadersPane) : Outcome ℕ := do
  let sizes ← pane.headers.mapM fun (name, value) => do
    let name ← py.encodeUtf8 name
    let value ← match value with
      | none => pure []
      | some value => py.encodeUtf8 value
    return name.length + value.length
  return sizes.sum

/-- The problems that `update_summary` lists. -/
def summaryProblems (composer : RecordComposer F E) : Outcome (List Problem) := do
  let _ ← headersByteSize py composer.headersPane
  let key ← composer.key.validation
  let value ← composer.value.validation
  let problem (label : Text) : Except Text (Option Bytes) → List Problem
    | .error message => [(label, message)]
    | .ok _ => []
  return problem (text "Key") key ++ problem (text "Value") value ++
    composer.headersPane.unnamedProblem.toList

/-- `load_draft` of the composer. -/
def loadDraft (loadText : Text → Text) (composer : RecordComposer F E) (draft : RecordDraft F E) :
    Outcome (RecordComposer F E) := do
  let key ← composer.key.load loadText draft.key
  let value ← composer.value.load loadText draft.value
  let loaded :=
    { composer with headersPane := HeadersPane.load draft.headers, key := key, value := value }
  let _ ← loaded.summaryProblems py
  return loaded

omit [PyFloat F] in
def outgoingRecord (composer : RecordComposer F E) : Outcome Outgoing := do
  match composer.headersPane.unnamedProblem with
  | some problem => return .invalidHeader problem
  | none =>
    match ← composer.key.validation with
    | .error message => return .invalidField (text "Key", message)
    | .ok key =>
      match ← composer.value.validation with
      | .error message => return .invalidField (text "Value", message)
      | .ok value =>
        return .record { key := key, value := value, headers := composer.headersPane.headers
                         partition := composer.partition }

end RecordComposer

end Composer

section Parsing

variable {F E : Type}

def IsHeader (item : Value F E) (header : HeaderEntry) : Prop :=
  ∃ fields, item = .dict fields ∧ Value.getItem? fields (text "key") = some (.str header.1) ∧
    Value.getItem? fields (text "value") = some (header.2.elim .null .str)

def HeadersOf (document : Value F E) (headers : List HeaderEntry) : Prop :=
  ∃ fields, document = .dict fields ∧
    ((Value.getItem? fields (text "headers") = none ∧ headers = []) ∨
      ∃ items, Value.getItem? fields (text "headers") = some (.list items) ∧
        List.Forall₂ IsHeader items headers)

/-- Only known fields are let through. -/
theorem rejectUnknown_ok {document : List (Text × Value F E)} {allowed : List Text}
    (h : document.all fun field => allowed.contains field.1) (subject : Text) :
    rejectUnknown document allowed subject = .ok () := by
  have hnone : (document.map Prod.fst).filter (!allowed.contains ·) = [] := by
    rw [List.filter_eq_nil_iff]
    intro name hname
    obtain ⟨field, hfield, rfl⟩ := List.mem_map.mp hname
    have hallowed : allowed.contains field.1 = true := List.all_eq_true.mp h field hfield
    rw [hallowed]
    exact Bool.false_ne_true
  rw [rejectUnknown, unknownFields, hnone, List.mergeSort_nil]

theorem parseHeader_ok {index : ℕ} {item : Value F E} {header : HeaderEntry}
    (h : parseHeader index item = .ok header) : IsHeader item header := by
  cases item with
  | dict fields =>
    rw [parseHeader] at h
    split_ifs at h
    split at h
    · rename_i name value hname hvalue
      cases h
      exact ⟨fields, rfl, hname, hvalue⟩
    · rename_i name hname hvalue
      cases h
      exact ⟨fields, rfl, hname, hvalue⟩
    · cases h
  | _ => cases h

theorem parseHeadersFrom_ok {index : ℕ} {items : List (Value F E)} {headers : List HeaderEntry}
    (h : parseHeadersFrom index items = .ok headers) : List.Forall₂ IsHeader items headers := by
  induction items generalizing index headers with
  | nil =>
    cases h
    exact .nil
  | cons item items ih =>
    rw [parseHeadersFrom] at h
    cases hheader : parseHeader index item with
    | error e =>
      rw [hheader] at h
      cases h
    | ok header =>
      cases hrest : parseHeadersFrom (index + 1) items with
      | error e =>
        rw [hheader, hrest] at h
        cases h
      | ok rest =>
        rw [hheader, hrest] at h
        cases h
        exact .cons (parseHeader_ok hheader) (ih hrest)

theorem parseDocument_headers {document : Value F E} {draft : RecordDraft F E}
    (h : parseDocument document = .ok draft) : HeadersOf document draft.headers := by
  cases document with
  | dict fields =>
    rw [parseDocument] at h
    refine ⟨fields, rfl, ?_⟩
    generalize rejectUnknown fields _ _ = rejected at h
    cases rejected with
    | error e => cases h
    | ok _ =>
      cases hheaders : parseHeaders (Value.getItem? fields (text "headers")) with
      | error e =>
        rw [hheaders] at h
        cases h
      | ok headers =>
        rw [hheaders] at h
        generalize parseField (text "key") _ = key, parseField (text "value") _ = value at h
        cases key with
        | error e => cases h
        | ok key =>
          cases value with
          | error e => cases h
          | ok value =>
            cases h
            cases hget : Value.getItem? fields (text "headers") with
            | none =>
              rw [hget] at hheaders
              cases hheaders
              exact .inl ⟨rfl, rfl⟩
            | some found =>
              rw [hget] at hheaders
              cases found with
              | list items => exact .inr ⟨items, rfl, parseHeadersFrom_ok hheaders⟩
              | _ => cases hheaders
  | _ => cases h

end Parsing

namespace HeadersPane

@[simp] theorem entry_ofHeader (header : HeaderEntry) : (HeaderRow.ofHeader header).entry = header := by
  obtain ⟨name, value⟩ := header
  cases value <;> rfl

/-- The name of the header is missing, though it has a value or null. -/
def Unnamed (header : HeaderEntry) : Prop := header.1 = [] ∧ header.2 ≠ some []

@[simp] theorem isUnnamed_ofHeader {header : HeaderEntry} :
    (HeaderRow.ofHeader header).isUnnamed ↔ Unnamed header := by
  obtain ⟨name, value⟩ := header
  rw [HeaderRow.isUnnamed, HeaderRow.isBlank, entry_ofHeader, Unnamed, Bool.and_eq_true,
    Bool.not_eq_true', decide_eq_false_iff_not, decide_eq_true_iff, Prod.mk.injEq, and_comm]
  exact and_congr_right fun hname => not_congr (and_iff_right hname)

/-- The rows lose the headers that look like the blank row. -/
theorem headers_load (headers : List HeaderEntry) :
    (load headers).headers = headers.filter (· ≠ ([], some [])) := by
  have hblank : (fun header => !(HeaderRow.ofHeader header).isBlank) =
      fun header => decide (header ≠ ([], some [])) := by
    funext header
    rw [HeaderRow.isBlank, entry_ofHeader]
    exact decide_not.symm
  have hentries : HeaderRow.entry ∘ HeaderRow.ofHeader = id := funext entry_ofHeader
  rw [HeadersPane.headers, load, List.filter_append, List.map_append, List.filter_map, List.map_map,
    hentries, List.map_id]
  refine (congrArg₂ _ ?_ rfl).trans (List.append_nil _)
  exact congrArg (List.filter · headers) hblank

theorem unnamedProblem_load (headers : List HeaderEntry) :
    (load headers).unnamedProblem.isSome ↔ ∃ header ∈ headers, Unnamed header := by
  rw [unnamedProblem, Option.isSome_map, unnamedRow, List.find?_isSome, load]
  constructor
  · rintro ⟨row, hrow, hunnamed⟩
    rcases List.mem_append.mp hrow with hrow | hrow
    · obtain ⟨header, hheader, rfl⟩ := List.mem_map.mp hrow
      exact ⟨header, hheader, isUnnamed_ofHeader.mp hunnamed⟩
    · obtain rfl := List.mem_singleton.mp hrow
      cases hunnamed
  · rintro ⟨header, hheader, hunnamed⟩
    exact ⟨_, List.mem_append_left _ (List.mem_map_of_mem hheader), isUnnamed_ofHeader.mpr hunnamed⟩

/-- The problem counts to the first header that needs a name. -/
theorem unnamedProblem_load_eq {before after : List HeaderEntry} {header : HeaderEntry}
    (hbefore : ∀ earlier ∈ before, ¬ Unnamed earlier) (hheader : Unnamed header) :
    (load (before ++ header :: after)).unnamedProblem =
      some (text "Header " ++ natText (before.length + 1), text "Needs a name") := by
  have hfound : (load (before ++ header :: after)).unnamedProblem.isSome :=
    (unnamedProblem_load _).mpr ⟨header, List.mem_append_right before List.mem_cons_self, hheader⟩
  have hnone : (before.map HeaderRow.ofHeader).findIdx (·.isUnnamed) = before.length := by
    rw [List.findIdx_eq_length_of_false, List.length_map]
    intro row hrow
    obtain ⟨earlier, hearlier, rfl⟩ := List.mem_map.mp hrow
    exact Bool.eq_false_iff.mpr fun h => hbefore earlier hearlier (isUnnamed_ofHeader.mp h)
  have hindex : (load (before ++ header :: after)).rows.findIdx (·.isUnnamed) = before.length := by
    rw [load, List.map_append, List.append_assoc, List.findIdx_append, hnone, List.length_map,
      if_neg (lt_irrefl _), List.map_cons, List.cons_append, List.findIdx_cons,
      isUnnamed_ofHeader.mpr hheader]
    exact Nat.zero_add _
  rw [unnamedProblem, Option.isSome_map] at hfound
  obtain ⟨row, hrow⟩ := Option.isSome_iff_exists.mp hfound
  rw [unnamedProblem, hrow, Option.map_some, hindex]

end HeadersPane

section Producing

variable {F E : Type}

def FieldEditor.Serializes (editor : FieldEditor F E) : Prop := ∃ data, editor.serialize = .ok data

theorem FieldEditor.validation_ok_iff {editor : FieldEditor F E} {data : Option Bytes} :
    editor.validation = .ok (.ok data) ↔ editor.serialize = .ok data := by
  rw [validation]
  cases editor.serialize with
  | error e =>
    simp only [Functor.map, Except.map, Outcome.tryExcept, reduceCtorEq, iff_false]
    split_ifs <;> rintro ⟨⟩
  | ok found => simp [Functor.map, Except.map]

namespace RecordComposer

/-- Schemas that are looked up change what the serializers encode, but not what the editors hold. -/
def resolve (composer : RecordComposer F E) (key value : FieldSerializer F E) : RecordComposer F E :=
  { composer with key := { composer.key with serializer := key }
                  value := { composer.value with serializer := value } }

/-- The record has just these headers, or producing is refused because of a header. -/
def KeepsHeaders (composer : RecordComposer F E) (headers : List HeaderEntry) : Prop :=
  (∃ problem, composer.outgoingRecord = .ok (.invalidHeader problem)) ∨
    ∀ record, composer.outgoingRecord = .ok (.record record) → record.headers = headers

theorem loadDraft_headersPane [PyFloat F] {py : Interpreter F E} {loadText : Text → Text}
    {composer loaded : RecordComposer F E} {draft : RecordDraft F E}
    (h : composer.loadDraft py loadText draft = .ok loaded) :
    loaded.headersPane = HeadersPane.load draft.headers := by
  rw [loadDraft] at h
  cases hkey : composer.key.load loadText draft.key with
  | error e =>
    rw [hkey] at h
    cases h
  | ok key =>
    cases hvalue : composer.value.load loadText draft.value with
    | error e =>
      rw [hkey, hvalue] at h
      cases h
    | ok value =>
      rw [hkey, hvalue] at h
      simp only [bind, Except.bind] at h
      split at h
      · cases h
      · cases h
        rfl

theorem outgoingRecord_named {composer : RecordComposer F E}
    (hnamed : composer.headersPane.unnamedProblem = none) :
    (∃ key value, composer.key.serialize = .ok key ∧ composer.value.serialize = .ok value ∧
        composer.outgoingRecord = .ok (.record
          { key := key, value := value, headers := composer.headersPane.headers
            partition := composer.partition })) ∨
      (¬ (composer.key.Serializes ∧ composer.value.Serializes) ∧ ∀ outgoing,
        composer.outgoingRecord = .ok outgoing → ∃ problem, outgoing = .invalidField problem) := by
  simp only [FieldEditor.Serializes, ← FieldEditor.validation_ok_iff]
  rw [outgoingRecord, hnamed]
  cases composer.key.validation with
  | error e => exact .inr (by simp [bind, Except.bind])
  | ok keyResult =>
    cases keyResult with
    | error message => exact .inr (by simp [bind, Except.bind, pure, Except.pure, eq_comm])
    | ok key =>
      cases composer.value.validation with
      | error e => exact .inr (by simp [bind, Except.bind])
      | ok valueResult =>
        cases valueResult with
        | error message => exact .inr (by simp [bind, Except.bind, pure, Except.pure, eq_comm])
        | ok value => exact .inl ⟨key, value, rfl, rfl, rfl⟩

theorem outgoingRecord_invalidHeader_iff {composer : RecordComposer F E} {problem : Problem} :
    composer.outgoingRecord = .ok (.invalidHeader problem) ↔
      composer.headersPane.unnamedProblem = some problem := by
  cases hnamed : composer.headersPane.unnamedProblem with
  | some found => simp [outgoingRecord, hnamed, pure, Except.pure]
  | none =>
    refine ⟨fun h => ?_, nofun⟩
    rcases outgoingRecord_named hnamed with ⟨key, value, -, -, hrecord⟩ | ⟨-, hfield⟩
    · cases hrecord.symm.trans h
    · obtain ⟨field, hfield⟩ := hfield _ h
      cases hfield

/-- A record is produced if no header needs a name and both fields can be encoded. -/
theorem outgoingRecord_record_iff {composer : RecordComposer F E} {record : OutgoingRecord} :
    composer.outgoingRecord = .ok (.record record) ↔
      composer.headersPane.unnamedProblem = none ∧ ∃ key value,
        composer.key.serialize = .ok key ∧ composer.value.serialize = .ok value ∧
        record = { key := key, value := value, headers := composer.headersPane.headers
                   partition := composer.partition } := by
  cases hnamed : composer.headersPane.unnamedProblem with
  | some problem => simp [outgoingRecord, hnamed, pure, Except.pure]
  | none =>
    rcases outgoingRecord_named hnamed with ⟨key, value, hkey, hvalue, hrecord⟩ | ⟨hnot, hfield⟩
    · rw [hrecord, hkey, hvalue]
      simp [eq_comm]
    · constructor
      · intro h
        obtain ⟨field, hfield⟩ := hfield _ h
        cases hfield
      · rintro ⟨-, key, value, hkey, hvalue, -⟩
        exact absurd ⟨⟨key, hkey⟩, value, hvalue⟩ hnot

/-- The headers of a draft are kept unless a blank one is lost: no header looks like the blank row,
or a header needs a name, or nothing can be produced at all. -/
theorem keepsHeaders_load {composer : RecordComposer F E} {headers : List HeaderEntry}
    (hpane : composer.headersPane = HeadersPane.load headers) :
    composer.KeepsHeaders headers ↔
      ([], some []) ∉ headers ∨ (∃ header ∈ headers, header.1 = [] ∧ header.2 ≠ some []) ∨
        ¬ (composer.key.Serializes ∧ composer.value.Serializes) := by
  have hproblem := HeadersPane.unnamedProblem_load headers
  have hheaders := HeadersPane.headers_load headers
  rw [← hpane] at hproblem hheaders
  constructor
  · rintro (⟨problem, hrefused⟩ | hkeeps)
    · refine .inr (.inl (hproblem.mp ?_))
      rw [outgoingRecord_invalidHeader_iff.mp hrefused]
      rfl
    · by_contra hnot
      simp only [not_or, not_not] at hnot
      obtain ⟨hblank, hnamed, ⟨key, hkey⟩, value, hvalue⟩ := hnot
      have hnone : composer.headersPane.unnamedProblem = none := by
        rw [← Option.not_isSome_iff_eq_none, hproblem]
        exact hnamed
      have hkept := hkeeps _ (outgoingRecord_record_iff.mpr ⟨hnone, key, value, hkey, hvalue, rfl⟩)
      rw [hheaders, List.filter_eq_self] at hkept
      exact absurd (hkept _ hblank) (by simp)
  · rintro (hblank | hunnamed | hfields)
    · refine .inr fun record hrecord => ?_
      obtain ⟨-, key, value, -, -, rfl⟩ := outgoingRecord_record_iff.mp hrecord
      rw [hheaders, List.filter_eq_self]
      rintro header hheader
      exact decide_eq_true fun hsame => hblank (hsame ▸ hheader)
    · obtain ⟨problem, hfound⟩ := Option.isSome_iff_exists.mp (hproblem.mpr hunnamed)
      exact .inl ⟨problem, outgoingRecord_invalidHeader_iff.mpr hfound⟩
    · refine .inr fun record hrecord => absurd ?_ hfields
      obtain ⟨-, key, value, hkey, hvalue, -⟩ := outgoingRecord_record_iff.mp hrecord
      exact ⟨⟨key, hkey⟩, value, hvalue⟩

/-- The headers of a document that the composer has loaded are produced as they are, or producing is
refused because of one, just when none is blank, or one needs a name, or a field cannot be encoded. -/
theorem keepsHeaders_iff [PyFloat F] {py : Interpreter F E} {file : SchemaFile}
    {draft : RecordDraft F E} (hdraft : Kaskade.loadDraft py file = .ok draft) {loadText : Text → Text}
    {composer loaded : RecordComposer F E} (hloaded : composer.loadDraft py loadText draft = .ok loaded)
    (key value : FieldSerializer F E) :
    ∃ document headers, readDocument py file = .ok document ∧ HeadersOf document headers ∧
      ((loaded.resolve key value).KeepsHeaders headers ↔
        ([], some []) ∉ headers ∨ (∃ header ∈ headers, header.1 = [] ∧ header.2 ≠ some []) ∨
          ¬ ((loaded.resolve key value).key.Serializes ∧ (loaded.resolve key value).value.Serializes)) := by
  rw [Kaskade.loadDraft] at hdraft
  cases hread : (readDocument py file : Outcome (Value F E)) with
  | error e =>
    rw [hread] at hdraft
    cases hdraft
  | ok document =>
    rw [hread] at hdraft
    have hpane : loaded.headersPane = HeadersPane.load draft.headers := loadDraft_headersPane hloaded
    exact ⟨document, draft.headers, rfl, parseDocument_headers hdraft, keepsHeaders_load hpane⟩

def ofTexts : RecordComposer FloatRepr Empty where
  headersPane := ⟨[.ofHeader ([], some [])]⟩
  key := ⟨textSerializer, false, []⟩
  value := ⟨textSerializer, false, []⟩
  partition := none
where
  textSerializer : FieldSerializer FloatRepr Empty :=
    { draftText := fun
        | .str content => .ok content
        | content => Interpreter.plain.dumps .readable false content
      serialize := Interpreter.plain.encodeUtf8 }

def blankHeader : Value FloatRepr Empty :=
  .dict [(text "headers", .list [header "a" (.str (text "1")), header "a" .null,
    header "" (.str [])])]
where
  header (name : String) (value : Value FloatRepr Empty) : Value FloatRepr Empty :=
    .dict [(text "key", .str (text name)), (text "value", value)]

def blankHeaderDraft : RecordDraft FloatRepr Empty where
  headers := [(text "a", some (text "1")), (text "a", none), ([], some [])]

theorem loadDraft_blankHeader :
    Kaskade.loadDraft Interpreter.plain (jsonFile (text "record.json") blankHeader) =
      .ok blankHeaderDraft := by
  have htext : (jsonFile (text "record.json") blankHeader).readText Interpreter.plain =
      .ok (dumps .compact (fun _ => []) blankHeader) :=
    readText_jsonFile Interpreter.plain _ (by decide) (by decide)
  have hloads : Python.loads Interpreter.plain.jsonLimits (dumps .compact (fun _ => []) blankHeader) =
      .ok (blankHeader.shown fun _ => []) :=
    loads_dumps _ _ _ (by decide) (by decide) (by decide)
  rw [Kaskade.loadDraft, readDocument, htext]
  simp only [Outcome.tryExcept_ok, bind, Except.bind, hloads]
  change parseDocument blankHeader = _
  rw [blankHeader, parseDocument, rejectUnknown_ok (by decide)]
  rfl

def blankHeaderLoaded : RecordComposer FloatRepr Empty where
  headersPane := HeadersPane.load blankHeaderDraft.headers
  key := ⟨ofTexts.textSerializer, true, []⟩
  value := ⟨ofTexts.textSerializer, true, []⟩
  partition := none

theorem loadDraft_blankHeaderLoaded :
    ofTexts.loadDraft Interpreter.plain id blankHeaderDraft = .ok blankHeaderLoaded := rfl

theorem keepsHeaders_iff_blankHeader :
    ∃ document headers, readDocument Interpreter.plain (jsonFile (text "record.json") blankHeader) =
        .ok document ∧ HeadersOf document headers ∧
      ((blankHeaderLoaded.resolve ofTexts.textSerializer ofTexts.textSerializer).KeepsHeaders headers ↔
        ([], some []) ∉ headers ∨ (∃ header ∈ headers, header.1 = [] ∧ header.2 ≠ some []) ∨
          ¬ ((blankHeaderLoaded.resolve ofTexts.textSerializer ofTexts.textSerializer).key.Serializes ∧
            (blankHeaderLoaded.resolve ofTexts.textSerializer
              ofTexts.textSerializer).value.Serializes)) :=
  keepsHeaders_iff loadDraft_blankHeader loadDraft_blankHeaderLoaded _ _

/-- The last header of the document is dropped. -/
theorem not_keepsHeaders_blankHeader :
    Kaskade.loadDraft Interpreter.plain (jsonFile (text "record.json") blankHeader) =
        .ok blankHeaderDraft ∧
      ofTexts.loadDraft Interpreter.plain id blankHeaderDraft = .ok blankHeaderLoaded ∧
      blankHeaderLoaded.outgoingRecord =
        .ok (.record ⟨none, none, [(text "a", some (text "1")), (text "a", none)], none⟩) ∧
      ¬ blankHeaderLoaded.KeepsHeaders blankHeaderDraft.headers := by
  refine ⟨loadDraft_blankHeader, loadDraft_blankHeaderLoaded, rfl, ?_⟩
  rw [keepsHeaders_load rfl]
  rintro (hblank | ⟨header, hheader, hname, hvalue⟩ | hfields)
  · exact hblank (by decide)
  · simp only [blankHeaderDraft, List.mem_cons, List.not_mem_nil, or_false] at hheader
    rcases hheader with rfl | rfl | rfl
    · cases hname
    · cases hname
    · exact hvalue rfl
  · exact hfields ⟨⟨none, rfl⟩, none, rfl⟩

end RecordComposer

end Producing

end Kaskade
