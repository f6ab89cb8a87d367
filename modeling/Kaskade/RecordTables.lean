import Kaskade.ConsumerRecords
import Kaskade.Dictionaries

/-!
# The records table

`ListRecords` shows the records of the pages that it consumes: `self.records` keeps them under their
partition and offset, and a table has a row for each of them.
-/

namespace Kaskade

open Python

variable {F E : Type}

inductive ContentCell where
  | null
  | content (shown : Text)
  | warning (shown : Text)

/-- `_record_row`; the size is in bytes, and shown in larger units. -/
structure RecordRow where
  key : ContentCell
  value : ContentCell
  size : ℕ
  timestamp : Text
  partition : Text
  offset : Text
  headers : Text

structure TableRow where
  key : Text
  cells : RecordRow

structure RecordDataTable where
  rows : List TableRow := []
  /-- The tooltips by row and column. -/
  cellTooltips : List ((ℕ × ℕ) × Text) := []

def RecordDataTable.addRow (table : RecordDataTable) (cells : RecordRow) (key : Text) :
    Outcome RecordDataTable :=
  if table.rows.any (·.key = key) then .error ⟨.duplicateKey, text "The row key " ++ key ++
    text " already exists."⟩
  else .ok { table with rows := table.rows ++ [⟨key, cells⟩] }

def RecordDataTable.setCellTooltip (table : RecordDataTable) (row column : ℕ) (tooltip : Text) :
    RecordDataTable :=
  { table with cellTooltips := Dictionary.setItem table.cellTooltips (row, column) tooltip }

section Rows

variable (py : Interpreter F E)

def contentCell (outcome : DeserializationOutcome F E) : Outcome ContentCell :=
  match outcome.content with
  | .null => .ok .null
  | _ => (outcome.contentStr py).map fun shown =>
    if outcome.usedFallback then .warning (text "\u26a0 " ++ strip shown) else .content (strip shown)

def recordPayloadSize (record : Record F E) : Outcome ℕ := do
  let names ← record.headers.mapM fun header => py.encodeUtf8 header.key
  return (record.key.getD []).length + (record.value.getD []).length +
    (names.map List.length).sum + (record.headers.map fun header => (header.value.getD []).length).sum

/-- `str(record)`. -/
def Record.id (record : Record F E) : Text :=
  intText record.partition ++ chr '/' :: intText record.offset

/-- `_record_row`; `localTime` is `astimezone().strftime(...)[:-3]`. -/
def recordRow (localTime : UtcDateTime → Outcome Text) (record : Record F E) : Outcome RecordRow := do
  record.resolveDeserializations
  let key ← record.keyOutcome
  let value ← record.valueOutcome
  let keyCell ← contentCell py key
  let valueCell ← contentCell py value
  let size ← recordPayloadSize py record
  let timestamp ← match record.timestamp with
    | none => pure []
    | some timestamp => localTime timestamp
  return { key := keyCell, value := valueCell, size := size
           timestamp := timestamp, partition := intText record.partition
           offset := intText record.offset, headers := natText record.headers.length }

def tooltipRecord (record : Record F E) : Text :=
  text "\nRecord: " ++ record.topic ++ text "[" ++ intText record.partition ++ text "][" ++
    intText record.offset ++ text "]"

/-- `_warning_tooltip`, with the title of the field. -/
def warningTooltip (record : Record F E) (title : Text) (outcome : DeserializationOutcome F E)
    (error : PyException) : Text :=
  text "\u26a0 " ++ title ++ text " Deserialization Warning" ++ tooltipRecord record ++
    text "\nRequested: " ++ outcome.requested.name ++ text "\nFallback: " ++
    Deserialization.bytes.name ++ text "\nEncoding: " ++ outcome.bytesEncoding.name ++
    text "\nError: " ++ error.message

/-- `_null_tooltip`, with the title of the field and what is null about it. -/
def nullTooltip (record : Record F E) (title reason : Text) : Text :=
  text "Null " ++ title ++ tooltipRecord record ++ text "\n" ++ reason

/-- One turn of the loop of `_add_cell_tooltips`. -/
def addFieldTooltip (record : Record F E) (row column : ℕ) (title reason : Text)
    (outcome : DeserializationOutcome F E) (table : RecordDataTable) : RecordDataTable :=
  match outcome.error, outcome.content with
  | some error, _ => table.setCellTooltip row column (warningTooltip record title outcome error)
  | none, .null => table.setCellTooltip row column (nullTooltip record title reason)
  | none, _ => table

def addCellTooltips (table : RecordDataTable) (row : ℕ) (record : Record F E) :
    Outcome RecordDataTable := do
  let key ← record.keyOutcome
  let value ← record.valueOutcome
  return addFieldTooltip record row 1 (text "Value") (text "This Kafka record is a tombstone") value
    (addFieldTooltip record row 0 (text "Key") (text "This Kafka record has no key") key table)

end Rows

/-- What `ListRecords` shows. -/
structure ListRecords (F E : Type) where
  /-- `self.records`. -/
  records : List (Text × Record F E) := []
  table : RecordDataTable := {}
  currentRecord : Option (Record F E) := none
  /-- The errors that `notify_error` has shown. -/
  notified : List PyException := []

def consumerExceptions : List ExceptionClass := [.kafkaException, .partitionSelectionError]

namespace ListRecords

/-- `_filter`, as far as what is shown. -/
def filter (list : ListRecords F E) : ListRecords F E :=
  { list with records := [], table := {}, currentRecord := none }

section Consuming

variable (py : Interpreter F E) (localTime : UtcDateTime → Outcome Text)

/-- The body of the loop of `consume_records`. -/
def showRecord (record : Record F E) (list : ListRecords F E) : Outcome Unit × ListRecords F E :=
  let list := { list with records := Dictionary.setItem list.records record.id record }
  let row := list.table.rows.length
  match recordRow py localTime record >>= fun cells => list.table.addRow cells record.id with
  | .error e => (.error e, list)
  | .ok table =>
    match addCellTooltips table row record with
    | .error e => (.error e, { list with table := table })
    | .ok table => (.ok (), { list with table := table })

/-- The loop of `consume_records`. -/
def showRecords : List (Record F E) → ListRecords F E → Outcome Unit × ListRecords F E
  | [], list => (.ok (), list)
  | record :: records, list =>
    match showRecord py localTime record list with
    | (.error e, list) => (.error e, list)
    | (.ok (), list) => showRecords records list

/-- `consume_records`, given what `consume()` returns or raises. -/
def consumeRecords (page : Outcome (List (Record F E))) (list : ListRecords F E) :
    Outcome Unit × ListRecords F E :=
  let shown : Outcome Unit × ListRecords F E := match page with
    | .error e => (.error e, list)
    | .ok records => showRecords py localTime records list
  match shown with
  | (.ok (), list) => (.ok (), list)
  | (.error e, list) =>
    if e.isInstance consumerExceptions then (.ok (), { list with notified := list.notified ++ [e] })
    else (.error e, list)

end Consuming

/-- The row of `select_record`. -/
def selectRecord (list : ListRecords F E) (record : Record F E) : Option ℕ :=
  let row := (list.records.map Prod.fst).idxOf record.id
  if row < list.records.length then some row else none

/-- `on_data_table_row_highlighted`. -/
def highlight (list : ListRecords F E) (row : TableRow) : ListRecords F E :=
  { list with currentRecord := (list.records.find? (·.1 = row.key)).map Prod.snd }

end ListRecords

section Aligning

variable {py : Interpreter F E} {localTime : UtcDateTime → Outcome Text}

/-- The content of the field is decoded, and `str` prints it unless there is none. -/
def ShowsContent (py : Interpreter F E) (field : Outcome (DeserializationOutcome F E)) : Prop :=
  ∃ outcome, field = .ok outcome ∧
    (outcome.content = .null ∨ ∃ shown, outcome.contentStr py = .ok shown)

/-- The row of the record can be built: its fields are decoded and printed, its header names are
encodable, and its timestamp can be shown in local time. -/
structure RowBuilds (py : Interpreter F E) (localTime : UtcDateTime → Outcome Text)
    (record : Record F E) : Prop where
  key : ShowsContent py record.keyOutcome
  value : ShowsContent py record.valueOutcome
  headers : ∀ header ∈ record.headers, ∃ name, py.encodeUtf8 header.key = .ok name
  timestamp : ∀ timestamp, record.timestamp = some timestamp → ∃ shown, localTime timestamp = .ok shown

def ShowsEntry (py : Interpreter F E) (localTime : UtcDateTime → Outcome Text)
    (entry : Text × Record F E) (row : TableRow) : Prop :=
  row.key = entry.1 ∧ recordRow py localTime entry.2 = .ok row.cells

/-- The rows show the values of `self.records` in their order. -/
def ListRecords.Aligned (py : Interpreter F E) (localTime : UtcDateTime → Outcome Text)
    (list : ListRecords F E) : Prop :=
  List.Forall₂ (ShowsEntry py localTime) list.records list.table.rows

/-- No call of `consume_records` fails, and the rows are aligned after each of them. -/
def ListRecords.StaysAligned (py : Interpreter F E) (localTime : UtcDateTime → Outcome Text) :
    List (Outcome (List (Record F E))) → ListRecords F E → Prop
  | [], list => list.Aligned py localTime
  | page :: pages, list => list.Aligned py localTime ∧
      (list.consumeRecords py localTime page).1 = .ok () ∧
      StaysAligned py localTime pages (list.consumeRecords py localTime page).2

/-- The records of the pages that `consume()` returned. -/
def returnedRecords (pages : List (Outcome (List (Record F E)))) : List (Record F E) :=
  pages.flatMap fun
    | .ok records => records
    | .error _ => []

theorem recordPayloadSize_returns_iff {record : Record F E} :
    (∃ size, recordPayloadSize py record = .ok size) ↔
      ∀ header ∈ record.headers, ∃ name, py.encodeUtf8 header.key = .ok name := by
  rw [← Outcome.mapM_returns_iff, recordPayloadSize]
  cases record.headers.mapM fun header => py.encodeUtf8 header.key with
  | error e => simp [bind, Except.bind]
  | ok names => simp [bind, Except.bind, pure, Except.pure]

theorem contentCell_returns_iff {outcome : DeserializationOutcome F E} :
    (∃ cell, contentCell py outcome = .ok cell) ↔
      outcome.content = .null ∨ ∃ shown, outcome.contentStr py = .ok shown := by
  rw [contentCell]
  cases hcontent : outcome.content with
  | null => simp
  | _ => cases outcome.contentStr py <;> simp [Except.map]

theorem showsContent_iff {field : Outcome (DeserializationOutcome F E)} :
    ShowsContent py field ↔ ∃ outcome cell, field = .ok outcome ∧ contentCell py outcome = .ok cell := by
  simp only [ShowsContent, ← contentCell_returns_iff, exists_and_left]

theorem recordRow_returns_iff {record : Record F E} :
    (∃ cells, recordRow py localTime record = .ok cells) ↔ RowBuilds py localTime record := by
  have hbuilds : RowBuilds py localTime record ↔
      ShowsContent py record.keyOutcome ∧ ShowsContent py record.valueOutcome ∧
        (∃ size, recordPayloadSize py record = .ok size) ∧
        ∀ timestamp, record.timestamp = some timestamp → ∃ shown, localTime timestamp = .ok shown := by
    rw [recordPayloadSize_returns_iff]
    exact ⟨fun h => ⟨h.key, h.value, h.headers, h.timestamp⟩, fun h => ⟨h.1, h.2.1, h.2.2.1, h.2.2.2⟩⟩
  rw [hbuilds, recordRow, Record.resolveDeserializations, showsContent_iff, showsContent_iff]
  cases record.keyOutcome with
  | error e => simp [bind, Except.bind]
  | ok key =>
    cases record.valueOutcome with
    | error e => simp [bind, Except.bind]
    | ok value =>
      cases hkey : contentCell py key with
      | error e => simp [hkey, bind, Except.bind, pure, Except.pure]
      | ok keyCell =>
        cases hvalue : contentCell py value with
        | error e => simp [hkey, hvalue, bind, Except.bind, pure, Except.pure]
        | ok valueCell =>
          cases recordPayloadSize py record with
          | error e => simp [hkey, hvalue, bind, Except.bind, pure, Except.pure]
          | ok size =>
            cases record.timestamp with
            | none => simp [hkey, hvalue, bind, Except.bind, pure, Except.pure]
            | some timestamp =>
              cases hshown : localTime timestamp <;>
                simp [hkey, hvalue, hshown, bind, Except.bind, pure, Except.pure]

@[simp] theorem addFieldTooltip_rows (record : Record F E) (row column : ℕ) (title reason : Text)
    (outcome : DeserializationOutcome F E) (table : RecordDataTable) :
    (addFieldTooltip record row column title reason outcome table).rows = table.rows := by
  rw [addFieldTooltip]
  split <;> rfl

theorem addCellTooltips_ok {record : Record F E} (h : RowBuilds py localTime record)
    (table : RecordDataTable) (row : ℕ) :
    ∃ table', addCellTooltips table row record = .ok table' ∧ table'.rows = table.rows := by
  obtain ⟨key, hkey, -⟩ := h.key
  obtain ⟨value, hvalue, -⟩ := h.value
  rw [addCellTooltips, hkey, hvalue]
  exact ⟨_, rfl, by simp⟩

theorem slash_notMem_intText (i : ℤ) : chr '/' ∉ intText i := by
  rw [intText_eq, List.mem_append, not_or]
  refine ⟨?_, fun h => absurd (isDigit_of_mem_natText h) (by decide)⟩
  split_ifs
  · decide
  · exact List.not_mem_nil

theorem positionText_injective :
    Function.Injective fun position : ℤ × ℤ => intText position.1 ++ chr '/' :: intText position.2 := by
  rintro ⟨partition, offset⟩ ⟨partition', offset'⟩ h
  obtain ⟨hpartition, -, hoffset⟩ := (List.append_cons_inj_of_notMem (slash_notMem_intText partition)
    (slash_notMem_intText offset)).mp h
  exact Prod.ext (intText_injective hpartition) (intText_injective hoffset)

/-- The keys of records are distinct just when their partitions and offsets are. -/
theorem nodup_ids_iff {records : List (Record F E)} :
    (records.map Record.id).Nodup ↔
      (records.map fun record => (record.partition, record.offset)).Nodup := by
  rw [← List.nodup_map_iff positionText_injective, List.map_map]
  rfl

namespace ListRecords

/-- The list shows these records, which are told apart by their keys. -/
structure ShowsAll (py : Interpreter F E) (localTime : UtcDateTime → Outcome Text)
    (shown : List (Record F E)) (list : ListRecords F E) : Prop where
  records : list.records = shown.map fun record => (record.id, record)
  aligned : list.Aligned py localTime
  distinct : (shown.map Record.id).Nodup

/-- The further records can be shown: their rows can be built, and all keys stay distinct. -/
structure Fits (py : Interpreter F E) (localTime : UtcDateTime → Outcome Text)
    (shown further : List (Record F E)) : Prop where
  builds : ∀ record ∈ further, RowBuilds py localTime record
  distinct : ((shown ++ further).map Record.id).Nodup

theorem Aligned.keys {list : ListRecords F E} (h : list.Aligned py localTime) :
    list.table.rows.map TableRow.key = list.records.map Prod.fst := by
  rw [← List.forall₂_eq_eq_eq, List.forall₂_map_left_iff, List.forall₂_map_right_iff]
  exact h.flip.imp fun _ _ hshows => hshows.1

theorem exists_shows {entries : List (Text × Record F E)} {rows : List TableRow}
    (h : List.Forall₂ (ShowsEntry py localTime) entries rows) {entry : Text × Record F E}
    (hentry : entry ∈ entries) : ∃ row, ShowsEntry py localTime entry row := by
  induction h with
  | nil => cases hentry
  | @cons first row entries rows hshows _ ih =>
    rcases List.mem_cons.mp hentry with rfl | hlater
    · exact ⟨row, hshows⟩
    · exact ih hlater

theorem ShowsAll.keys {shown : List (Record F E)} {list : ListRecords F E}
    (h : ShowsAll py localTime shown list) :
    list.table.rows.map TableRow.key = shown.map Record.id := by
  rw [h.aligned.keys, h.records, List.map_map]
  rfl

theorem showRecord_fits {shown : List (Record F E)} {list : ListRecords F E}
    (h : ShowsAll py localTime shown list) {record : Record F E}
    (hbuilds : RowBuilds py localTime record) (hnew : record.id ∉ shown.map Record.id) :
    ∃ list', list.showRecord py localTime record = (.ok (), list') ∧
      ShowsAll py localTime (shown ++ [record]) list' := by
  obtain ⟨cells, hcells⟩ := recordRow_returns_iff.mpr hbuilds
  have hrecords : Dictionary.setItem list.records record.id record =
      list.records ++ [(record.id, record)] := by
    refine Dictionary.setItem_new ?_ record
    rwa [h.records, List.map_map]
  have hkey : list.table.rows.any (·.key = record.id) = false := by
    rw [List.any_eq_false]
    intro row hrow hsame
    refine hnew ?_
    rw [← h.keys, ← of_decide_eq_true hsame]
    exact List.mem_map_of_mem hrow
  obtain ⟨table, htable, hrows⟩ := addCellTooltips_ok hbuilds
    { list.table with rows := list.table.rows ++ [⟨record.id, cells⟩] } list.table.rows.length
  refine ⟨{ list with records := list.records ++ [(record.id, record)], table := table }, ?_, ?_⟩
  · simp only [showRecord, hrecords, hcells, bind, Except.bind, RecordDataTable.addRow, hkey,
      Bool.false_eq_true, if_false, htable]
  · refine ⟨?_, ?_, ?_⟩
    · simp [h.records]
    · rw [Aligned, hrows]
      exact List.rel_append h.aligned (.cons ⟨rfl, hcells⟩ .nil)
    · rw [List.map_append, List.map_singleton, ← List.concat_eq_append, List.nodup_concat]
      exact ⟨hnew, h.distinct⟩

/-- Any other record makes the call fail, or its entry is left without its row. -/
theorem showRecord_misfits {shown : List (Record F E)} {list : ListRecords F E}
    (h : ShowsAll py localTime shown list) {record : Record F E}
    (hmisfits : ¬ (RowBuilds py localTime record ∧ record.id ∉ shown.map Record.id)) :
    ∃ e list', list.showRecord py localTime record = (.error e, list') ∧
      (e.isInstance consumerExceptions → ¬ list'.Aligned py localTime) := by
  by_cases hbuilds : RowBuilds py localTime record
  · obtain ⟨cells, hcells⟩ := recordRow_returns_iff.mpr hbuilds
    have hold : record.id ∈ shown.map Record.id := by
      by_contra hnew
      exact hmisfits ⟨hbuilds, hnew⟩
    have hkey : list.table.rows.any (·.key = record.id) := by
      rw [← h.keys] at hold
      obtain ⟨row, hrow, hsame⟩ := List.mem_map.mp hold
      exact List.any_eq_true.mpr ⟨row, hrow, decide_eq_true hsame⟩
    refine ⟨⟨.duplicateKey, text "The row key " ++ record.id ++ text " already exists."⟩,
      { list with records := Dictionary.setItem list.records record.id record }, ?_, ?_⟩
    · simp only [showRecord, hcells, bind, Except.bind, RecordDataTable.addRow, hkey, if_true]
    · intro hcaught
      cases hcaught
  · cases hcells : recordRow py localTime record with
    | ok cells => exact absurd (recordRow_returns_iff.mp ⟨cells, hcells⟩) hbuilds
    | error e =>
      refine ⟨e, { list with records := Dictionary.setItem list.records record.id record }, ?_, ?_⟩
      · simp only [showRecord, hcells, bind, Except.bind]
      · rintro - haligned
        have hmem := Dictionary.mem_setItem_self list.records record.id record
        obtain ⟨row, hshows⟩ := exists_shows haligned hmem
        rw [hshows.2] at hcells
        cases hcells

theorem Fits.nil {shown : List (Record F E)} (hshown : (shown.map Record.id).Nodup) :
    Fits py localTime shown [] where
  builds record hrecord := absurd hrecord List.not_mem_nil
  distinct := by rwa [List.append_nil]

theorem Fits.cons_iff {shown further : List (Record F E)} {record : Record F E} :
    Fits py localTime shown (record :: further) ↔
      (RowBuilds py localTime record ∧ record.id ∉ shown.map Record.id) ∧
        Fits py localTime (shown ++ [record]) further := by
  have hsplit : shown ++ record :: further = shown ++ [record] ++ further := by simp
  constructor
  · rintro ⟨hbuilds, hdistinct⟩
    rw [List.forall_mem_cons] at hbuilds
    refine ⟨⟨hbuilds.1, ?_⟩, hbuilds.2, hsplit ▸ hdistinct⟩
    rw [List.map_append, List.map_cons] at hdistinct
    exact fun hmem => (List.disjoint_of_nodup_append hdistinct) hmem List.mem_cons_self
  · rintro ⟨⟨hbuilds, -⟩, hfits⟩
    exact ⟨List.forall_mem_cons.mpr ⟨hbuilds, hfits.builds⟩, hsplit ▸ hfits.distinct⟩

theorem showRecords_fits {shown page : List (Record F E)} {list : ListRecords F E}
    (h : ShowsAll py localTime shown list) (hfits : Fits py localTime shown page) :
    ∃ list', list.showRecords py localTime page = (.ok (), list') ∧
      ShowsAll py localTime (shown ++ page) list' := by
  induction page generalizing shown list with
  | nil => exact ⟨list, rfl, by rwa [List.append_nil]⟩
  | cons record page ih =>
    obtain ⟨⟨hbuilds, hnew⟩, hlater⟩ := Fits.cons_iff.mp hfits
    obtain ⟨next, hnext, hshows⟩ := showRecord_fits h hbuilds hnew
    obtain ⟨list', hlist', hall⟩ := ih hshows hlater
    refine ⟨list', ?_, by rwa [List.append_assoc] at hall⟩
    rw [showRecords, hnext]
    exact hlist'

/-- Of any other page a record makes the call fail, or is left without its row. -/
theorem showRecords_misfits {shown page : List (Record F E)} {list : ListRecords F E}
    (h : ShowsAll py localTime shown list) (hmisfits : ¬ Fits py localTime shown page) :
    ∃ e list', list.showRecords py localTime page = (.error e, list') ∧
      (e.isInstance consumerExceptions → ¬ list'.Aligned py localTime) := by
  induction page generalizing shown list with
  | nil => exact absurd (Fits.nil h.distinct) hmisfits
  | cons record page ih =>
    rw [Fits.cons_iff, not_and] at hmisfits
    by_cases hfirst : RowBuilds py localTime record ∧ record.id ∉ shown.map Record.id
    · obtain ⟨next, hnext, hshows⟩ := showRecord_fits h hfirst.1 hfirst.2
      obtain ⟨e, list', hlist', hcaught⟩ := ih hshows (hmisfits hfirst)
      refine ⟨e, list', ?_, hcaught⟩
      rw [showRecords, hnext]
      exact hlist'
    · obtain ⟨e, list', hlist', hcaught⟩ := showRecord_misfits h hfirst
      refine ⟨e, list', ?_, hcaught⟩
      rw [showRecords, hlist']

/-- A call that raises is reported, and changes nothing else, if the exception is caught. -/
theorem consumeRecords_error (e : PyException) (list : ListRecords F E) :
    list.consumeRecords py localTime (.error e) =
      if e.isInstance consumerExceptions then
        (.ok (), { list with notified := list.notified ++ [e] })
      else (.error e, list) := rfl

theorem ShowsAll.notify {shown : List (Record F E)} {list : ListRecords F E}
    (h : ShowsAll py localTime shown list) (notified : List PyException) :
    ShowsAll py localTime shown { list with notified := notified } :=
  ⟨h.records, h.aligned, h.distinct⟩

/-- What is shown stays aligned just when every exception is caught and all further records fit. -/
theorem ShowsAll.staysAligned_iff_fits {pages : List (Outcome (List (Record F E)))}
    {shown : List (Record F E)} {list : ListRecords F E} (h : ShowsAll py localTime shown list) :
    list.StaysAligned py localTime pages ↔
      (∀ e, .error e ∈ pages → e.isInstance consumerExceptions) ∧
        Fits py localTime shown (returnedRecords pages) := by
  induction pages generalizing shown list with
  | nil =>
    exact ⟨fun _ => ⟨fun e he => absurd he List.not_mem_nil, Fits.nil h.distinct⟩, fun _ => h.aligned⟩
  | cons page pages ih =>
    rw [StaysAligned]
    cases page with
    | error e =>
      have hreturned : returnedRecords (.error e :: pages) = returnedRecords pages := rfl
      rw [hreturned, consumeRecords_error]
      by_cases hcaught : e.isInstance consumerExceptions
      · rw [if_pos hcaught, ih (h.notify _)]
        constructor
        · rintro ⟨-, -, hlater, hfits⟩
          refine ⟨fun e' he' => ?_, hfits⟩
          rcases List.mem_cons.mp he' with he' | he'
          · cases he'
            exact hcaught
          · exact hlater e' he'
        · rintro ⟨hall, hfits⟩
          exact ⟨h.aligned, rfl, fun e' he' => hall e' (List.mem_cons_of_mem _ he'), hfits⟩
      · rw [if_neg hcaught]
        constructor
        · rintro ⟨-, hfails, -⟩
          cases hfails
        · rintro ⟨hall, -⟩
          exact absurd (hall e List.mem_cons_self) hcaught
    | ok records =>
      have hreturned : returnedRecords (.ok records :: pages) = records ++ returnedRecords pages := rfl
      have hsplit : Fits py localTime shown (records ++ returnedRecords pages) ↔
          Fits py localTime shown records ∧ Fits py localTime (shown ++ records) (returnedRecords pages) := by
        constructor
        · rintro ⟨hbuilds, hdistinct⟩
          rw [List.forall_mem_append] at hbuilds
          rw [← List.append_assoc] at hdistinct
          refine ⟨⟨hbuilds.1, ?_⟩, hbuilds.2, hdistinct⟩
          rw [List.map_append] at hdistinct
          exact hdistinct.of_append_left
        · rintro ⟨hfirst, hlater⟩
          refine ⟨List.forall_mem_append.mpr ⟨hfirst.builds, hlater.builds⟩, ?_⟩
          rw [← List.append_assoc]
          exact hlater.distinct
      rw [hreturned, hsplit]
      by_cases hfits : Fits py localTime shown records
      · obtain ⟨next, hnext, hshows⟩ := showRecords_fits h hfits
        have hcall : list.consumeRecords py localTime (.ok records) = (.ok (), next) := by
          rw [consumeRecords, hnext]
        rw [hcall, ih hshows]
        constructor
        · rintro ⟨-, -, hlater, hrest⟩
          refine ⟨fun e he => hlater e ?_, hfits, hrest⟩
          simpa using he
        · rintro ⟨hall, -, hrest⟩
          exact ⟨h.aligned, rfl, fun e he => hall e (List.mem_cons_of_mem _ he), hrest⟩
      · obtain ⟨e, next, hnext, hmisaligned⟩ := showRecords_misfits h hfits
        constructor
        · rintro ⟨-, hreturns, hrest⟩
          rw [consumeRecords, hnext] at hreturns hrest
          dsimp only at hreturns hrest
          split_ifs at hreturns hrest with hcaught
          · have haligned : next.Aligned py localTime := by
              cases pages with
              | nil => exact hrest
              | cons page pages => exact hrest.1
            exact absurd haligned (hmisaligned hcaught)
        · rintro ⟨-, hfirst, -⟩
          exact absurd hfirst hfits

/-- Between two filter changes no call fails and the i-th row shows the i-th record just when the
calls raise nothing but what is caught, every row can be built, and no record comes twice. -/
theorem staysAligned_iff (list : ListRecords F E) (pages : List (Outcome (List (Record F E)))) :
    list.filter.StaysAligned py localTime pages ↔
      (∀ e, .error e ∈ pages → e.isInstance consumerExceptions) ∧
        (∀ record ∈ returnedRecords pages, RowBuilds py localTime record) ∧
        ((returnedRecords pages).map fun record => (record.partition, record.offset)).Nodup := by
  have hempty : ShowsAll py localTime [] list.filter := ⟨rfl, .nil, List.nodup_nil⟩
  rw [hempty.staysAligned_iff_fits, ← nodup_ids_iff]
  exact and_congr_right fun _ => ⟨fun hfits => ⟨hfits.builds, hfits.distinct⟩, fun h => ⟨h.1, h.2⟩⟩

theorem ShowsAll.selectRecord {shown : List (Record F E)} {list : ListRecords F E}
    (h : ShowsAll py localTime shown list) {i : ℕ} (hi : i < shown.length) :
    list.selectRecord shown[i] = some i := by
  have hkeys : list.records.map Prod.fst = shown.map Record.id := by
    rw [h.records, List.map_map]
    rfl
  have hindex : (shown.map Record.id).idxOf shown[i].id = i := by
    have hlength : i < (shown.map Record.id).length := by rwa [List.length_map]
    have hget : (shown.map Record.id)[i] = shown[i].id := List.getElem_map Record.id
    rw [← hget]
    exact h.distinct.idxOf_getElem i hlength
  rw [ListRecords.selectRecord, hkeys, hindex, if_pos (by rwa [h.records, List.length_map])]

theorem ShowsAll.highlight {shown : List (Record F E)} {list : ListRecords F E}
    (h : ShowsAll py localTime shown list) {i : ℕ} {row : TableRow}
    (hrow : list.table.rows[i]? = some row) :
    ∃ record, shown[i]? = some record ∧ (list.highlight row).currentRecord = some record := by
  have hkey : (shown.map Record.id)[i]? = some row.key := by
    rw [← h.keys, List.getElem?_map, hrow]
    rfl
  rw [List.getElem?_map] at hkey
  obtain ⟨record, hrecord, hid⟩ := Option.map_eq_some_iff.mp hkey
  refine ⟨record, hrecord, ?_⟩
  have hdistinct : (list.records.map Prod.fst).Nodup := by
    rw [h.records, List.map_map]
    exact h.distinct
  have hmem : (row.key, record) ∈ list.records := by
    rw [h.records, ← hid]
    exact List.mem_map_of_mem (List.mem_of_getElem? hrecord)
  obtain ⟨entry, hentry⟩ : ∃ entry, list.records.find? (·.1 = row.key) = some entry :=
    Option.isSome_iff_exists.mp (List.find?_isSome.mpr ⟨_, hmem, decide_eq_true rfl⟩)
  have hkey : entry.1 = row.key := by simpa using List.find?_some hentry
  have hsame : entry = (row.key, record) :=
    List.inj_on_of_nodup_map hdistinct (List.mem_of_find?_eq_some hentry) hmem hkey
  rw [ListRecords.highlight, hentry, hsame]
  rfl

def redelivered : Record FloatRepr Empty where
  topic := text "orders"
  partition := 0
  offset := 7
  timestamp := none
  key := none
  value := some [1]
  headers := []
  keyDeserialization := .bytes
  valueDeserialization := .bytes
  keyDeserializer := none
  valueDeserializer := none
  keyBytesEncoding := .base64
  valueBytesEncoding := .base64
  fallbackBytesEncoding := .base64

/-- A record that comes again makes the second call fail. -/
theorem not_staysAligned_redelivered :
    ¬ (ListRecords.filter {}).StaysAligned Interpreter.plain (fun _ => .ok [])
      [.ok [redelivered], .ok [redelivered]] := by
  rintro ⟨-, -, -, hreturns, -⟩
  cases hreturns

end ListRecords

end Aligning

end Kaskade
