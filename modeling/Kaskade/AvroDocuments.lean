import Kaskade.AvroParsing
import Kaskade.DemandLoading
import Kaskade.SchemaFiles
import Kaskade.SchemaRegistration

/-!
# Avro documents

`avro_document`: a schema file with those that define the named types it lacks, each in a file with
the full name of its type. The schema is parsed again after each of them, until no name is unknown.
-/

namespace Kaskade

open Python

/-- A schema file that was read. -/
structure AvroSource (F E : Type) where
  file : SchemaFile
  text : Text
  schema : Value F E

/-- `PurePath.name` of a path that ends in a suffix. -/
def lastPart (path : Text) : Text := (path.reverse.takeWhile (· ≠ chr '/')).reverse

/-- The files of a directory that are named after types; `is_file` may raise, as it does for a name
that is too long for a file. -/
abbrev AvroDirectory := Text → Outcome (Option SchemaFile)

section

variable {F E D : Type} [PyFloat F] (py : Interpreter F E) (parser : AvroParser F E D)
  (directory : AvroDirectory)

def avroSource (file : SchemaFile) : Outcome (AvroSource F E) := do
  let (t, schema) ← readJsonText py file
  pure ⟨file, t, schema⟩

/-- `_avro_document` is the process of this loader: it parses with the known names, and a name that
is unknown is wanted from the file next to the schema. -/
def avroLoader :
    Loader Text (AvroSource F E) (NamedSchemas D) SchemaDocument PyException where
  demand source known :=
    match parser.parseSchema source.schema known with
    | .ok (_, named) => .done named
    | .error (.unknownType name) => .wants name
    | .error failure =>
      .fails (failure.exception (text "Invalid Avro schema in " ++ source.file.path ++ text ": "))
  source name :=
    match directory name with
    | .error e => .error e
    | .ok (some file) => avroSource py file
    | .ok none => .error (schemaError (text "Avro type " ++ name ++ text " isn't defined; expected "
        ++ lastPart (name ++ text ".avsc") ++ text " next to the schema"))
  empty := fun _ => none
  update known named := known.update named
  document source references := .mk (.avro, source.text) references
  cyclic source name := schemaError (text "Avro types " ++ name ++ text " and " ++ source.file.name
    ++ text " reference each other")

/-- `avro_document`, given the file that `expanduser` and `resolve` come to. -/
def avroDocument (fuel : ℕ) (root : Outcome SchemaFile) : Steps PyException SchemaDocument := do
  let source ← root.bind (avroSource py)
  let ((document, _), _) ←
    (avroLoader py parser directory).resolve fuel source (fun _ => none) [] (fun _ => none) []
  pure document

/-- It returns a document or raises a `SchemaError`. -/
def AvroDocumentEnds (root : Outcome SchemaFile) : Prop :=
  ∃ fuel result, (avroDocument py parser directory fuel root).run = some result ∧
    ∀ x, result = .error x → x.cls = .schemaError

/-- A file that is reached cannot be looked for, read or parsed for a reason that is let through, or
a name is asked for again after its file and those that the file needs were parsed. -/
def AvroDocumentGoesWrong (root : Outcome SchemaFile) : Prop :=
  (∃ x, root.bind (avroSource py) = .error x ∧ x.cls ≠ .schemaError) ∨
    ∃ source, root.bind (avroSource py) = .ok source ∧
      (avroLoader py parser directory).GoesWrong (fun x => x.cls = .schemaError) source
        fun _ => none

variable {py parser directory}

/-- The parser asks for the first name that it does not know. -/
def avroLoader_lawful (documented : parser.Documented) :
    (avroLoader py parser directory).Lawful where
  knows named name := (named name).isSome
  needs source := documented.needs source.schema
  update_update := by
    intro m s
    funext name
    simp only [avroLoader, NamedSchemas.update]
    cases s name <;> rfl
  knows_update := by
    intro m s name h
    simp only [avroLoader, NamedSchemas.update]
    cases s name with
    | none => exact h
    | some d => rfl
  wants_first := by
    intro source known name h
    simp only [avroLoader] at h
    split at h
    · cases h
    next hparse =>
      cases h
      simpa using documented.unknown_first hparse
    · cases h

theorem avroDocument_error {fuel : ℕ} {root : Outcome SchemaFile} {x : PyException}
    (h : root.bind (avroSource py) = .error x) :
    (avroDocument py parser directory fuel root).run = some (.error x) := by
  rw [avroDocument, Steps.run_bind_eq_error, h]
  exact .inl rfl

/-- After its file was read, a document ends as the process of the file does. -/
theorem avroDocumentEnds_iff_resolve {root : Outcome SchemaFile} {source : AvroSource F E}
    (h : root.bind (avroSource py) = .ok source) :
    AvroDocumentEnds py parser directory root ↔
      ∃ fuel result, ((avroLoader py parser directory).resolve fuel source (fun _ => none) []
        (fun _ => none) []).run = some result ∧ ∀ x, result = .error x → x.cls = .schemaError := by
  have hrun : ∀ fuel, (avroDocument py parser directory fuel root).run =
      (((avroLoader py parser directory).resolve fuel source (fun _ => none) []
        (fun _ => none) []).run).map fun r => r.map fun p => p.1.1 := by
    intro fuel
    rw [avroDocument, h]
    simp only [Steps.run_bind, Steps.run_lift]
    cases ((avroLoader py parser directory).resolve fuel source (fun _ => none) []
        (fun _ => none) []).run with
    | none => rfl
    | some r => cases r <;> rfl
  constructor
  · rintro ⟨fuel, result, hresult, hallowed⟩
    rw [hrun, Option.map_eq_some_iff] at hresult
    obtain ⟨r, hr, rfl⟩ := hresult
    refine ⟨fuel, r, hr, ?_⟩
    rintro x rfl
    exact hallowed x rfl
  · rintro ⟨fuel, r, hr, hallowed⟩
    refine ⟨fuel, r.map fun p => p.1.1, by rw [hrun, hr]; rfl, ?_⟩
    intro x hx
    cases r with
    | ok p => cases hx
    | error x' =>
      obtain rfl := Except.error.inj hx
      exact hallowed x' rfl

theorem avroLoader_keys {names : List Text}
    (hfinite : ∀ name file, directory name = .ok (some file) → name ∈ names)
    (name : Text) (source : AvroSource F E)
    (h : (avroLoader py parser directory).source name = .ok source) : name ∈ names.toFinset := by
  simp only [avroLoader] at h
  split at h
  · cases h
  next file hfile => exact List.mem_toFinset.mpr (hfinite name file hfile)
  · cases h

/-- With finitely many files, a document or a `SchemaError` is the result if and only if nothing goes
wrong on the way. -/
theorem avroDocument_ends_iff (documented : parser.Documented) (names : List Text)
    (hfinite : ∀ name file, directory name = .ok (some file) → name ∈ names)
    (root : Outcome SchemaFile) :
    AvroDocumentEnds py parser directory root ↔
      ¬ AvroDocumentGoesWrong py parser directory root := by
  cases hsource : root.bind (avroSource py) with
  | error x =>
    constructor
    · rintro ⟨fuel, result, hrun, hallowed⟩ (⟨x', hx', hnot⟩ | ⟨source, hok, -⟩)
      · obtain rfl := Except.error.inj (hsource.symm.trans hx')
        rw [avroDocument_error hsource] at hrun
        exact hnot (hallowed x (Option.some.inj hrun).symm)
      · cases hsource.symm.trans hok
    · intro hwrong
      refine ⟨0, .error x, avroDocument_error hsource, ?_⟩
      rintro x' hx'
      obtain rfl := Except.error.inj hx'
      by_contra hx
      exact hwrong (.inl ⟨x, hsource, hx⟩)
  | ok source =>
    rw [avroDocumentEnds_iff_resolve hsource]
    refine (Loader.ends_iff (fun x => x.cls = .schemaError) (avroLoader_lawful documented)
      (avroLoader_keys hfinite) fun _ _ => rfl).trans ?_
    apply not_congr
    constructor
    · exact fun h => .inr ⟨source, hsource, h⟩
    · rintro (⟨x, hx, -⟩ | ⟨source', hok, hwrong⟩)
      · cases hsource.symm.trans hx
      · obtain rfl := Except.ok.inj (hsource.symm.trans hok)
        exact hwrong

end

def nameFile (path name : String) : SchemaFile where
  path := text path
  name := text path
  octets := .ok ((utf8Encode (text "\"" ++ text name ++ text "\"")).getD [])

def undefining : AvroDirectory := fun name =>
  .ok (if name = text "A" then some (nameFile "A.avsc" "int") else none)

theorem undefining_finite :
    ∀ name file, undefining name = .ok (some file) → name ∈ [text "A"] := by
  intro name file h
  rw [undefining, Except.ok.injEq] at h
  split_ifs at h with hname
  exact List.mem_singleton.mpr hname

/-- The condition at a directory with one file. -/
theorem avroDocument_ends_iff_undefining :
    AvroDocumentEnds Interpreter.plain (AvroParser.recordParser FloatRepr Empty) undefining
        (.ok (nameFile "schema.avsc" "A")) ↔
      ¬ AvroDocumentGoesWrong Interpreter.plain (AvroParser.recordParser FloatRepr Empty) undefining
        (.ok (nameFile "schema.avsc" "A")) :=
  avroDocument_ends_iff (AvroParser.recordParser_documented FloatRepr Empty) [text "A"]
    undefining_finite (.ok (nameFile "schema.avsc" "A"))

/-- A schema that names a type whose file does not define it is parsed again and again. -/
theorem not_avroDocumentEnds :
    ¬ AvroDocumentEnds Interpreter.plain (AvroParser.recordParser FloatRepr Empty) undefining
      (.ok (nameFile "schema.avsc" "A")) := by
  have hsource : (.ok (nameFile "schema.avsc" "A") : Outcome SchemaFile).bind (avroSource Interpreter.plain) =
      .ok (⟨nameFile "schema.avsc" "A", text "\"A\"", .str (text "A")⟩ :
        AvroSource FloatRepr Empty) := rfl
  rw [avroDocumentEnds_iff_resolve hsource]
  have hnamed : (avroLoader Interpreter.plain (AvroParser.recordParser FloatRepr Empty)
      undefining).source (text "A") =
      .ok ⟨nameFile "A.avsc" "int", text "\"int\"", .str (text "int")⟩ := rfl
  intro hends
  refine (Loader.ends_iff (fun x => x.cls = .schemaError)
    (avroLoader_lawful (AvroParser.recordParser_documented FloatRepr Empty))
    (avroLoader_keys undefining_finite) fun _ _ => rfl).mp hends ?_
  exact .again (k := text "A") (s := fun _ => none) rfl hnamed (.done rfl) rfl

end Kaskade
