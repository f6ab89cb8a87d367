import Kaskade.BoundedSteps
import Kaskade.DependencyOrders
import Kaskade.SchemaReferences
import Kaskade.SchemaRegistration

/-!
# JSON documents

`json_document`: a schema file with the files that its references lead to, each loaded once. A
reference to a document that is being loaded is refused.
-/

namespace Kaskade

open Python Dependencies

/-- What was loaded under URIs, and the URIs whose files were read, in order. -/
structure JsonLoads where
  loaded : Text → Option SchemaDocument
  reads : List Text

namespace JsonLoads

def empty : JsonLoads := ⟨fun _ => none, []⟩

def read (s : JsonLoads) (uri : Text) : JsonLoads := { s with reads := s.reads ++ [uri] }

/-- `loaded[uri] = document`. -/
def remember (s : JsonLoads) (uri : Text) (document : SchemaDocument) : JsonLoads :=
  { s with loaded := Function.update s.loaded uri (some document) }

@[simp] theorem remember_self (s : JsonLoads) (uri : Text) (document : SchemaDocument) :
    (s.remember uri document).loaded uri = some document := Function.update_self _ _ _

theorem remember_of_ne (s : JsonLoads) {uri other : Text} (document : SchemaDocument)
    (h : other ≠ uri) : (s.remember uri document).loaded other = s.loaded other :=
  Function.update_of_ne h _ _

end JsonLoads

section

variable {F E : Type} [PyFloat F] (py : Interpreter F E) (u : UrlFunctions)
  (jsonValidator : Value F E → Outcome Unit) (directory : SchemaDirectory)

/-- The loop of `_json_document` over the references of a document. -/
def addDocuments (load : Text → JsonLoads → Steps PyException (SchemaDocument × JsonLoads))
    (name uri : Text) (visiting : List Text) : List Text → List (Text × SchemaDocument) →
    JsonLoads → Steps PyException (List (Text × SchemaDocument) × JsonLoads)
  | [], references, s => pure (references, s)
  | reference :: rest, references, s =>
    if reference ∈ visiting ∨ reference = uri then
      throw (schemaError (text "JSON Schema references " ++ reference ++ text " and " ++ name
        ++ text " form a cycle"))
    else
      match s.loaded reference with
      | some document =>
        addDocuments load name uri visiting rest (references ++ [(reference, document)]) s
      | none => do
        let (document, s) ← load reference s
        addDocuments load name uri visiting rest (references ++ [(reference, document)])
          (s.remember reference document)

def checkRoot (uri t : Text) : Outcome Unit :=
  if uri = [] then do
    let contents ← py.loads t
    jsonValidator contents
  else .ok ()

/-- `_json_document`, to a bounded depth. -/
def jsonDocumentAt : ℕ → SchemaFile → Text → List Text → JsonLoads →
    Steps PyException (SchemaDocument × JsonLoads)
  | 0, _, _, _, _ => .cutOff
  | depth + 1, file, uri, visiting, s => do
    let (t, schema) ← readJsonText py file
    let uris ← localReferences u schema uri
    let (references, s) ← addDocuments
      (fun reference s => do
        let parts ← localReferencePath reference
        jsonDocumentAt depth (directory parts) reference (visiting ++ [uri]) s)
      file.name uri visiting uris [] (s.read uri)
    let () ← checkRoot py jsonValidator uri t
    pure (.mk (.json, t) references, s)

/-- `json_document`, with what was loaded and read on the way. -/
def jsonDocument (depth : ℕ) (file : SchemaFile) : Steps PyException (SchemaDocument × JsonLoads) :=
  jsonDocumentAt py u jsonValidator directory depth file [] [] .empty

def uriFile (root : SchemaFile) (uri : Text) : Outcome SchemaFile :=
  if uri = [] then .ok root else (localReferencePath uri).map directory

/-- The text of the file of a URI, and the URIs of its references. -/
def openDocument (root : SchemaFile) (uri : Text) : Outcome (Text × List Text) := do
  let file ← uriFile directory root uri
  let (t, schema) ← readJsonText py file
  let uris ← localReferences u schema uri
  pure (t, uris)

/-- The references of the file of a URI, as far as it can be opened. -/
def linked (root : SchemaFile) (uri : Text) : List Text :=
  match openDocument py u directory root uri with
  | .ok (_, uris) => uris
  | .error _ => []

/-- A document with the text of its file and, in order, the documents of its references. -/
def IsDocument (root : SchemaFile) (loaded : Text → Option SchemaDocument) (uri : Text)
    (document : SchemaDocument) : Prop :=
  ∃ t uris, openDocument py u directory root uri = .ok (t, uris) ∧
    document.content = (.json, t) ∧
    document.references.map (fun p => (p.1, some p.2)) = uris.map fun r => (r, loaded r)

/-- The state of a load: what was loaded, in some order, and what is being loaded. -/
structure JsonLoads.Follows (root : SchemaFile) (s : JsonLoads) (order inside : List Text) :
    Prop where
  loaded : ∀ uri, (s.loaded uri).isSome ↔ uri ∈ order
  reads : s.reads.Perm (order ++ inside)
  documents : ∀ uri document, s.loaded uri = some document →
    IsDocument py u directory root s.loaded uri document

variable {py u jsonValidator directory} {root file : SchemaFile} {s s' : JsonLoads}
  {uri t : Text} {uris : List Text}

def JsonLoads.Grows (s s' : JsonLoads) : Prop :=
  ∀ uri document, s.loaded uri = some document → s'.loaded uri = some document

theorem JsonLoads.Grows.trans {s'' : JsonLoads} (h : s.Grows s') (h' : s'.Grows s'') :
    s.Grows s'' := fun uri document hs => h' uri document (h uri document hs)

theorem JsonLoads.grows_remember {document : SchemaDocument} (h : s.loaded uri = none) :
    s.Grows (s.remember uri document) := by
  intro other document' hother
  have hne : other ≠ uri := by
    rintro rfl
    rw [h] at hother
    cases hother
  exact (s.remember_of_ne document hne).trans hother

theorem IsDocument.grows {document : SchemaDocument} (h : IsDocument py u directory root s.loaded uri
    document) (hgrows : s.Grows s') : IsDocument py u directory root s'.loaded uri document := by
  obtain ⟨t, uris, hopen, hcontent, hreferences⟩ := h
  refine ⟨t, uris, hopen, hcontent, hreferences.trans (List.map_congr_left fun r hr => ?_)⟩
  have hmem : (r, s.loaded r) ∈ document.references.map fun p => (p.1, some p.2) :=
    hreferences ▸ List.mem_map_of_mem hr
  obtain ⟨p, -, hp⟩ := List.mem_map.mp hmem
  obtain ⟨-, hloaded⟩ := Prod.mk.inj hp
  rw [← hloaded, hgrows r p.2 hloaded.symm]

variable (py u directory) in
/-- What a load of some references adds to what was loaded, inside of some documents. -/
structure Extends (root : SchemaFile) (uris : List Text) (s : JsonLoads) (order : List Text)
    (s' : JsonLoads) (order' inside : List Text) : Prop where
  builds : Builds (linked py u directory root) uris order order'
  follows : s'.Follows py u directory root order' inside
  fresh : ∀ v ∈ inside, v ∈ order' → v ∈ order
  grows : s.Grows s'

/-- A document is remembered that was loaded inside of others. -/
theorem Extends.remember {uris' order mid inside : List Text} {document : SchemaDocument}
    (h : Extends py u directory root uris' s order s' mid (inside ++ [uri]))
    (hnew : s.loaded uri = none) (horder : s.loaded uri = none → uri ∉ order)
    (hdocument : IsDocument py u directory root s'.loaded uri document) :
    uri ∉ mid ∧ s'.Grows (s'.remember uri document) ∧
      (s'.remember uri document).Follows py u directory root (mid ++ [uri]) inside := by
  have hmid : uri ∉ mid := fun hmem => horder hnew (h.fresh uri (by simp) hmem)
  have hnone : s'.loaded uri = none := by
    by_contra hsome
    exact hmid ((h.follows.loaded uri).mp (Option.isSome_iff_ne_none.mpr hsome))
  have hgrows : s'.Grows (s'.remember uri document) := JsonLoads.grows_remember hnone
  refine ⟨hmid, hgrows, ?_, ?_, ?_⟩
  · intro other
    rw [List.mem_append, List.mem_singleton]
    by_cases hother : other = uri
    · simp [hother]
    · simp only [s'.remember_of_ne document hother, hother, or_false]
      exact h.follows.loaded other
  · refine h.follows.reads.trans ?_
    rw [List.append_assoc]
    exact List.Perm.append_left mid List.perm_append_comm
  · intro other document' hother
    by_cases hsame : other = uri
    · subst hsame
      rw [JsonLoads.remember_self] at hother
      cases hother
      exact hdocument.grows hgrows
    · rw [s'.remember_of_ne document hsame] at hother
      exact (h.follows.documents other document' hother).grows hgrows

end

end Kaskade
