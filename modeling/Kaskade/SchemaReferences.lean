import Kaskade.MarkedWalks
import Kaskade.SchemaFiles

/-!
# References between JSON Schema files

The loader collects the `$ref`s of a whole document, resolves them against the URI of the document
and reads the files that they name. The validator resolves a `$ref` against the `$id` around it.
-/

namespace Kaskade

open Python

/-- `urljoin`, the URL of `urldefrag` and the scheme that `urlsplit` finds. -/
structure UrlFunctions where
  join : Text → Text → Outcome Text
  defrag : Text → Outcome Text
  scheme : Text → Outcome Text

section References

variable {F E : Type}

/-- The `$ref` of an object, if it is a string. -/
def ownReference (items : List (Text × Value F E)) : List Text :=
  match Value.getItem? items (text "$ref") with
  | some (.str reference) => [reference]
  | _ => []

mutual

def references : Value F E → List Text
  | .dict items => ownReference items ++ itemReferences items
  | .list items => listReferences items
  | _ => []

def listReferences : List (Value F E) → List Text
  | [] => []
  | v :: vs => references v ++ listReferences vs

def itemReferences : List (Text × Value F E) → List Text
  | [] => []
  | (_, v) :: kvs => references v ++ itemReferences kvs

end

theorem mem_listReferences {items : List (Value F E)} {reference : Text} :
    reference ∈ listReferences items ↔ ∃ v ∈ items, reference ∈ references v := by
  induction items with
  | nil => simp [listReferences]
  | cons v vs ih => simp [listReferences, ih]

theorem mem_itemReferences {items : List (Text × Value F E)} {reference : Text} :
    reference ∈ itemReferences items ↔ ∃ kv ∈ items, reference ∈ references kv.2 := by
  induction items with
  | nil => simp [itemReferences]
  | cons kv kvs ih => simp [itemReferences, ih]

end References

section Local

variable {F E : Type} [PyFloat F] (py : Interpreter F E) (u : UrlFunctions)

/-- `urldefrag(urljoin(base, reference)).url`. -/
def resolvedUri (base reference : Text) : Outcome Text := do
  let joined ← u.join base reference
  u.defrag joined

/-- The loop of `local_references`. -/
def addReferences (base : Text) : List Text → List Text → Outcome (List Text)
  | [], uris => .ok uris
  | reference :: rest, uris => do
    let uri ← resolvedUri u base reference
    if uri = [] ∨ uri ∈ uris then addReferences base rest uris
    else
      let scheme ← u.scheme uri
      addReferences base rest (if scheme = [] then uris ++ [uri] else uris)

def localReferences (document : Value F E) (base : Text) : Outcome (List Text) :=
  addReferences u base (references document) []

def pathParts (path : Text) : List Text :=
  (path.splitOnP (· = chr '/')).filter fun part => part ≠ [] ∧ part ≠ text "."

/-- `local_reference_path`, as the parts of the path below the directory. -/
def localReferencePath (uri : Text) : Outcome (List Text) :=
  if uri.head? = some (chr '/') ∨ text ".." ∈ pathParts uri then
    .error (schemaError (text "JSON Schema reference " ++ uri
      ++ text " must stay next to the schema"))
  else .ok (pathParts uri)

/-- The files below a directory, by the parts of their paths. -/
abbrev SchemaDirectory := List Text → SchemaFile

/-- The document that a URI names, next to the schema. -/
def readReference (directory : SchemaDirectory) (uri : Text) : Outcome (Text × Value F E) := do
  let parts ← localReferencePath uri
  readJsonText py (directory parts)

/-- A document with the URIs that `local_references` finds in it. -/
abbrev LinkedDocument (F E : Type) := Value F E × List Text

/-- The walk of `_collect_local_references`, whose marks are the keys of the resources. -/
def localWalk (directory : SchemaDirectory) :
    MarkedWalk (LinkedDocument F E) Text Text (Text → Option (Value F E)) PyException where
  edges document := document.2
  key uri := .ok uri
  fetch uri := do
    let (_, contents) ← readReference py directory uri
    let uris ← localReferences u contents uri
    pure (contents, uris)
  marked resources uri := (resources uri).isSome
  enter uri document resources := .ok (Function.update resources uri (some document.1))
  leave _ _ resources := .ok resources
  marked_enter := by
    intro uri document k resources resources' hk h k'
    cases hk
    cases h
    by_cases hsame : k' = uri
    · simp [hsame]
    · simp [hsame]
  marked_leave := by
    intro uri document resources resources' h k
    cases h
    rfl

def loadResources (directory : SchemaDirectory) (depth : ℕ) (file : SchemaFile) :
    Steps PyException (Value F E × (Text → Option (Value F E))) := do
  let (_, schema) ← readJsonText py file
  let uris ← localReferences u schema []
  let resources ← (localWalk py u directory).walk depth (schema, uris) fun _ => none
  pure (schema, resources)

/-- `load_json_schema`; `json_validator` is a parameter. -/
def loadJsonSchema {V : Type} (jsonValidator : Value F E → (Text → Option (Value F E)) → Outcome V)
    (directory : SchemaDirectory) (depth : ℕ) (file : SchemaFile) : Steps PyException V := do
  let (schema, resources) ← loadResources py u directory depth file
  jsonValidator schema resources

end Local

section Resolution

variable {F E : Type} [PyFloat F] {py : Interpreter F E} {u : UrlFunctions}

/-- The base of what is inside of an object: its `$id`, resolved against the base around it. -/
def innerBase (u : UrlFunctions) (base : Text) (items : List (Text × Value F E)) : Outcome Text :=
  match Value.getItem? items (text "$id") with
  | some (.str id) => u.join base id
  | _ => .ok base

/-- A URI that a `$ref` of a document has for the validator, which starts with the document's own
URI as the base. -/
inductive ResolvesTo (u : UrlFunctions) : Text → Value F E → Text → Prop where
  | reference {base inner reference uri : Text} {items : List (Text × Value F E)} :
      innerBase u base items = .ok inner → reference ∈ ownReference items →
      resolvedUri u inner reference = .ok uri → ResolvesTo u base (.dict items) uri
  | item {base inner uri key : Text} {v : Value F E} {items : List (Text × Value F E)} :
      innerBase u base items = .ok inner → (key, v) ∈ items → ResolvesTo u inner v uri →
      ResolvesTo u base (.dict items) uri
  | element {base uri : Text} {v : Value F E} {items : List (Value F E)} : v ∈ items →
      ResolvesTo u base v uri → ResolvesTo u base (.list items) uri

def IsRelative (u : UrlFunctions) (uri : Text) : Prop := uri ≠ [] ∧ u.scheme uri = .ok []

/-- A URI that the validator looks up for a document, and that is not among those which the loader
finds in it. -/
def Missed (u : UrlFunctions) (base : Text) (document : Value F E) (uri : Text) : Prop :=
  ResolvesTo u base document uri ∧ IsRelative u uri ∧
    ∀ uris, localReferences u document base = .ok uris → uri ∉ uris

/-- The documents that the files next to a schema lead to, by the references that the loader finds,
each with its URI. -/
inductive LocallyReached (py : Interpreter F E) (u : UrlFunctions) (directory : SchemaDirectory)
    (schema : Value F E) : Text → Value F E → Prop where
  | root : LocallyReached py u directory schema [] schema
  | next {base uri t : Text} {document contents : Value F E} {uris : List Text} :
      LocallyReached py u directory schema base document →
      localReferences u document base = .ok uris → uri ∈ uris →
      readReference py directory uri = .ok (t, contents) →
      LocallyReached py u directory schema uri contents

variable {directory : SchemaDirectory} {schema : Value F E}

theorem fetch_eq_ok {uri : Text} {document : Value F E} {uris : List Text} :
    (localWalk py u directory).fetch uri = .ok (document, uris) ↔
      (∃ t, readReference py directory uri = .ok (t, document)) ∧
        localReferences u document uri = .ok uris := by
  simp only [localWalk]
  cases hread : readReference (F := F) (E := E) py directory uri with
  | error x => simp [bind, Except.bind]
  | ok p =>
    obtain ⟨t, contents⟩ := p
    cases hlocal : localReferences u contents uri with
    | error x =>
      simp only [bind, Except.bind, hlocal, reduceCtorEq, false_iff, not_and]
      rintro ⟨t', ht'⟩ hcontradiction
      cases ht'
      rw [hlocal] at hcontradiction
      cases hcontradiction
    | ok uris' =>
      simp only [bind, Except.bind, hlocal, pure, Except.pure, Except.ok.injEq, Prod.mk.injEq]
      constructor
      · rintro ⟨rfl, rfl⟩
        exact ⟨⟨t, rfl, rfl⟩, hlocal⟩
      · rintro ⟨⟨t', rfl, rfl⟩, hlocal'⟩
        exact ⟨rfl, Except.ok.inj (hlocal.symm.trans hlocal')⟩

theorem walked_of_loadResources {depth : ℕ} {file : SchemaFile}
    {resources : Text → Option (Value F E)}
    (h : (loadResources py u directory depth file).run = some (.ok (schema, resources))) :
    ∃ uris left, localReferences u schema [] = .ok uris ∧
      (localWalk py u directory).Walked uris (fun _ => none) left resources := by
  rw [loadResources] at h
  obtain ⟨⟨t, schema'⟩, hread, h⟩ := Steps.run_bind_eq_ok.mp h
  obtain ⟨uris, hlocal, h⟩ := Steps.run_bind_eq_ok.mp h
  obtain ⟨resources', hwalk, h⟩ := Steps.run_bind_eq_ok.mp h
  cases h
  obtain ⟨left, hwalked⟩ := MarkedWalk.walked_of_walk hwalk
  exact ⟨uris, left, Option.some.inj hlocal, hwalked⟩

section Loaded

variable {uris left : List Text} {resources : Text → Option (Value F E)}

/-- Every URI that is met was entered, and its document is a resource. -/
theorem resource_of_meets
    (h : (localWalk py u directory).Walked uris (fun _ => none) left resources) {uri : Text}
    (huri : (localWalk py u directory).Meets uris uri) :
    ∃ document us, (localWalk py u directory).fetch uri = .ok (document, us) ∧
      resources uri = some document := by
  have hkeys : (localWalk (F := F) (E := E) py u directory).KeyDetermines uris := by
    intro e e' _ _ hkey
    rw [Except.ok.inj hkey]
  obtain ⟨k, hk, e, he, hkey⟩ := h.covers (by simp [localWalk]) hkeys huri
  obtain rfl : uri = e := (Except.ok.inj hk).trans (Except.ok.inj hkey).symm
  obtain ⟨_, ⟨document, us⟩, -, -, hfetch, -⟩ := h.closed he
  have hrecords := h.records
    (P := fun e s => ∃ document us, (localWalk py u directory).fetch e = .ok (document, us) ∧
      s e = some document)
    (.inl fun {e n s t} _ hfetch henter => by
      cases henter
      exact ⟨n.1, n.2, hfetch, Function.update_self _ _ _⟩)
    (fun {e e' n s t} _ _ hfetch henter hs => by
      cases henter
      by_cases hsame : e = e'
      · subst hsame
        exact ⟨n.1, n.2, hfetch, Function.update_self _ _ _⟩
      · obtain ⟨document, us, hfetch', hs⟩ := hs
        exact ⟨document, us, hfetch', by rwa [Function.update_of_ne hsame]⟩)
    (fun {e e' n s t} _ _ _ hleave hs => by
      cases hleave
      exact hs)
  exact hrecords uri he

theorem meets_of_resource
    (h : (localWalk py u directory).Walked uris (fun _ => none) left resources) {uri : Text}
    {document : Value F E} (huri : resources uri = some document) :
    (localWalk (F := F) (E := E) py u directory).Meets uris uri := by
  have hmarked : (localWalk (F := F) (E := E) py u directory).marked resources uri = true := by
    simp [localWalk, huri]
  rcases (h.marked_iff uri).mp hmarked with hnone | ⟨e, he, hkey⟩
  · simp [localWalk] at hnone
  · cases hkey
    exact h.meets (fun _ => .root) uri he

/-- The documents that the loader's references lead to are the schema and the resources. -/
theorem locallyReached_iff (hlocal : localReferences u schema [] = .ok uris)
    (h : (localWalk py u directory).Walked uris (fun _ => none) left resources) (base : Text)
    (document : Value F E) :
    LocallyReached py u directory schema base document ↔
      base = [] ∧ document = schema ∨ resources base = some document := by
  have hloaded : ∀ {uri t contents}, (localWalk (F := F) (E := E) py u directory).Meets uris uri →
      readReference py directory uri = .ok (t, contents) → resources uri = some contents := by
    intro uri t contents huri hread
    obtain ⟨document, us, hfetch, hresource⟩ := resource_of_meets h huri
    obtain ⟨⟨t', hread'⟩, -⟩ := fetch_eq_ok.mp hfetch
    cases hread.symm.trans hread'
    exact hresource
  constructor
  · intro hreached
    induction hreached with
    | root => exact .inl ⟨rfl, rfl⟩
    | @next base uri t document contents us _ hus huri hread ih =>
      refine .inr (hloaded ?_ hread)
      rcases ih with ⟨rfl, rfl⟩ | hresource
      · exact .root (Except.ok.inj (hus.symm.trans hlocal) ▸ huri)
      · have hbase := meets_of_resource h hresource
        obtain ⟨document', us', hfetch, hresource'⟩ := resource_of_meets h hbase
        obtain rfl := Option.some.inj (hresource.symm.trans hresource')
        have hus' := (fetch_eq_ok.mp hfetch).2
        exact .next hbase hfetch (Except.ok.inj (hus.symm.trans hus') ▸ huri)
  · rintro (⟨rfl, rfl⟩ | hresource)
    · exact .root
    · have hmeets := meets_of_resource h hresource
      induction hmeets generalizing document with
      | @root uri huri =>
        obtain ⟨document', us, hfetch, hresource'⟩ := resource_of_meets h (.root huri)
        obtain rfl := Option.some.inj (hresource.symm.trans hresource')
        obtain ⟨⟨t, hread⟩, -⟩ := fetch_eq_ok.mp hfetch
        exact .next .root hlocal huri hread
      | @next e uri n he hfetch huri ih =>
        obtain ⟨document', us, hfetch', hresource'⟩ := resource_of_meets h (.next he hfetch huri)
        obtain rfl := Option.some.inj (hresource.symm.trans hresource')
        obtain ⟨⟨t, hread⟩, -⟩ := fetch_eq_ok.mp hfetch'
        obtain ⟨document₀, us₀, hfetch₀, hresource₀⟩ := resource_of_meets h he
        cases hfetch.symm.trans hfetch₀
        exact .next (ih _ hresource₀) (fetch_eq_ok.mp hfetch₀).2 huri hread

/-- What the loader finds in a document that it has loaded is loaded too. -/
theorem references_loaded (hlocal : localReferences u schema [] = .ok uris)
    (h : (localWalk py u directory).Walked uris (fun _ => none) left resources) {base : Text}
    {document : Value F E} (hbase : base = [] ∧ document = schema ∨ resources base = some document) :
    ∃ us, localReferences u document base = .ok us ∧ ∀ uri ∈ us, (resources uri).isSome := by
  have hloaded : ∀ {uri}, (localWalk (F := F) (E := E) py u directory).Meets uris uri →
      (resources uri).isSome := by
    intro uri huri
    obtain ⟨document', -, -, hresource⟩ := resource_of_meets h huri
    exact Option.isSome_iff_exists.mpr ⟨document', hresource⟩
  rcases hbase with ⟨rfl, rfl⟩ | hresource
  · exact ⟨uris, hlocal, fun uri huri => hloaded (.root huri)⟩
  · have hmeets := meets_of_resource h hresource
    obtain ⟨document', us, hfetch, hresource'⟩ := resource_of_meets h hmeets
    obtain rfl := Option.some.inj (hresource.symm.trans hresource')
    exact ⟨us, (fetch_eq_ok.mp hfetch).2, fun uri huri => hloaded (.next hmeets hfetch huri)⟩

end Loaded

/-- After a load, every relative URI that the validator looks up for the schema or a resource is
the key of a resource, if and only if those that the loader does not find in their documents are
reached by references that it finds elsewhere. -/
theorem resources_available_iff {depth : ℕ} {file : SchemaFile}
    {resources : Text → Option (Value F E)}
    (h : (loadResources py u directory depth file).run = some (.ok (schema, resources))) :
    (∀ base document, base = [] ∧ document = schema ∨ resources base = some document →
      ∀ uri, ResolvesTo u base document uri → IsRelative u uri → (resources uri).isSome) ↔
    ∀ base document, LocallyReached py u directory schema base document →
      ∀ uri, Missed u base document uri →
        ∃ document', LocallyReached py u directory schema uri document' := by
  obtain ⟨uris, left, hlocal, hwalked⟩ := walked_of_loadResources h
  have hreached := locallyReached_iff hlocal hwalked
  constructor
  · rintro havailable base document hbase uri ⟨hresolves, hrelative, -⟩
    have hsome := havailable base document ((hreached base document).mp hbase) uri hresolves hrelative
    obtain ⟨document', hdocument'⟩ := Option.isSome_iff_exists.mp hsome
    exact ⟨document', (hreached uri document').mpr (.inr hdocument')⟩
  · intro hmissed base document hbase uri hresolves hrelative
    obtain ⟨us, hus, hfound⟩ := references_loaded hlocal hwalked hbase
    by_cases huri : uri ∈ us
    · exact hfound uri huri
    · have hmiss : Missed u base document uri :=
        ⟨hresolves, hrelative, fun us' hus' => Except.ok.inj (hus.symm.trans hus') ▸ huri⟩
      obtain ⟨document', hdocument'⟩ := hmissed base document ((hreached base document).mpr hbase) uri hmiss
      rcases (hreached uri document').mp hdocument' with ⟨hempty, -⟩ | hresource
      · exact absurd hempty hrelative.1
      · simp [hresource]

end Resolution

section Identifiers

variable {F E : Type} {u : UrlFunctions}

/-- What is added to the URIs that were found: the relative ones, each once. -/
theorem mem_addReferences {base uri : Text} {rest uris uris' : List Text}
    (h : addReferences u base rest uris = .ok uris') :
    uri ∈ uris' ↔ uri ∈ uris ∨ ∃ reference ∈ rest, resolvedUri u base reference = .ok uri ∧
      IsRelative u uri := by
  induction rest generalizing uris with
  | nil =>
    cases h
    simp
  | cons reference rest ih =>
    rw [addReferences] at h
    cases huri : resolvedUri u base reference with
    | error x => simp [huri, bind, Except.bind] at h
    | ok uri₀ =>
      simp only [huri, bind, Except.bind] at h
      split at h
      next hold =>
        rw [ih h]
        constructor
        · exact fun hmem => hmem.imp_right fun ⟨r, hr, hresolved⟩ =>
            ⟨r, List.mem_cons_of_mem _ hr, hresolved⟩
        · rintro (hmem | ⟨r, hr, hresolved, hrelative⟩)
          · exact .inl hmem
          · rcases List.mem_cons.mp hr with rfl | hr
            · obtain rfl := Except.ok.inj (huri.symm.trans hresolved)
              exact .inl (hold.resolve_left hrelative.1)
            · exact .inr ⟨r, hr, hresolved, hrelative⟩
      next hnew =>
        rw [not_or] at hnew
        cases hscheme : u.scheme uri₀ with
        | error x => simp [hscheme] at h
        | ok scheme =>
          simp only [hscheme] at h
          rw [ih h]
          constructor
          · rintro (hmem | ⟨r, hr, hresolved⟩)
            · split at hmem
              next hempty =>
                rcases List.mem_append.mp hmem with hmem | hmem
                · exact .inl hmem
                · obtain rfl := List.mem_singleton.mp hmem
                  exact .inr ⟨reference, List.mem_cons_self, huri, hnew.1, hempty ▸ hscheme⟩
              · exact .inl hmem
            · exact .inr ⟨r, List.mem_cons_of_mem _ hr, hresolved⟩
          · rintro (hmem | ⟨r, hr, hresolved, hrelative⟩)
            · refine .inl ?_
              split
              · exact List.mem_append_left _ hmem
              · exact hmem
            · rcases List.mem_cons.mp hr with rfl | hr
              · obtain rfl := Except.ok.inj (huri.symm.trans hresolved)
                obtain rfl := Except.ok.inj (hscheme.symm.trans hrelative.2)
                exact .inl (by simp)
              · exact .inr ⟨r, hr, hresolved, hrelative⟩

theorem mem_localReferences {document : Value F E} {base uri : Text} {uris : List Text}
    (h : localReferences u document base = .ok uris) :
    uri ∈ uris ↔ ∃ reference ∈ references document,
      resolvedUri u base reference = .ok uri ∧ IsRelative u uri := by
  rw [mem_addReferences h]
  simp

/-- No object of a document has an `$id`. -/
def withoutIds (document : Value F E) : Bool :=
  document.all fun v =>
    match v with
    | .dict items => Value.getItem? items (text "$id") |>.isNone
    | _ => true

theorem innerBase_of_withoutIds {base : Text} {items : List (Text × Value F E)}
    (h : withoutIds (.dict items)) : innerBase u base items = .ok base := by
  have hnone := (Value.all_dict.mp h).1
  simp only [Option.isNone_iff_eq_none] at hnone
  simp [innerBase, hnone]

/-- Without `$id`s the validator resolves a document's references as the loader does. -/
theorem reference_of_resolvesTo {base uri : Text} {document : Value F E}
    (h : ResolvesTo u base document uri) (hids : withoutIds document) :
    ∃ reference ∈ references document, resolvedUri u base reference = .ok uri := by
  induction h with
  | @reference base inner reference uri items hinner hmem hresolved =>
    obtain rfl := Except.ok.inj ((innerBase_of_withoutIds hids).symm.trans hinner)
    exact ⟨reference, List.mem_append_left _ hmem, hresolved⟩
  | @item base inner uri key v items hinner hmem _ ih =>
    obtain rfl := Except.ok.inj ((innerBase_of_withoutIds hids).symm.trans hinner)
    obtain ⟨reference, hreference, hresolved⟩ := ih ((Value.all_dict.mp hids).2 (key, v) hmem)
    exact ⟨reference, List.mem_append_right _
      (mem_itemReferences.mpr ⟨(key, v), hmem, hreference⟩), hresolved⟩
  | @element base uri v items hmem _ ih =>
    obtain ⟨reference, hreference, hresolved⟩ := ih ((Value.all_list.mp hids).2 v hmem)
    exact ⟨reference, mem_listReferences.mpr ⟨v, hmem, hreference⟩, hresolved⟩

/-- The loader misses nothing in a document without `$id`s that it has read. -/
theorem not_missed_of_withoutIds {base uri : Text} {document : Value F E} {uris : List Text}
    (hids : withoutIds document) (h : localReferences u document base = .ok uris) :
    ¬ Missed u base document uri := by
  rintro ⟨hresolves, hrelative, hnot⟩
  obtain ⟨reference, hreference, hresolved⟩ := reference_of_resolvesTo hresolves hids
  exact hnot uris h ((mem_localReferences h).mpr ⟨reference, hreference, hresolved, hrelative⟩)

/-- The validator of a schema without `$id`s finds every relative URI that it looks up, with the
resources that it is built with. -/
theorem loadJsonSchema_withoutIds [PyFloat F] {py : Interpreter F E} {directory : SchemaDirectory}
    {depth : ℕ} {file : SchemaFile} {V : Type}
    {jsonValidator : Value F E → (Text → Option (Value F E)) → Outcome V} {validator : V}
    (h : (loadJsonSchema py u jsonValidator directory depth file).run = some (.ok validator)) :
    ∃ schema resources, jsonValidator schema resources = .ok validator ∧
      ∀ base document, base = [] ∧ document = schema ∨ resources base = some document →
        withoutIds document → ∀ uri, ResolvesTo u base document uri → IsRelative u uri →
          (resources uri).isSome := by
  obtain ⟨⟨schema, resources⟩, hload, hvalidator⟩ := Steps.run_bind_eq_ok.mp h
  obtain ⟨uris, left, hlocal, hwalked⟩ := walked_of_loadResources hload
  refine ⟨schema, resources, Option.some.inj hvalidator, ?_⟩
  intro base document hbase hids uri hresolves hrelative
  obtain ⟨us, hus, hfound⟩ := references_loaded hlocal hwalked hbase
  by_contra hnone
  refine not_missed_of_withoutIds hids hus ⟨hresolves, hrelative, fun us' hus' huri => ?_⟩
  exact hnone (hfound uri (Except.ok.inj (hus.symm.trans hus') ▸ huri))

end Identifiers

def pathUrls : UrlFunctions where
  join base reference := .ok ((base.reverse.dropWhile (· ≠ chr '/')).reverse ++ reference)
  defrag url := .ok (url.takeWhile (· ≠ chr '#'))
  scheme url := .ok (if url.any (· = chr ':') then url.takeWhile (· ≠ chr ':') else [])

def missingFile : SchemaFile where
  path := text "missing"
  name := text "missing"
  octets := .error ⟨.osError, text "No such file"⟩

def identifiedDocument : Value FloatRepr Empty :=
  .dict [(text "$id", .str (text "defs/")), (text "$ref", .str (text "name.json"))]

def identifiedResources : Text → Option (Value FloatRepr Empty) :=
  Function.update (fun _ => none) (text "name.json") (some (.bool true))

/-- A schema with an `$id`. -/
def identifiedSchema : SchemaFile := jsonFile (text "schema.json") identifiedDocument

/-- A file next to the schema, and one in the directory that the `$id` names. -/
def identifiedDirectory : SchemaDirectory := fun parts =>
  if parts = [text "name.json"] ∨ parts = [text "defs", text "name.json"] then
    jsonFile (text "name.json") (.bool true : Value FloatRepr Empty)
  else missingFile

theorem loadResources_identified :
    (loadResources Interpreter.plain pathUrls identifiedDirectory 2 identifiedSchema).run =
      some (.ok (identifiedDocument, identifiedResources)) := by
  have hread : readJsonText Interpreter.plain identifiedSchema =
      .ok (_, identifiedDocument) :=
    readJsonText_jsonFile Interpreter.plain (by decide) (by decide) (by decide) rfl (by decide)
      (by decide)
  rw [loadResources, hread]
  rfl

/-- The condition for the schema with an `$id`. -/
theorem resources_available_iff_identified :
    (∀ base document, base = [] ∧ document = identifiedDocument ∨
        identifiedResources base = some document →
      ∀ uri, ResolvesTo pathUrls base document uri → IsRelative pathUrls uri →
        (identifiedResources uri).isSome) ↔
    ∀ base document,
      LocallyReached Interpreter.plain pathUrls identifiedDirectory identifiedDocument base document →
      ∀ uri, Missed pathUrls base document uri → ∃ document',
        LocallyReached Interpreter.plain pathUrls identifiedDirectory identifiedDocument uri
          document' :=
  resources_available_iff loadResources_identified

/-- The loader reads the file next to the schema, and the validator looks for the other one, which
could have been read. -/
theorem not_available_identified :
    (loadResources Interpreter.plain pathUrls identifiedDirectory 2 identifiedSchema).run =
        some (.ok (identifiedDocument, identifiedResources)) ∧
      ResolvesTo pathUrls [] identifiedDocument (text "defs/name.json") ∧
      IsRelative pathUrls (text "defs/name.json") ∧
      (∃ t, readReference Interpreter.plain identifiedDirectory (text "defs/name.json") =
        .ok (t, (.bool true : Value FloatRepr Empty))) ∧
      (identifiedResources (text "defs/name.json")).isSome = false := by
  refine ⟨loadResources_identified, ?_, ⟨by decide, rfl⟩, ⟨_, rfl⟩, rfl⟩
  have hreference : text "name.json" ∈ ownReference [(text "$id", (.str (text "defs/") :
      Value FloatRepr Empty)), (text "$ref", .str (text "name.json"))] :=
    List.mem_singleton.mpr rfl
  exact .reference rfl hreference rfl

end Kaskade
