import Kaskade.MarkedWalks
import Kaskade.SchemaRegistration
import Kaskade.MessageSelection

/-!
# Referenced artifacts

`ApicurioSchemas` collects the contents of the artifacts that an artifact references, directly or
not. The three collections mark the group, the artifact and the version of a reference. Contents of
Avro schemas are listed; JSON documents and Protobuf sources are kept under the names of references.
-/

namespace Kaskade

open Python

abbrev ReferenceKey := Text × Text × Text

def ApicurioReference.key (reference : ApicurioReference) : ReferenceKey :=
  (reference.group, reference.artifact, reference.version)

/-- What is read of an `ApicurioArtifact`. -/
structure ApicurioArtifact where
  content : Text
  references : List ApicurioReference

/-- A client asks the registry for the version that a reference names, whatever its own name. -/
structure ApicurioClient where
  getReferencedArtifact : ReferenceKey → Outcome ApicurioArtifact

def ApicurioClient.ofGraph (references : ReferenceKey → List ApicurioReference)
    (contents : ReferenceKey → Text) : ApicurioClient where
  getReferencedArtifact key := .ok ⟨contents key, references key⟩

/-- The references that some references lead to. -/
inductive Reaches (references : ReferenceKey → List ApicurioReference)
    (roots : List ApicurioReference) : ApicurioReference → Prop where
  | root {r : ApicurioReference} : r ∈ roots → Reaches references roots r
  | next {r r' : ApicurioReference} : Reaches references roots r → r' ∈ references r.key →
      Reaches references roots r'

/-- Finitely many versions can be reached. -/
def FiniteGraph (references : ReferenceKey → List ApicurioReference)
    (roots : List ApicurioReference) : Prop :=
  ∃ keys : List ReferenceKey, ∀ r, Reaches references roots r → r.key ∈ keys

namespace ApicurioSchemas

abbrev Collected (β : Type) := Text → Option β

section Walks

variable {α β : Type}

abbrev Visited (α : Type) := List ReferenceKey × α

/-- The loop of the three collections, with their steps before and after the references of a
referenced artifact. -/
def collectWalk (client : ApicurioClient)
    (before after : ApicurioReference → ApicurioArtifact → α → Outcome α) :
    MarkedWalk ApicurioArtifact ApicurioReference ReferenceKey (Visited α) PyException where
  edges artifact := artifact.references
  key reference := .ok reference.key
  fetch reference := client.getReferencedArtifact reference.key
  marked s key := key ∈ s.1
  enter reference referenced s :=
    (before reference referenced s.2).map fun collected => (reference.key :: s.1, collected)
  leave reference referenced s :=
    (after reference referenced s.2).map fun collected => (s.1, collected)
  marked_enter := by
    intro r a k s t hk ht k'
    cases hk
    cases hbefore : before r a s.2 with
    | error x => simp [hbefore, Except.map] at ht
    | ok c =>
      simp only [hbefore, Except.map, Except.ok.injEq] at ht
      subst ht
      simp [or_comm]
  marked_leave := by
    intro r a s t ht k
    cases hafter : after r a s.2 with
    | error x => simp [hafter, Except.map] at ht
    | ok c =>
      simp only [hafter, Except.map, Except.ok.injEq] at ht
      subst ht
      rfl

def skip : ApicurioReference → ApicurioArtifact → α → Outcome α := fun _ _ collected =>
  .ok collected

/-- A step that keeps what a content stands for under the name of the reference. -/
def assign (value : Text → Outcome β) (reference : ApicurioReference) (referenced : ApicurioArtifact)
    (collected : Collected β) : Outcome (Collected β) :=
  (value referenced.content).map fun v => Function.update collected reference.name (some v)

end Walks

/-- The walk of `_collect_contents`, which appends a content after those it references. -/
def contentsWalk (client : ApicurioClient) :
    MarkedWalk ApicurioArtifact ApicurioReference ReferenceKey (Visited (List Text)) PyException :=
  collectWalk client skip fun _ referenced contents => .ok (contents ++ [referenced.content])

def collectContents (client : ApicurioClient) (depth : ℕ) (artifact : ApicurioArtifact)
    (contents : List Text) (visited : List ReferenceKey) :
    Steps PyException (Visited (List Text)) :=
  (contentsWalk client).walk depth artifact (visited, contents)

section Json

variable {F E : Type} [PyFloat F] (py : Interpreter F E)

def json (content : Text) : Outcome (Value F E) :=
  match Python.loads py.jsonLimits content with
  | .ok v => .ok v
  | .error (.syntaxError message _) =>
    .error (schemaError (text "Invalid JSON Schema: " ++ text message))
  | .error failure => .error (py.jsonException content failure)

def jsonWalk (client : ApicurioClient) :
    MarkedWalk ApicurioArtifact ApicurioReference ReferenceKey (Visited (Collected (Value F E)))
      PyException :=
  collectWalk client skip (assign (json py))

def collectJson (client : ApicurioClient) (depth : ℕ) (artifact : ApicurioArtifact)
    (resources : Collected (Value F E)) (visited : List ReferenceKey) :
    Steps PyException (Visited (Collected (Value F E))) :=
  (jsonWalk py client).walk depth artifact (visited, resources)

end Json

def rootProto : Text := text "root.proto"

def protobufWalk (client : ApicurioClient) :
    MarkedWalk ApicurioArtifact ApicurioReference ReferenceKey (Visited (Collected Text))
      PyException :=
  collectWalk client (assign .ok) skip

def collectProtobuf (client : ApicurioClient) (depth : ℕ) (artifact : ApicurioArtifact)
    (sources : Collected Text) (visited : List ReferenceKey) :
    Steps PyException (Visited (Collected Text)) :=
  (protobufWalk client).walk depth artifact (visited, sources)

/-- `{ROOT_PROTO: artifact.content}`. -/
def rootSources (artifact : ApicurioArtifact) : Collected Text :=
  Function.update (fun _ => none) rootProto (some artifact.content)

@[simp] theorem rootSources_root (artifact : ApicurioArtifact) :
    rootSources artifact rootProto = some artifact.content := Function.update_self _ _ _

theorem rootSources_of_ne (artifact : ApicurioArtifact) {name : Text} (h : name ≠ rootProto) :
    rootSources artifact name = none := Function.update_of_ne h _ _

/-- The sources that `protobuf_descriptors` hands to `compile_sources`. -/
def protobufSources (client : ApicurioClient) (depth : ℕ) (artifact : ApicurioArtifact) :
    Steps PyException (Collected Text) := do
  let (_, sources) ← collectProtobuf client depth artifact (rootSources artifact) []
  pure sources

section Steps

variable {α β : Type} {client : ApicurioClient}
  {before after : ApicurioReference → ApicurioArtifact → α → Outcome α}
  {reference : ApicurioReference} {referenced : ApicurioArtifact}

theorem enter_eq_ok {s t : Visited α} :
    (collectWalk client before after).enter reference referenced s = .ok t ↔
      ∃ collected, before reference referenced s.2 = .ok collected ∧
        t = (reference.key :: s.1, collected) := by
  simp only [collectWalk]
  cases before reference referenced s.2 <;> simp [Except.map, eq_comm]

theorem leave_eq_ok {s t : Visited α} :
    (collectWalk client before after).leave reference referenced s = .ok t ↔
      ∃ collected, after reference referenced s.2 = .ok collected ∧ t = (s.1, collected) := by
  simp only [collectWalk]
  cases after reference referenced s.2 <;> simp [Except.map, eq_comm]

theorem enter_eq_error {s : Visited α} {x : PyException} :
    (collectWalk client before after).enter reference referenced s = .error x ↔
      before reference referenced s.2 = .error x := by
  simp only [collectWalk]
  cases before reference referenced s.2 <;> simp [Except.map]

theorem leave_eq_error {s : Visited α} {x : PyException} :
    (collectWalk client before after).leave reference referenced s = .error x ↔
      after reference referenced s.2 = .error x := by
  simp only [collectWalk]
  cases after reference referenced s.2 <;> simp [Except.map]

theorem assign_eq_ok {value : Text → Outcome β} {c c' : Collected β} :
    assign value reference referenced c = .ok c' ↔
      ∃ v, value referenced.content = .ok v ∧
        c' = Function.update c reference.name (some v) := by
  rw [assign]
  cases value referenced.content <;> simp [Except.map, eq_comm]

theorem assign_eq_error {value : Text → Outcome β} {c : Collected β} {x : PyException} :
    assign value reference referenced c = .error x ↔ value referenced.content = .error x := by
  rw [assign]
  cases value referenced.content <;> simp [Except.map]

end Steps

section Graph

variable {α β : Type} {references : ReferenceKey → List ApicurioReference}
  {contents : ReferenceKey → Text} {roots : List ApicurioReference}
  {before after : ApicurioReference → ApicurioArtifact → α → Outcome α}

theorem meets_iff_reaches {r : ApicurioReference} :
    (collectWalk (.ofGraph references contents) before after).Meets roots r ↔
      Reaches references roots r := by
  constructor
  · intro h
    induction h with
    | root hr => exact .root hr
    | next _ hfetch hr ih =>
      cases hfetch
      exact .next ih hr
  · intro h
    induction h with
    | root hr => exact .root hr
    | next _ hr ih => exact .next ih rfl hr

theorem keyDetermines (client : ApicurioClient) :
    (collectWalk client before after).KeyDetermines roots := by
  intro r r' _ _ hkey
  exact congrArg client.getReferencedArtifact (Except.ok.inj hkey)

/-- On a finite graph a collection comes to an end. -/
theorem exists_result (contents : ReferenceKey → Text)
    (before after : ApicurioReference → ApicurioArtifact → α → Outcome α)
    (hfinite : FiniteGraph references roots) (content : Text) (s : Visited α) :
    ∃ depth result, ((collectWalk (.ofGraph references contents) before after).walk depth
      ⟨content, roots⟩ s).run = some result := by
  obtain ⟨keys, hkeys⟩ := hfinite
  have hK : ∀ r k, (collectWalk (.ofGraph references contents) before after).Meets roots r →
      (collectWalk (.ofGraph references contents) before after).key r = .ok k →
      k ∈ keys.toFinset := by
    intro r k hr hk
    cases hk
    exact List.mem_toFinset.mpr (hkeys r (meets_iff_reaches.mp hr))
  exact ⟨_, Option.ne_none_iff_exists'.mp
    (MarkedWalk.walk_ends hK (fun r hr => .root hr) (Nat.lt_succ_self _))⟩

/-- From nothing visited on, every version that can be reached is entered by one reference. -/
theorem exists_entered {left : List ApicurioReference} {c : α} {z : Visited α}
    (h : (collectWalk (.ofGraph references contents) before after).Walked roots ([], c) left z)
    {r : ApicurioReference} (hr : Reaches references roots r) :
    ∃ e ∈ left, Reaches references roots e ∧ e.key = r.key := by
  obtain ⟨k, hk, e, he, hkey⟩ := h.covers (by simp [collectWalk]) (keyDetermines _)
    (meets_iff_reaches.mpr hr)
  refine ⟨e, he, meets_iff_reaches.mp (h.meets (fun _ => .root) e he), ?_⟩
  exact Except.ok.inj (hkey.trans hk.symm)

end Graph

section Names

variable {β : Type} {value : Text → Outcome β} {references : ReferenceKey → List ApicurioReference}
  {contents : ReferenceKey → Text} {roots left : List ApicurioReference}
  {before after : ApicurioReference → ApicurioArtifact → Collected β → Outcome (Collected β)}
  {s z : Visited (Collected β)}

/-- One of the steps of a reference assigns a value, the other one collects nothing. -/
def AssignsOnce (value : Text → Outcome β)
    (before after : ApicurioReference → ApicurioArtifact → Collected β → Outcome (Collected β)) :
    Prop :=
  (before = skip ∧ after = assign value) ∨ (before = assign value ∧ after = skip)

/-- What the content of a reference stands for is kept under its name. -/
def Holds (value : Text → Outcome β) (contents : ReferenceKey → Text) (r : ApicurioReference)
    (collected : Collected β) : Prop :=
  ∃ v, value (contents r.key) = .ok v ∧ collected r.name = some v

theorem holds_assign {r r' : ApicurioReference} {referenced : ApicurioArtifact} {c c' : Collected β}
    (hcontent : referenced.content = contents r'.key) (h : assign value r' referenced c = .ok c')
    (hkeys : r.name = r'.name → r.key = r'.key) (hr : r.name = r'.name ∨ Holds value contents r c) :
    Holds value contents r c' := by
  obtain ⟨v, hv, rfl⟩ := assign_eq_ok.mp h
  by_cases hname : r.name = r'.name
  · refine ⟨v, ?_, by simp [hname]⟩
    rw [hkeys hname, ← hcontent, hv]
  · obtain ⟨w, hw, hc⟩ := hr.resolve_left hname
    exact ⟨w, hw, by rwa [Function.update_of_ne hname]⟩

/-- Where a name belongs to one version only, every reference that was entered has its value. -/
theorem holds_of_walked (hsteps : AssignsOnce value before after)
    (h : (collectWalk (.ofGraph references contents) before after).Walked roots s left z)
    (hkeys : ∀ r ∈ left, ∀ r' ∈ left, r.name = r'.name → r.key = r'.key) :
    ∀ r ∈ left, Holds value contents r z.2 := by
  refine h.records (P := fun r s => Holds value contents r s.2) ?_ ?_ ?_
  · rcases hsteps with ⟨rfl, rfl⟩ | ⟨rfl, rfl⟩
    · refine .inr fun hr hfetch hleave => ?_
      cases hfetch
      obtain ⟨c, hc, rfl⟩ := leave_eq_ok.mp hleave
      exact holds_assign rfl hc (fun _ => rfl) (.inl rfl)
    · refine .inl fun hr hfetch henter => ?_
      cases hfetch
      obtain ⟨c, hc, rfl⟩ := enter_eq_ok.mp henter
      exact holds_assign rfl hc (fun _ => rfl) (.inl rfl)
  · intro r r' n s t hr hr' hfetch henter hs
    cases hfetch
    obtain ⟨c, hc, rfl⟩ := enter_eq_ok.mp henter
    rcases hsteps with ⟨rfl, rfl⟩ | ⟨rfl, rfl⟩
    · cases hc
      exact hs
    · exact holds_assign rfl hc (hkeys r hr r' hr') (.inr hs)
  · intro r r' n s t hr hr' hfetch hleave hs
    cases hfetch
    obtain ⟨c, hc, rfl⟩ := leave_eq_ok.mp hleave
    rcases hsteps with ⟨rfl, rfl⟩ | ⟨rfl, rfl⟩
    · exact holds_assign rfl hc (hkeys r hr r' hr') (.inr hs)
    · cases hc
      exact hs

/-- A name of no reference that was entered keeps what it had. -/
theorem kept_of_walked (hsteps : AssignsOnce value before after)
    (h : (collectWalk (.ofGraph references contents) before after).Walked roots s left z)
    {name : Text} (hname : ∀ r ∈ left, r.name ≠ name) : z.2 name = s.2 name := by
  refine h.invariant (I := fun t => t.2 name = s.2 name) ?_ ?_ rfl
  · intro r n t u hr _ henter ht
    obtain ⟨c, hc, rfl⟩ := enter_eq_ok.mp henter
    rcases hsteps with ⟨rfl, rfl⟩ | ⟨rfl, rfl⟩
    · cases hc
      exact ht
    · obtain ⟨v, -, rfl⟩ := assign_eq_ok.mp hc
      exact (Function.update_of_ne (hname r hr).symm _ _).trans ht
  · intro r n t u hr _ hleave ht
    obtain ⟨c, hc, rfl⟩ := leave_eq_ok.mp hleave
    rcases hsteps with ⟨rfl, rfl⟩ | ⟨rfl, rfl⟩
    · obtain ⟨v, -, rfl⟩ := assign_eq_ok.mp hc
      exact (Function.update_of_ne (hname r hr).symm _ _).trans ht
    · cases hc
      exact ht

/-- Of two names of one version, which no other version has, one keeps what it had. -/
theorem kept_of_alias (hsteps : AssignsOnce value before after)
    (h : (collectWalk (.ofGraph references contents) before after).Walked roots s left z)
    (hkeys : ∀ r r', Reaches references roots r → Reaches references roots r' →
      r.name = r'.name → r.key = r'.key)
    {r r' : ApicurioReference} (hr : Reaches references roots r) (hr' : Reaches references roots r')
    (hkey : r.key = r'.key) (hname : r.name ≠ r'.name) :
    z.2 r.name = s.2 r.name ∨ z.2 r'.name = s.2 r'.name := by
  have hreached : ∀ e ∈ left, Reaches references roots e := fun e he =>
    meets_iff_reaches.mp (h.meets (fun _ => .root) e he)
  by_cases hentered : ∃ e ∈ left, e.name = r.name
  · obtain ⟨e, he, hename⟩ := hentered
    refine .inr (kept_of_walked hsteps h fun e' he' hename' => hname ?_)
    -- both would have been entered under the one key
    have hsame : e.key = e'.key := by
      rw [hkeys e r (hreached e he) hr hename, hkeys e' r' (hreached e' he') hr' hename', hkey]
    have he' : e = e' :=
      List.inj_on_of_nodup_map h.nodup he he' (congrArg Except.ok hsame)
    rw [← hename, ← hename', he']
  · exact .inl (kept_of_walked hsteps h fun e he hename => hentered ⟨e, he, hename⟩)

/-- A collection raises nothing where every content that can be reached has a value. -/
theorem exists_walked (hsteps : AssignsOnce value before after) (values : ReferenceKey → β)
    (hvalues : ∀ r, Reaches references roots r → value (contents r.key) = .ok (values r.key))
    {depth : ℕ} {content : Text} {result : Except PyException (Visited (Collected β))}
    (h : ((collectWalk (.ofGraph references contents) before after).walk depth ⟨content, roots⟩
      s).run = some result) :
    ∃ left z, result = .ok z ∧
      (collectWalk (.ofGraph references contents) before after).Walked roots s left z := by
  cases result with
  | ok z =>
    obtain ⟨left, hwalked⟩ := MarkedWalk.walked_of_walk h
    exact ⟨left, z, rfl, hwalked⟩
  | error x =>
    obtain ⟨r, hr, hfails⟩ := MarkedWalk.walk_error roots (fun r hr => .root hr) h
    have hvalue := hvalues r (meets_iff_reaches.mp hr)
    rcases hfails with hkey | hfetch | ⟨n, t, hfetch, henter | hleave⟩
    · cases hkey
    · cases hfetch
    · cases hfetch
      rw [enter_eq_error] at henter
      rcases hsteps with ⟨rfl, rfl⟩ | ⟨rfl, rfl⟩
      · cases henter
      · rw [assign_eq_error, hvalue] at henter
        cases henter
    · cases hfetch
      rw [leave_eq_error] at hleave
      rcases hsteps with ⟨rfl, rfl⟩ | ⟨rfl, rfl⟩
      · rw [assign_eq_error, hvalue] at hleave
        cases hleave
      · cases hleave

end Names

section Json

variable {F E : Type} [PyFloat F] (py : Interpreter F E)
  (references : ReferenceKey → List ApicurioReference) (artifact : ApicurioArtifact)

/-- The collection for an artifact comes to an end, and where all contents are JSON documents it has
the document of every reference under the name of the reference. -/
def CollectsJson (contents : ReferenceKey → Text) : Prop :=
  ∃ depth result,
    (collectJson py (.ofGraph references contents) depth artifact (fun _ => none) []).run =
      some result ∧
    ∀ documents : ReferenceKey → Value F E,
      (∀ r, Reaches references artifact.references r →
        json py (contents r.key) = .ok (documents r.key)) →
      ∃ s, result = .ok s ∧
        ∀ r, Reaches references artifact.references r → s.2 r.name = some (documents r.key)

theorem loads_literal (lim : JsonLimits) :
    Python.loads (F := F) (E := E) lim (text "true") = .ok (.bool true) ∧
      Python.loads (F := F) (E := E) lim (text "null") = .ok .null := by
  obtain ⟨digits, nesting⟩ := lim
  cases nesting <;> exact ⟨rfl, rfl⟩

theorem json_true : json py (text "true") = .ok (.bool true) := by
  rw [json, (loads_literal py.jsonLimits).1]

theorem json_null : json py (text "null") = .ok .null := by
  rw [json, (loads_literal py.jsonLimits).2]

variable {py references artifact} in
theorem CollectsJson.exists_walked {contents : ReferenceKey → Text}
    (h : CollectsJson py references artifact contents) (documents : ReferenceKey → Value F E)
    (hdocuments : ∀ key, json py (contents key) = .ok (documents key)) :
    ∃ left z, (jsonWalk py (.ofGraph references contents)).Walked artifact.references
        ([], fun _ => none) left z ∧
      ∀ r, Reaches references artifact.references r → z.2 r.name = some (documents r.key) := by
  obtain ⟨depth, result, hrun, hresult⟩ := h
  obtain ⟨z, rfl, hz⟩ := hresult documents fun r _ => hdocuments r.key
  obtain ⟨left, hwalked⟩ := MarkedWalk.walked_of_walk hrun
  exact ⟨left, z, hwalked, hz⟩

/-- Whatever the contents are, the documents of all references are collected, if and only if names
and versions belong to each other: a version is visited once, under one of its names. -/
theorem collectsJson_iff (hfinite : FiniteGraph references artifact.references) :
    (∀ contents, CollectsJson py references artifact contents) ↔
      ∀ r r', Reaches references artifact.references r → Reaches references artifact.references r' →
        (r.name = r'.name ↔ r.key = r'.key) := by
  have hsteps : AssignsOnce (json py) skip (assign (json py)) := .inl ⟨rfl, rfl⟩
  constructor
  · intro h
    have hkeys : ∀ r r', Reaches references artifact.references r →
        Reaches references artifact.references r' → r.name = r'.name → r.key = r'.key := by
      intro r r' hr hr' hname
      by_contra hkey
      -- two versions with one name and different documents
      obtain ⟨left, z, -, hz⟩ := (h fun key => if key = r.key then text "true" else text "null")
        |>.exists_walked (fun key => if key = r.key then .bool true else .null)
        fun key => by
          split
          · exact json_true py
          · exact json_null py
      have hsame := (hz r hr).symm.trans (hname ▸ hz r' hr')
      simp [Ne.symm hkey] at hsame
    intro r r' hr hr'
    refine ⟨hkeys r r' hr hr', fun hkey => ?_⟩
    by_contra hname
    obtain ⟨left, z, hwalked, hz⟩ := (h fun _ => text "true").exists_walked
      (fun _ => .bool true) fun _ => json_true py
    rcases kept_of_alias hsteps hwalked hkeys hr hr' hkey hname with hnone | hnone
    · rw [hz r hr] at hnone
      cases hnone
    · rw [hz r' hr'] at hnone
      cases hnone
  · intro hnames contents
    obtain ⟨depth, result, hrun⟩ := exists_result contents skip (assign (json py)) hfinite
      artifact.content ([], fun _ => none)
    refine ⟨depth, result, hrun, fun documents hdocuments => ?_⟩
    obtain ⟨left, z, rfl, hwalked⟩ := ApicurioSchemas.exists_walked hsteps documents hdocuments hrun
    refine ⟨z, rfl, fun r hr => ?_⟩
    have hreached : ∀ e ∈ left, Reaches references artifact.references e := fun e he =>
      meets_iff_reaches.mp (hwalked.meets (fun _ => .root) e he)
    obtain ⟨e, he, hre, hkey⟩ := exists_entered hwalked hr
    obtain ⟨v, hv, hcollected⟩ := holds_of_walked hsteps hwalked
      (fun r hr r' hr' => (hnames r r' (hreached r hr) (hreached r' hr')).mp) e he
    rw [hdocuments e hre] at hv
    rw [← (hnames e r hre hr).mpr hkey, hcollected, ← Except.ok.inj hv, hkey]

end Json

def shared (name : String) : ApicurioReference :=
  ⟨text name, text "default", text "shared", text "1"⟩

theorem key_of_reaches {references : ReferenceKey → List ApicurioReference}
    {roots : List ApicurioReference} (key : ReferenceKey)
    (hreferences : ∀ k, ∀ r ∈ references k, r.key = key) (hroots : ∀ r ∈ roots, r.key = key) :
    ∀ r, Reaches references roots r → r.key = key := by
  intro r hr
  cases hr with
  | root hr => exact hroots r hr
  | next _ hr => exact hreferences _ r hr

/-- The condition holds of an artifact that references itself. -/
theorem collectsJson_iff_cycle :
    (∀ contents, CollectsJson Interpreter.plain (fun _ => [shared "itself"])
        ⟨text "true", [shared "itself"]⟩ contents) ↔
      ∀ r r', Reaches (fun _ => [shared "itself"]) [shared "itself"] r →
        Reaches (fun _ => [shared "itself"]) [shared "itself"] r' →
        (r.name = r'.name ↔ r.key = r'.key) :=
  collectsJson_iff Interpreter.plain (fun _ => [shared "itself"])
    ⟨text "true", [shared "itself"]⟩
    ⟨[(shared "itself").key], fun r hr => List.mem_singleton.mpr
      (key_of_reaches _ (by simp) (by simp) r hr)⟩

/-- An artifact that is referenced under two names: one of them is never collected. -/
theorem not_collectsJson_alias :
    FiniteGraph (fun _ => []) [shared "one", shared "two"] ∧
      ¬ CollectsJson Interpreter.plain (fun _ => []) ⟨text "true", [shared "one", shared "two"]⟩
        fun _ => text "true" := by
  have hkey : ∀ r, Reaches (fun _ => []) [shared "one", shared "two"] r →
      r.key = (shared "one").key :=
    key_of_reaches _ (by simp) (by simp [shared, ApicurioReference.key])
  refine ⟨⟨[(shared "one").key], fun r hr => List.mem_singleton.mpr (hkey r hr)⟩, fun h => ?_⟩
  obtain ⟨left, z, hwalked, hz⟩ := h.exists_walked (fun _ => .bool true) fun _ =>
    json_true Interpreter.plain
  have hone : Reaches (fun _ => []) [shared "one", shared "two"] (shared "one") :=
    .root (by simp)
  have htwo : Reaches (fun _ => []) [shared "one", shared "two"] (shared "two") :=
    .root (by simp)
  have hnone := kept_of_alias (.inl ⟨rfl, rfl⟩) hwalked
    (fun r r' hr hr' _ => (hkey r hr).trans (hkey r' hr').symm) hone htwo rfl (by decide)
  rw [hz _ hone, hz _ htwo] at hnone
  simp at hnone

section Protobuf

variable (references : ReferenceKey → List ApicurioReference) (artifact : ApicurioArtifact)

/-- The sources that are handed over are the artifact's own content as the root, and the content of
every reference under its name. -/
def HandsSources (contents : ReferenceKey → Text) : Prop :=
  ∃ depth sources,
    (protobufSources (.ofGraph references contents) depth artifact).run = some (.ok sources) ∧
    sources rootProto = some artifact.content ∧
    ∀ r, Reaches references artifact.references r → sources r.name = some (contents r.key)

theorem protobufSources_eq_ok {client : ApicurioClient} {depth : ℕ} {sources : Collected Text} :
    (protobufSources client depth artifact).run = some (.ok sources) ↔
      ∃ visited, (collectProtobuf client depth artifact (rootSources artifact) []).run =
        some (.ok (visited, sources)) := by
  rw [protobufSources, Steps.run_bind_eq_ok]
  constructor
  · rintro ⟨⟨visited, sources'⟩, hrun, hpure⟩
    cases hpure
    exact ⟨visited, hrun⟩
  · rintro ⟨visited, hrun⟩
    exact ⟨(visited, sources), hrun, rfl⟩

/-- Where a name belongs to one version only, the sources are right, whatever the contents are, if
and only if no reference has the name of the root and a version has one name only. -/
theorem handsSources_iff (roots : List ApicurioReference) (hfinite : FiniteGraph references roots)
    (hkeys : ∀ r r', Reaches references roots r → Reaches references roots r' →
      r.name = r'.name → r.key = r'.key) :
    (∀ content contents, HandsSources references ⟨content, roots⟩ contents) ↔
      (∀ r, Reaches references roots r → r.name ≠ rootProto) ∧
        ∀ r r', Reaches references roots r → Reaches references roots r' →
          r.key = r'.key → r.name = r'.name := by
  have hsteps : AssignsOnce .ok (assign .ok) skip := .inr ⟨rfl, rfl⟩
  constructor
  · intro h
    have hroot : ∀ r, Reaches references roots r → r.name ≠ rootProto := by
      intro r hr hname
      obtain ⟨depth, sources, -, hown, hsources⟩ := h (text "own") fun _ => text "other"
      have hsame : some (text "other") = some (text "own") :=
        (hsources r hr).symm.trans (hname ▸ hown)
      exact absurd hsame (by decide)
    refine ⟨hroot, fun r r' hr hr' hkey => ?_⟩
    by_contra hname
    obtain ⟨depth, sources, hrun, -, hsources⟩ := h [] fun _ => []
    obtain ⟨visited, hrun⟩ := (protobufSources_eq_ok _).mp hrun
    obtain ⟨left, hwalked⟩ := MarkedWalk.walked_of_walk hrun
    rcases kept_of_alias hsteps hwalked hkeys hr hr' hkey hname with hnone | hnone
    · exact Option.some_ne_none _ ((hsources r hr).symm.trans
        (hnone.trans (rootSources_of_ne _ (hroot r hr))))
    · exact Option.some_ne_none _ ((hsources r' hr').symm.trans
        (hnone.trans (rootSources_of_ne _ (hroot r' hr'))))
  · rintro ⟨hroot, hnames⟩ content contents
    obtain ⟨depth, result, hrun⟩ := exists_result contents (assign .ok) skip hfinite content
      ([], rootSources ⟨content, roots⟩)
    obtain ⟨left, ⟨visited, sources⟩, rfl, hwalked⟩ :=
      ApicurioSchemas.exists_walked hsteps contents (fun _ _ => rfl) hrun
    have hreached : ∀ e ∈ left, Reaches references roots e := fun e he =>
      meets_iff_reaches.mp (hwalked.meets (fun _ => .root) e he)
    refine ⟨depth, sources, (protobufSources_eq_ok _).mpr ⟨visited, hrun⟩, ?_, fun r hr => ?_⟩
    · exact (kept_of_walked hsteps hwalked fun e he => hroot e (hreached e he)).trans
        (rootSources_root _)
    · obtain ⟨e, he, hre, hkey⟩ := exists_entered hwalked hr
      obtain ⟨v, hv, hcollected⟩ := holds_of_walked hsteps hwalked
        (fun r hr r' hr' => hkeys r r' (hreached r hr) (hreached r' hr')) e he
      cases hv
      rw [← hnames e r hre hr hkey, ← hkey]
      exact hcollected

/-- The condition holds of an artifact that references itself. -/
theorem handsSources_iff_cycle :
    (∀ content contents, HandsSources (fun _ => [shared "a.proto"])
        ⟨content, [shared "a.proto"]⟩ contents) ↔
      (∀ r, Reaches (fun _ => [shared "a.proto"]) [shared "a.proto"] r → r.name ≠ rootProto) ∧
        ∀ r r', Reaches (fun _ => [shared "a.proto"]) [shared "a.proto"] r →
          Reaches (fun _ => [shared "a.proto"]) [shared "a.proto"] r' →
          r.key = r'.key → r.name = r'.name :=
  handsSources_iff (fun _ => [shared "a.proto"]) [shared "a.proto"]
    ⟨[(shared "a.proto").key], fun r hr => List.mem_singleton.mpr
      (key_of_reaches _ (by simp) (by simp) r hr)⟩
    fun r r' hr hr' _ => (key_of_reaches (shared "a.proto").key (by simp) (by simp) r hr).trans
      (key_of_reaches _ (by simp) (by simp) r' hr').symm

/-- A reference with the name of the root takes the place of the artifact. -/
theorem not_handsSources_root :
    FiniteGraph (fun _ => []) [shared "root.proto"] ∧
      (∀ r r', Reaches (fun _ => []) [shared "root.proto"] r →
        Reaches (fun _ => []) [shared "root.proto"] r' → r.name = r'.name → r.key = r'.key) ∧
      ¬ HandsSources (fun _ => []) ⟨text "own", [shared "root.proto"]⟩ fun _ => text "other" := by
  have hkey : ∀ r, Reaches (fun _ => []) [shared "root.proto"] r →
      r.key = (shared "root.proto").key := key_of_reaches _ (by simp) (by simp)
  refine ⟨⟨[(shared "root.proto").key], fun r hr => List.mem_singleton.mpr (hkey r hr)⟩,
    fun r r' hr hr' _ => (hkey r hr).trans (hkey r' hr').symm, ?_⟩
  rintro ⟨depth, sources, -, hown, hsources⟩
  have hother := hsources (shared "root.proto") (.root (by simp))
  rw [show (shared "root.proto").name = rootProto from rfl, hown] at hother
  exact absurd hother (by decide)

end Protobuf

end ApicurioSchemas

end Kaskade
