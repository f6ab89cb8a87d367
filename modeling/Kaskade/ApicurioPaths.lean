import Kaskade.BoundedSteps
import Kaskade.PercentEncoding
import Kaskade.SchemaRegistration

/-!
# The requests to Apicurio

The requests that `ApicurioClient` sends, with their paths, parameters and bodies. Groups, artifacts and
versions can be any text but a dot or two, which a path drops; they are encoded, so that what is requested
is told from what is sent.
-/

namespace Kaskade

open Python

/-- What `ApicurioClient` requests from the registry. -/
inductive RegistryRequest where
  /-- The content that `get_artifact` reads. -/
  | artifactContent (kind : IdKind) (artifactId : ℤ)
  | artifactReferences (kind : IdKind) (artifactId : ℤ)
  /-- A page that `get_metadata` reads. -/
  | searchVersions (kind : IdKind) (artifactId : ℤ) (offset : ℕ)
  | versionMetadata (group artifact version : Text)
  | createVersion (submission : ArtifactSubmission)
  /-- The content that `get_referenced_artifact` reads. -/
  | referencedContent (group artifact version : Text)
  | furtherReferences (group artifact version : Text)

/-- What is sent; numbers among the parameters are their texts. -/
structure SentRequest (F E : Type) where
  method : Text
  path : Text
  params : List (Text × Text)
  json : Option (Value F E)

namespace RegistryRequest

variable {F E : Type} (py : Interpreter F E)

def idPath : IdKind → Text
  | .contentId => text "contentIds"
  | .globalId => text "globalIds"

/-- `use_id`, the name of the parameter of a search. -/
def useId : IdKind → Text
  | .contentId => text "contentId"
  | .globalId => text "globalId"

def joined (segments : List Text) : Text := [chr '/'].intercalate segments

def artifactPath (kind : IdKind) (artifactId : ℤ) : Text :=
  text "/ids/" ++ idPath kind ++ text "/" ++ intText artifactId

def versionPath (group artifact version : Text) : Outcome Text := do
  let group ← quote py group
  let artifact ← quote py artifact
  let version ← quote py version
  return joined [text "/groups", group, text "artifacts", artifact, text "versions", version]

/-- `base` of `get_referenced_artifact`. -/
def referencedPath (group artifact version : Text) : Outcome Text := do
  let group ← quote py group
  let artifact ← quote py artifact
  let version ← quote py version
  return text "/groups/" ++ group ++ text "/artifacts/" ++ artifact ++ text "/versions/" ++ version

def path : RegistryRequest → Outcome Text
  | .artifactContent kind artifactId => return artifactPath kind artifactId
  | .artifactReferences kind artifactId => return artifactPath kind artifactId ++ text "/references"
  | .searchVersions _ _ _ => return text "/search/versions"
  | .versionMetadata group artifact version => versionPath py group artifact version
  | .createVersion submission => do
    let group ← quote py submission.group
    return text "/groups/" ++ group ++ text "/artifacts"
  | .referencedContent group artifact version => do
    let base ← referencedPath py group artifact version
    return base ++ text "/content"
  | .furtherReferences group artifact version => do
    let base ← referencedPath py group artifact version
    return base ++ text "/references"

def method : RegistryRequest → Text
  | .createVersion _ => text "POST"
  | _ => text "GET"

def params : RegistryRequest → List (Text × Text)
  | .artifactContent _ _ => [(text "returnArtifactType", text "true")]
  | .searchVersions kind artifactId offset =>
    [(useId kind, intText artifactId), (text "limit", text "100"), (text "offset", natText offset)]
  | .createVersion _ => [(text "ifExists", text "FIND_OR_CREATE_VERSION")]
  | _ => []

def referenceJson (reference : ApicurioReference) : Value F E :=
  .dict [(text "groupId", .str reference.group), (text "artifactId", .str reference.artifact),
    (text "version", .str reference.version), (text "name", .str reference.name)]

/-- `body` of `create_version`. -/
def submissionJson (submission : ArtifactSubmission) : Value F E :=
  let contentType := if submission.type = SchemaType.protobuf.value then text "application/x-protobuf"
    else text "application/json"
  .dict [(text "artifactId", .str submission.artifact), (text "artifactType", .str submission.type),
    (text "firstVersion", .dict [(text "content", .dict [(text "content", .str submission.content),
      (text "contentType", .str contentType),
      (text "references", .list (submission.references.map referenceJson))])])]

def json : RegistryRequest → Option (Value F E)
  | .createVersion submission => some (submissionJson submission)
  | _ => none

/-- The parts of a path without those that are a dot or two, as a URL drops them. -/
def dropDots (components : List Text) : List Text :=
  components.foldl (fun output component =>
    if component = text "." then output
    else if component = text ".." then
      if output ≠ [] ∧ output ≠ [[]] then output.dropLast else output
    else output ++ [component]) []

def normalizePath (path : Text) : Text := joined (dropDots (path.splitOn (chr '/')))

def send (request : RegistryRequest) : Outcome (SentRequest F E) := do
  let path ← request.path py
  return ⟨request.method, normalizePath path, request.params, request.json⟩

def segments : RegistryRequest → List Text
  | .artifactContent kind artifactId => [[], text "ids", idPath kind, intText artifactId]
  | .artifactReferences kind artifactId =>
    [[], text "ids", idPath kind, intText artifactId, text "references"]
  | .searchVersions _ _ _ => [[], text "search", text "versions"]
  | .versionMetadata group artifact version =>
    [[], text "groups", group, text "artifacts", artifact, text "versions", version]
  | .createVersion submission => [[], text "groups", submission.group, text "artifacts"]
  | .referencedContent group artifact version =>
    [[], text "groups", group, text "artifacts", artifact, text "versions", version, text "content"]
  | .furtherReferences group artifact version =>
    [[], text "groups", group, text "artifacts", artifact, text "versions", version,
      text "references"]

def texts : RegistryRequest → List Text
  | .versionMetadata group artifact version | .referencedContent group artifact version
  | .furtherReferences group artifact version => [group, artifact, version]
  | .createVersion submission => [submission.group]
  | _ => []

def IsDots (t : Text) : Prop := t = text "." ∨ t = text ".."

def WithoutDots (request : RegistryRequest) : Prop := ∀ t ∈ request.texts, ¬ IsDots t

/-- A segment of a path stands for a text: its characters mean nothing else. -/
def StandsFor (segment t : Text) : Prop :=
  (percentDecode segment >>= utf8Decode false) = some t ∧
    ∀ c ∈ segment, isUnreserved c = true ∨ c = chr '%'

variable {py} {segment t : Text}

theorem StandsFor.slash_notMem (h : StandsFor segment t) : chr '/' ∉ segment := by
  intro hmem
  rcases h.2 _ hmem with hplain | heq
  · rw [isUnreserved_slash] at hplain
    cases hplain
  · exact absurd (chr_injective heq) (by decide)

theorem standsFor_quote (h : quote py t = .ok segment) : StandsFor segment t :=
  ⟨quote_decodes h, fun _ hc => mem_quote h hc⟩

theorem standsFor_self (h : ∀ c ∈ t, isUnreserved c = true) : StandsFor t t :=
  ⟨plain_decodes h, fun c hc => .inl (h c hc)⟩

theorem unreserved_intText (i : ℤ) : ∀ c ∈ intText i, isUnreserved c = true := by
  have hdigit : ∀ n, ∀ c ∈ natText n, isUnreserved c = true := by
    intro n c hc
    have hc := isDigit_of_mem_natText hc
    simp only [isDigit, decide_eq_true_eq] at hc
    simp [isUnreserved, hc]
  cases i with
  | ofNat n => exact hdigit n
  | negSucc n => exact List.forall_mem_cons.mpr ⟨by decide, hdigit _⟩

theorem unreserved_idPath (kind : IdKind) : ∀ c ∈ idPath kind, isUnreserved c = true := by
  have hall : (idPath kind).all isUnreserved = true := by cases kind <;> decide
  exact List.all_eq_true.mp hall

theorem standsFor_text {s : String} (h : (text s).all isUnreserved = true) :
    StandsFor (text s) (text s) :=
  standsFor_self (List.all_eq_true.mp h)

theorem standsFor_nil : StandsFor [] [] := standsFor_self fun _ h => absurd h List.not_mem_nil

theorem joined_standsFor {segments texts : List Text} (hne : segments ≠ [])
    (h : List.Forall₂ StandsFor segments texts) :
    pathSegments (joined segments) = some texts ∧
      ∀ c ∈ joined segments, isUnreserved c = true ∨ c = chr '%' ∨ c = chr '/' := by
  refine ⟨pathSegments_intercalate hne (h.imp fun _ _ hs => ⟨hs.1, hs.slash_notMem⟩), ?_⟩
  clear hne
  induction h with
  | nil => exact fun c hc => absurd hc List.not_mem_nil
  | @cons segment _ rest _ hfirst _ ih =>
    intro c hc
    rw [joined] at hc ih
    rcases rest with - | ⟨next, rest⟩
    · rw [List.intercalate_singleton] at hc
      exact (hfirst.2 c hc).imp_right .inl
    · rw [List.intercalate_cons_cons, List.append_assoc, List.mem_append, List.mem_append,
        List.mem_singleton] at hc
      rcases hc with hc | hc | hc
      · exact (hfirst.2 c hc).imp_right .inl
      · exact .inr (.inr hc)
      · exact ih c hc

theorem path_joined {request : RegistryRequest} {p : Text} (h : request.path py = .ok p) :
    ∃ encoded, p = joined encoded ∧ encoded ≠ [] ∧
      List.Forall₂ StandsFor encoded request.segments := by
  have hids := standsFor_text (s := "ids") (by decide)
  have hgroups := standsFor_text (s := "groups") (by decide)
  have hartifacts := standsFor_text (s := "artifacts") (by decide)
  have hversions := standsFor_text (s := "versions") (by decide)
  have hreferences := standsFor_text (s := "references") (by decide)
  have hcontent := standsFor_text (s := "content") (by decide)
  cases request with
  | artifactContent kind artifactId =>
    cases h
    refine ⟨[[], text "ids", idPath kind, intText artifactId], ?_, List.cons_ne_nil _ _, ?_⟩
    · simp [joined, artifactPath, text]
    · exact .cons standsFor_nil (.cons hids (.cons (standsFor_self (unreserved_idPath kind))
        (.cons (standsFor_self (unreserved_intText artifactId)) .nil)))
  | artifactReferences kind artifactId =>
    cases h
    refine ⟨[[], text "ids", idPath kind, intText artifactId, text "references"], ?_,
      List.cons_ne_nil _ _, ?_⟩
    · simp [joined, artifactPath, text]
    · exact .cons standsFor_nil (.cons hids (.cons (standsFor_self (unreserved_idPath kind))
        (.cons (standsFor_self (unreserved_intText artifactId)) (.cons hreferences .nil))))
  | searchVersions kind artifactId offset =>
    cases h
    have hsearch := standsFor_text (s := "search") (by decide)
    refine ⟨[[], text "search", text "versions"], ?_, List.cons_ne_nil _ _, ?_⟩
    · simp [joined, text]
    · exact .cons standsFor_nil (.cons hsearch (.cons hversions .nil))
  | versionMetadata group artifact version =>
    simp only [path, versionPath] at h
    obtain ⟨qgroup, hgroup, h⟩ := bind_eq_ok.mp h
    obtain ⟨qartifact, hartifact, h⟩ := bind_eq_ok.mp h
    obtain ⟨qversion, hversion, h⟩ := bind_eq_ok.mp h
    cases h
    refine ⟨[[], text "groups", qgroup, text "artifacts", qartifact, text "versions", qversion], ?_,
      List.cons_ne_nil _ _, ?_⟩
    · simp [joined, text]
    · exact .cons standsFor_nil (.cons hgroups (.cons (standsFor_quote hgroup) (.cons hartifacts
        (.cons (standsFor_quote hartifact) (.cons hversions
          (.cons (standsFor_quote hversion) .nil))))))
  | createVersion submission =>
    simp only [path] at h
    obtain ⟨qgroup, hgroup, h⟩ := bind_eq_ok.mp h
    cases h
    refine ⟨[[], text "groups", qgroup, text "artifacts"], ?_, List.cons_ne_nil _ _, ?_⟩
    · simp [joined, text]
    · exact .cons standsFor_nil (.cons hgroups (.cons (standsFor_quote hgroup)
        (.cons hartifacts .nil)))
  | referencedContent group artifact version =>
    simp only [path, referencedPath, bind_assoc] at h
    obtain ⟨qgroup, hgroup, h⟩ := bind_eq_ok.mp h
    obtain ⟨qartifact, hartifact, h⟩ := bind_eq_ok.mp h
    obtain ⟨qversion, hversion, h⟩ := bind_eq_ok.mp h
    cases h
    refine ⟨[[], text "groups", qgroup, text "artifacts", qartifact, text "versions", qversion,
      text "content"], ?_, List.cons_ne_nil _ _, ?_⟩
    · simp [joined, text]
    · exact .cons standsFor_nil (.cons hgroups (.cons (standsFor_quote hgroup) (.cons hartifacts
        (.cons (standsFor_quote hartifact) (.cons hversions (.cons (standsFor_quote hversion)
          (.cons hcontent .nil)))))))
  | furtherReferences group artifact version =>
    simp only [path, referencedPath, bind_assoc] at h
    obtain ⟨qgroup, hgroup, h⟩ := bind_eq_ok.mp h
    obtain ⟨qartifact, hartifact, h⟩ := bind_eq_ok.mp h
    obtain ⟨qversion, hversion, h⟩ := bind_eq_ok.mp h
    cases h
    refine ⟨[[], text "groups", qgroup, text "artifacts", qartifact, text "versions", qversion,
      text "references"], ?_, List.cons_ne_nil _ _, ?_⟩
    · simp [joined, text]
    · exact .cons standsFor_nil (.cons hgroups (.cons (standsFor_quote hgroup) (.cons hartifacts
        (.cons (standsFor_quote hartifact) (.cons hversions (.cons (standsFor_quote hversion)
          (.cons hreferences .nil)))))))

theorem dropDots_eq {components : List Text} (h : ∀ component ∈ components, ¬ IsDots component) :
    dropDots components = components := by
  have hkept : ∀ output, components.foldl (fun output component =>
      if component = text "." then output
      else if component = text ".." then
        if output ≠ [] ∧ output ≠ [[]] then output.dropLast else output
      else output ++ [component]) output = output ++ components := by
    induction components with
    | nil => exact fun output => (List.append_nil output).symm
    | cons component components ih =>
      intro output
      obtain ⟨hone, htwo⟩ := not_or.mp (h component List.mem_cons_self)
      rw [List.foldl_cons, if_neg hone, if_neg htwo,
        ih fun other hother => h other (List.mem_cons_of_mem _ hother), List.append_assoc]
      rfl
  exact hkept []

/-- A segment that is a dot or two stands for such a text only. -/
theorem StandsFor.isDots (h : StandsFor segment t) (hdots : IsDots segment) : IsDots t := by
  have hplain : ∀ c ∈ segment, isUnreserved c = true := by
    have hall : segment.all isUnreserved = true := by
      obtain rfl | rfl := hdots <;> decide
    exact List.all_eq_true.mp hall
  have hself := (standsFor_self hplain).1
  rw [h.1] at hself
  exact Option.some.inj hself ▸ hdots

theorem isDots_intText (i : ℤ) : ¬ IsDots (intText i) := by
  have hother : ∀ c ∈ intText i, c ≠ chr '.' := by
    have hdigit : ∀ n, ∀ c ∈ natText n, c ≠ chr '.' := by
      rintro n c hc rfl
      have hdot := isDigit_of_mem_natText hc
      revert hdot
      decide
    cases i with
    | ofNat n => exact hdigit n
    | negSucc n => exact List.forall_mem_cons.mpr ⟨by decide, hdigit _⟩
  rintro (hone | htwo)
  · exact hother (chr '.') (hone ▸ by decide) rfl
  · exact hother (chr '.') (htwo ▸ by decide) rfl

theorem isDots_idPath (kind : IdKind) : ¬ IsDots (idPath kind) := by
  cases kind <;> exact not_or.mpr ⟨by decide, by decide⟩

theorem isDots_text {s : String} : IsDots (text s) ↔ s = "." ∨ s = ".." := by
  rw [IsDots, text_inj, text_inj]

theorem isDots_nil : ¬ IsDots [] := not_or.mpr ⟨by decide, by decide⟩

theorem WithoutDots.segments {request : RegistryRequest} (h : request.WithoutDots) :
    ∀ t ∈ request.segments, ¬ IsDots t := by
  cases request <;>
    simp_all [WithoutDots, RegistryRequest.segments, texts, isDots_text, isDots_nil, isDots_idPath,
      isDots_intText]

theorem normalizePath_joined {encoded texts : List Text} (hne : encoded ≠ [])
    (h : List.Forall₂ StandsFor encoded texts) (hdots : ∀ t ∈ texts, ¬ IsDots t) :
    normalizePath (joined encoded) = joined encoded := by
  have hslash : ∀ segment ∈ encoded, chr '/' ∉ segment ∧ ¬ IsDots segment := by
    clear hne
    induction h with
    | nil => exact fun _ hmem => absurd hmem List.not_mem_nil
    | cons hfirst _ ih =>
      obtain ⟨hown, hrest⟩ := List.forall_mem_cons.mp hdots
      exact List.forall_mem_cons.mpr ⟨⟨hfirst.slash_notMem, fun h => hown (hfirst.isDots h)⟩, ih hrest⟩
  have hsplit : (joined encoded).splitOn (chr '/') = encoded :=
    List.splitOn_intercalate (chr '/') (fun segment hmem => (hslash segment hmem).1) hne
  rw [normalizePath, hsplit, dropDots_eq fun segment hmem => (hslash segment hmem).2]

theorem idPath_injective : Function.Injective idPath := by
  intro kind other h
  cases kind <;> cases other
  · rfl
  · exact absurd (text_inj.mp h) (by decide)
  · exact absurd (text_inj.mp h) (by decide)
  · rfl

theorem useId_injective : Function.Injective useId := by
  intro kind other h
  cases kind <;> cases other
  · rfl
  · exact absurd (text_inj.mp h) (by decide)
  · exact absurd (text_inj.mp h) (by decide)
  · rfl

theorem referenceJson_injective : Function.Injective (referenceJson (F := F) (E := E)) := by
  rintro ⟨name, group, artifact, version⟩ ⟨name', group', artifact', version'⟩ h
  simp only [referenceJson, Value.dict.injEq, List.cons.injEq, Prod.mk.injEq, Value.str.injEq,
    true_and, and_true] at h
  obtain ⟨rfl, rfl, rfl, rfl⟩ := h
  rfl

theorem submissionJson_inj {submission other : ArtifactSubmission} (hgroup : submission.group = other.group)
    (h : submissionJson (F := F) (E := E) submission = submissionJson other) : submission = other := by
  obtain ⟨group, artifact, type, content, references⟩ := submission
  obtain ⟨group', artifact', type', content', references'⟩ := other
  simp only [submissionJson, Value.dict.injEq, List.cons.injEq, Prod.mk.injEq, Value.str.injEq,
    Value.list.injEq, true_and, and_true] at h
  obtain ⟨rfl, rfl, rfl, -, hreferences⟩ := h
  obtain rfl : group = group' := hgroup
  rw [List.map_injective_iff.mpr referenceJson_injective hreferences]

theorem request_told {request other : RegistryRequest} (hsegments : request.segments = other.segments)
    (hparams : request.params = other.params)
    (hjson : request.json (F := F) (E := E) = other.json) : request = other := by
  cases request <;> cases other <;>
    simp only [segments, List.cons.injEq, true_and, and_true, reduceCtorEq, and_false, text_inj,
      String.reduceEq, false_and] at hsegments
  case artifactContent.artifactContent =>
    rw [idPath_injective hsegments.1, intText_injective hsegments.2]
  case artifactReferences.artifactReferences =>
    rw [idPath_injective hsegments.1, intText_injective hsegments.2]
  case searchVersions.searchVersions =>
    simp only [params, List.cons.injEq, Prod.mk.injEq, true_and, and_true] at hparams
    obtain ⟨⟨hkind, hid⟩, hoffset⟩ := hparams
    rw [useId_injective hkind, intText_injective hid, natText_injective hoffset]
  case createVersion.createVersion =>
    rw [submissionJson_inj hsegments (Option.some.inj hjson)]
  all_goals
    obtain ⟨rfl, rfl, rfl⟩ := hsegments
    rfl

/-- Whatever the texts of a request are but a dot or two: its path has no characters but unreserved ones,
percent signs and slashes and its segments decode to just these texts, and no other such request is sent
with the same path, parameters and body. -/
theorem path_tells_request {request : RegistryRequest} {sent : SentRequest F E}
    (hdots : request.WithoutDots) (h : request.send py = .ok sent) :
    (∀ c ∈ sent.path, isUnreserved c = true ∨ c = chr '%' ∨ c = chr '/') ∧
      pathSegments sent.path = some request.segments ∧
      ∀ other : RegistryRequest, other.WithoutDots → other.send py = .ok sent → other = request := by
  have hpath : ∀ {sender : RegistryRequest}, sender.WithoutDots → sender.send py = .ok sent →
      (∀ c ∈ sent.path, isUnreserved c = true ∨ c = chr '%' ∨ c = chr '/') ∧
        pathSegments sent.path = some sender.segments ∧ sent.params = sender.params ∧
        sent.json = sender.json := by
    intro sender hwithout hsent
    obtain ⟨p, hp, hsent⟩ := bind_eq_ok.mp hsent
    obtain rfl := Except.ok.inj hsent
    obtain ⟨encoded, rfl, hne, hstand⟩ := path_joined hp
    obtain ⟨hdecoded, hplain⟩ := joined_standsFor hne hstand
    dsimp only
    rw [normalizePath_joined hne hstand hwithout.segments]
    exact ⟨hplain, hdecoded, rfl, rfl⟩
  obtain ⟨hplain, hdecoded, hparams, hjson⟩ := hpath hdots h
  refine ⟨hplain, hdecoded, fun other hother hsent => ?_⟩
  obtain ⟨-, hdecoded', hparams', hjson'⟩ := hpath hother hsent
  exact request_told (Option.some.inj (hdecoded'.symm.trans hdecoded)) (hparams'.symm.trans hparams)
    (hjson'.symm.trans hjson)

/-- A group with a slash, an artifact with a question mark and a version with a dot and a space. -/
theorem slashed_path_tells_request :
    let request := versionMetadata (text "a/b") (text "order?x") (text "1. 2")
    ∃ sent, request.send Interpreter.plain = .ok sent ∧
      pathSegments sent.path = some request.segments ∧
      ∀ other : RegistryRequest, other.WithoutDots → other.send Interpreter.plain = .ok sent →
        other = request := by
  intro request
  obtain ⟨sent, hsent⟩ : ∃ sent, request.send Interpreter.plain = .ok sent := ⟨_, rfl⟩
  have hdots : request.WithoutDots := by
    have hall : (request.texts.all fun t => t ≠ text "." ∧ t ≠ text "..") = true := by decide
    exact fun t ht => not_or.mpr (of_decide_eq_true (List.all_eq_true.mp hall t ht))
  exact ⟨sent, hsent, (path_tells_request hdots hsent).2⟩

end RegistryRequest

end Kaskade
