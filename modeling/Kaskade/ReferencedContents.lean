import Kaskade.AvroParsing
import Kaskade.ReferencedArtifacts

/-!
# Contents in dependency order

`_collect_contents` of both registries lists the contents of all references of an Avro schema, and
`parse_avro_schema` parses them in this order. On a graph without cycles every content stands behind
those it needs, so that the parser knows the names they define.
-/

namespace Kaskade

open Python

namespace ConfluentSchemas

/-- A reference as the registry returns it; every part of it may be missing. -/
structure Reference where
  name : Option Text
  subject : Option Text
  version : Option ℤ

/-- What is read of a `Schema`; its content may be missing. -/
structure RegisteredSchema where
  schemaStr : Option Text
  references : List Reference

structure Client where
  getVersion : Text → ℤ → Outcome RegisteredSchema

/-- An item of `_references`: the name of a reference and the schema it names. -/
def referenced (client : Client) (reference : Reference) : Outcome (Text × RegisteredSchema) :=
  match reference.name, reference.subject, reference.version with
  | some name, some subject, some version =>
    (client.getVersion subject version).map fun registered => (name, registered)
  | _, _, _ => .error (schemaError (text "Schema reference is incomplete"))

def content (schema : RegisteredSchema) : Outcome Text :=
  match schema.schemaStr with
  | some t => .ok t
  | none => .error (schemaError (text "Schema is empty"))

/-- The walk of `_collect_contents`, which marks names; a reference is fetched before its name is
looked up among them. -/
def contentsWalk (client : Client) :
    MarkedWalk RegisteredSchema Reference Text (List Text × List Text) PyException where
  edges schema := schema.references
  key reference := (referenced client reference).map (·.1)
  fetch reference := (referenced client reference).map (·.2)
  marked s name := name ∈ s.1
  enter reference _ s := (referenced client reference).map fun r => (r.1 :: s.1, s.2)
  leave _ schema s := (content schema).map fun t => (s.1, s.2 ++ [t])
  marked_enter := by
    intro r n k s t hk ht k'
    cases hreferenced : referenced client r with
    | error x => simp [hreferenced, Except.map] at ht
    | ok p =>
      simp only [hreferenced, Except.map, Except.ok.injEq] at hk ht
      subst hk ht
      simp [or_comm]
  marked_leave := by
    intro r n s t ht k
    cases hcontent : content n with
    | error x => simp [hcontent, Except.map] at ht
    | ok c =>
      simp only [hcontent, Except.map, Except.ok.injEq] at ht
      subst ht
      rfl

def collectContents (client : Client) (depth : ℕ) (schema : RegisteredSchema)
    (contents : List Text) (visited : List Text) : Steps PyException (List Text × List Text) :=
  (contentsWalk client).walk depth schema (visited, contents)

end ConfluentSchemas

section Contents

variable {F E D N R κ : Type} [PyFloat F] {py : Interpreter F E} {parser : AvroParser F E D}

/-- After these contents the parser refuses a content only for names that are defined by no content
that the edges lead to. -/
def FindsDefinitions (py : Interpreter F E) (documented : parser.Documented)
    (w : MarkedWalk N R κ (List κ × List Text) PyException) (content : N → Outcome Text)
    (edges : List R) (references : List Text) (own : Text) : Prop :=
  ∀ named schema name, AvroParser.parseReferences py parser references (fun _ => none) = .ok named →
    py.loads own = .ok schema → parser.parseSchema schema named = .error (.unknownType name) →
    ∀ e n c definition, w.Meets edges e → w.fetch e = .ok n → content n = .ok c →
      py.loads c = .ok definition → name ∉ documented.defines definition

/-- The result of a collection: it raises only what a reference raises, and without cycles it lists
the content of every reference that can be reached, one for each key and each after those it uses,
so that the parser finds what references define, for each content and for the schema itself. -/
def CollectsInOrder (py : Interpreter F E) (documented : parser.Documented)
    (w : MarkedWalk N R κ (List κ × List Text) PyException) (content : N → Outcome Text) (root : N)
    (result : Outcome (List κ × List Text)) : Prop :=
  ((∀ e x, w.Meets (w.edges root) e → ¬ w.Fails e x) → ∃ s, result = .ok s) ∧
  ∀ visited contents, result = .ok (visited, contents) → w.Acyclic (w.edges root) →
    ∃ order, w.DependencyOrder (w.edges root) order ∧
      order.map (fun e => w.fetch e >>= content) = contents.map .ok ∧
      (∀ own, content root = .ok own →
        FindsDefinitions py documented w content (w.edges root) contents own) ∧
      ∀ pre e post n own, order = pre ++ e :: post → w.fetch e = .ok n → content n = .ok own →
        FindsDefinitions py documented w content (w.edges n) (contents.take pre.length) own

variable {w : MarkedWalk N R κ (List κ × List Text) PyException} {content : N → Outcome Text}

theorem content_mem {order : List R} {contents : List Text} {e : R} {n : N} {c : Text}
    (hcontents : order.map (fun e => w.fetch e >>= content) = contents.map .ok) (he : e ∈ order)
    (hfetch : w.fetch e = .ok n) (hc : content n = .ok c) : c ∈ contents := by
  have hmem : (.ok c : Outcome Text) ∈ contents.map .ok := by
    rw [← hcontents]
    refine List.mem_map.mpr ⟨e, he, ?_⟩
    rw [hfetch]
    exact hc
  obtain ⟨c', hc', heq⟩ := List.mem_map.mp hmem
  exact Except.ok.inj heq ▸ hc'

/-- The parser finds what edges define whose keys belong to contents it has parsed. -/
theorem findsDefinitions_of_covered {documented : parser.Documented} {roots edges order : List R}
    {references : List Text} {own : Text} (hkeys : w.KeyDetermines roots)
    (hcontents : order.map (fun e => w.fetch e >>= content) = references.map .ok)
    (horder : ∀ e ∈ order, w.Meets roots e) (hedges : ∀ e, w.Meets edges e → w.Meets roots e)
    (hcovers : ∀ e, w.Meets edges e → ∃ b ∈ order, w.key b = w.key e) :
    FindsDefinitions py documented w content edges references own := by
  intro named schema name hnamed _ hunknown e n c definition he hfetch hc hdefinition
  obtain ⟨b, hb, hkey⟩ := hcovers e he
  have hsame : w.fetch b = .ok n := (hkeys b e (horder b hb) (hedges e he) hkey).trans hfetch
  exact documented.not_defined_of_unknown hnamed hunknown c (content_mem hcontents hb hsame hc)
    definition hdefinition

/-- A completed walk that lists contents where it leaves edges collects them in order. -/
theorem collectsInOrder_of_walk (documented : parser.Documented) {root : N} {depth : ℕ}
    {result : Outcome (List κ × List Text)}
    (hkeys : w.KeyDetermines (w.edges root)) (hmarked : ∀ k, w.marked ([], []) k = false)
    (henter : ∀ {e n s t}, w.enter e n s = .ok t → t.2 = s.2)
    (hleave : ∀ {e n s t}, w.leave e n s = .ok t → ∃ c, content n = .ok c ∧ t.2 = s.2 ++ [c])
    (hrun : (w.walk depth root ([], [])).run = some result) :
    CollectsInOrder py documented w content root result := by
  constructor
  · intro hfails
    cases result with
    | ok s => exact ⟨s, rfl⟩
    | error x =>
      obtain ⟨e, he, hx⟩ := MarkedWalk.walk_error (w.edges root) (fun e he => .root he) hrun
      exact absurd hx (hfails e x he)
  · rintro visited contents rfl hacyclic
    obtain ⟨order, hwalked⟩ := MarkedWalk.walked_of_walk hrun
    have hordered := hwalked.dependencyOrder hmarked hkeys hacyclic
    have hcontents : order.map (fun e => w.fetch e >>= content) = contents.map .ok := by
      have hemits := hwalked.emits (fun s => s.2.map .ok)
        (fun e => w.fetch e >>= content) (fun _ => .root)
        (fun henter' => by rw [henter henter']) fun _ hfetch hleave' => by
          obtain ⟨c, hc, ht⟩ := hleave hleave'
          rw [ht, hfetch, List.map_append]
          simp [bind, Except.bind, hc]
      simpa using hemits.symm
    refine ⟨order, hordered, hcontents, ?_, ?_⟩
    · intro own _
      exact findsDefinitions_of_covered hkeys hcontents hordered.meets (fun _ he => he)
        hordered.covers
    · intro pre e post n own hsplit hfetch _
      have hmeets : ∀ d, w.Meets (w.edges n) d → w.Meets (w.edges root) d := by
        intro d hd
        have he := hordered.meets e (by simp [hsplit])
        induction hd with
        | root hd => exact .next he hfetch hd
        | next _ hfetch' hd ih => exact .next ih hfetch' hd
      have htaken : pre.map (fun e => w.fetch e >>= content) =
          (contents.take pre.length).map .ok := by
        rw [List.map_take, ← hcontents, hsplit, List.map_append, List.take_left' (by simp)]
      exact findsDefinitions_of_covered hkeys htaken
        (fun b hb => hordered.meets b (by simp [hsplit, hb])) hmeets
        fun d hd => hordered.reached hkeys hsplit hfetch hd

/-- Both collections of contents come to an end on finite graphs, and the result is in order. -/
theorem collectContents_inOrder (py : Interpreter F E) (documented : parser.Documented) :
    (∀ (client : ApicurioClient) (artifact : ApicurioArtifact) (keys : List ReferenceKey),
      (∀ r, (ApicurioSchemas.contentsWalk client).Meets artifact.references r → r.key ∈ keys) →
      ∃ depth result,
        (ApicurioSchemas.collectContents client depth artifact [] []).run = some result ∧
        CollectsInOrder py documented (ApicurioSchemas.contentsWalk client)
          (fun referenced => .ok referenced.content) artifact result) ∧
    ∀ (client : ConfluentSchemas.Client) (schema : ConfluentSchemas.RegisteredSchema)
      (names : List Text),
      (∀ r name, (ConfluentSchemas.contentsWalk client).Meets schema.references r →
        (ConfluentSchemas.contentsWalk client).key r = .ok name → name ∈ names) →
      (ConfluentSchemas.contentsWalk client).KeyDetermines schema.references →
      ∃ depth result,
        (ConfluentSchemas.collectContents client depth schema [] []).run = some result ∧
        CollectsInOrder py documented (ConfluentSchemas.contentsWalk client)
          ConfluentSchemas.content schema result := by
  constructor
  · intro client artifact keys hfinite
    have hK : ∀ r k, (ApicurioSchemas.contentsWalk client).Meets artifact.references r →
        (ApicurioSchemas.contentsWalk client).key r = .ok k → k ∈ keys.toFinset := by
      intro r k hr hk
      cases hk
      exact List.mem_toFinset.mpr (hfinite r hr)
    obtain ⟨result, hrun⟩ := Option.ne_none_iff_exists'.mp
      (MarkedWalk.walk_ends (n := artifact) (s := ([], [])) hK (fun r hr => .root hr)
        (Nat.lt_succ_self _))
    refine ⟨_, result, hrun, collectsInOrder_of_walk documented
      (ApicurioSchemas.keyDetermines client) (fun _ => by simp [ApicurioSchemas.contentsWalk,
        ApicurioSchemas.collectWalk]) ?_ ?_ hrun⟩
    · intro e n s t h
      obtain ⟨c, hc, rfl⟩ := ApicurioSchemas.enter_eq_ok.mp h
      cases hc
      rfl
    · intro e n s t h
      obtain ⟨c, hc, rfl⟩ := ApicurioSchemas.leave_eq_ok.mp h
      cases hc
      exact ⟨n.content, rfl, rfl⟩
  · intro client schema names hfinite hkeys
    have hK : ∀ r k, (ConfluentSchemas.contentsWalk client).Meets schema.references r →
        (ConfluentSchemas.contentsWalk client).key r = .ok k → k ∈ names.toFinset :=
      fun r k hr hk => List.mem_toFinset.mpr (hfinite r k hr hk)
    obtain ⟨result, hrun⟩ := Option.ne_none_iff_exists'.mp
      (MarkedWalk.walk_ends (n := schema) (s := ([], [])) hK (fun r hr => .root hr)
        (Nat.lt_succ_self _))
    refine ⟨_, result, hrun, collectsInOrder_of_walk documented hkeys
      (fun _ => by simp [ConfluentSchemas.contentsWalk]) ?_ ?_ hrun⟩
    · intro e n s t h
      simp only [ConfluentSchemas.contentsWalk] at h
      cases hreferenced : ConfluentSchemas.referenced client e with
      | error x => simp [hreferenced, Except.map] at h
      | ok p =>
        simp only [hreferenced, Except.map, Except.ok.injEq] at h
        exact h ▸ rfl
    · intro e n s t h
      simp only [ConfluentSchemas.contentsWalk] at h
      cases hcontent : ConfluentSchemas.content n with
      | error x => simp [hcontent, Except.map] at h
      | ok c =>
        simp only [hcontent, Except.map, Except.ok.injEq] at h
        exact ⟨c, rfl, h ▸ rfl⟩

end Contents

def leafClient : ConfluentSchemas.Client where
  getVersion _ _ := .ok ⟨some (text "\x7b\"type\": \"record\", \"name\": \"Leaf\", \"fields\": []\x7d"), []⟩

/-- Two references to one artifact in Apicurio, and one reference to a record in Confluent. -/
theorem collectContents_inOrder_shared :
    (∃ depth result,
      (ApicurioSchemas.collectContents (.ofGraph (fun _ => []) fun _ => text "\x7b\x7d") depth
        ⟨[], [ApicurioSchemas.shared "one", ApicurioSchemas.shared "two"]⟩ [] []).run =
          some result ∧
      CollectsInOrder Interpreter.plain (AvroParser.recordParser_documented FloatRepr Empty)
        (ApicurioSchemas.contentsWalk (.ofGraph (fun _ => []) fun _ => text "\x7b\x7d"))
        (fun referenced => .ok referenced.content)
        ⟨[], [ApicurioSchemas.shared "one", ApicurioSchemas.shared "two"]⟩ result) ∧
    ∃ depth result,
      (ConfluentSchemas.collectContents leafClient depth
        ⟨none, [⟨some (text "Leaf"), some (text "leaf"), some 1⟩]⟩ [] []).run = some result ∧
      CollectsInOrder Interpreter.plain (AvroParser.recordParser_documented FloatRepr Empty)
        (ConfluentSchemas.contentsWalk leafClient) ConfluentSchemas.content
        ⟨none, [⟨some (text "Leaf"), some (text "leaf"), some 1⟩]⟩ result := by
  have hmeets : ∀ r, (ConfluentSchemas.contentsWalk leafClient).Meets
      [⟨some (text "Leaf"), some (text "leaf"), some 1⟩] r →
      r = ⟨some (text "Leaf"), some (text "leaf"), some 1⟩ := by
    intro r hr
    induction hr with
    | root hr => exact List.mem_singleton.mp hr
    | next _ hfetch hr ih =>
      subst ih
      cases hfetch
      cases hr
  refine ⟨(collectContents_inOrder Interpreter.plain
    (AvroParser.recordParser_documented FloatRepr Empty)).1 _ _
      [(ApicurioSchemas.shared "one").key] ?_,
    (collectContents_inOrder Interpreter.plain
    (AvroParser.recordParser_documented FloatRepr Empty)).2 leafClient _ [text "Leaf"] ?_ ?_⟩
  · intro r hr
    exact List.mem_singleton.mpr (ApicurioSchemas.key_of_reaches _ (by simp)
      (by simp [ApicurioSchemas.shared, ApicurioReference.key]) r (ApicurioSchemas.meets_iff_reaches.mp hr))
  · intro r name hr hname
    rw [hmeets r hr] at hname
    cases hname
    exact List.mem_singleton.mpr rfl
  · intro r r' hr hr' _
    rw [hmeets r hr, hmeets r' hr']

end Kaskade
