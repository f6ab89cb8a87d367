import Kaskade.BoundedSteps
import Kaskade.Exceptions
import Kaskade.PythonValues

/-!
# Searching the versions of an artifact

`ApicurioClient.get_metadata` pages through the versions that the registry knows under an id, until
a page is empty, the registry's count is reached, or a page is shorter than the limit.
-/

namespace Kaskade

open Python

/-- The parameters of a request for `/search/versions`. -/
structure VersionSearch where
  parameter : Text
  artifactId : ℤ
  limit : ℕ
  offset : ℕ

variable {F E : Type}

/-- `len(value)`. -/
def lenOf : Value F E → Outcome ℕ
  | .list items => .ok items.length
  | .dict items => .ok items.length
  | .str s => .ok s.length
  | .bytes data => .ok data.length
  | _ => .error ⟨.typeError, text "object has no len()"⟩

/-- `int(value)`; `other` converts what is no integer. -/
def intOf (other : Value F E → Outcome ℤ) : Value F E → Outcome ℤ
  | .int i => .ok i
  | v => other v

def searchPage (other : Value F E → Outcome ℤ) (json : Outcome (Value F E)) :
    Outcome (List (Value F E) × ℤ) :=
  Outcome.tryExcept
    (do
      let body ← json
      match body with
      | .dict items =>
        let page := (Value.getItem? items (text "artifacts")).getD
          ((Value.getItem? items (text "versions")).getD (.list []))
        let length ← lenOf page
        let count ← intOf other ((Value.getItem? items (text "count")).getD (.int length))
        match page with
        | .list values => return (values, count)
        | _ => .error ⟨.typeError, []⟩
      | _ => .error ⟨.attributeError, text "object has no attribute 'get'"⟩)
    [.typeError, .valueError]
    fun _ => .error ⟨.apicurioRegistryError, text "Invalid Apicurio version search response"⟩

/-- What the client asks: `request` is `_request` followed by `response.json()`. -/
structure MetadataClient (F E : Type) where
  useId : Text
  int : Value F E → Outcome ℤ
  request : VersionSearch → Outcome (Outcome (Value F E))

namespace MetadataClient

def limit : ℕ := 100

variable (client : MetadataClient F E) (artifactId : ℤ)

/-- The loop of `get_metadata`, of so many turns at most. -/
def pages : ℕ → List (Value F E) → ℕ → Steps PyException (List (Value F E))
  | 0, _, _ => Steps.cutOff
  | turns + 1, values, offset => do
    let response ← liftM (client.request ⟨client.useId, artifactId, limit, offset⟩)
    let (page, count) ← liftM (searchPage client.int response)
    let values := values ++ page
    let offset := offset + page.length
    if page.isEmpty ∨ count ≤ offset ∨ page.length < limit then return values
    else pages turns values offset

/-- `get_metadata`; `cached` is what the cache gives for the artifact. -/
def getMetadata (turns : ℕ) (cached : Option (List (Value F E))) :
    Steps PyException (List (Value F E)) :=
  match cached with
  | some values => pure values
  | none => pages client artifactId turns [] 0

/-- Calls one after the other, each of which still finds the entry that the call before it has
stored in the cache, or no longer finds it. -/
def calls (turns : ℕ) : Option (List (Value F E)) → List Bool →
    Steps PyException (List (List (Value F E)))
  | _, [] => pure []
  | cache, found :: later => do
    let values ← getMetadata client artifactId turns (if found then cache else none)
    let results ← calls turns (some values) later
    return values :: results

end MetadataClient

/-- A registry that answers every search for an id honestly: with a part of the list of versions
that starts at the offset and is empty only past the end of the list, no longer than the limit and
than the registry's own maximum, and with the count of the whole list. -/
structure HonestRegistry (F E : Type) where
  versions : List (Value F E)
  /-- The longest page of the registry. -/
  maximum : ℕ
  /-- How long a page is at most, for a limit and an offset. -/
  size : ℕ → ℕ → ℕ
  size_pos : ∀ limit offset, 1 ≤ limit → 1 ≤ size limit offset
  size_le : ∀ limit offset, 1 ≤ limit → size limit offset ≤ limit ∧ size limit offset ≤ maximum
  /-- The document of a page. -/
  body : ℕ → ℕ → List (Text × Value F E)
  body_page : ∀ limit offset,
    (Value.getItem? (body limit offset) (text "artifacts")).getD
      ((Value.getItem? (body limit offset) (text "versions")).getD (.list [])) =
        .list ((versions.drop offset).take (size limit offset))
  body_count : ∀ limit offset,
    Value.getItem? (body limit offset) (text "count") = some (.int versions.length)

namespace HonestRegistry

open MetadataClient

variable (registry : HonestRegistry F E)

def client (useId : Text) (int : Value F E → Outcome ℤ) : MetadataClient F E where
  useId := useId
  int := int
  request search := .ok (.ok (.dict (registry.body search.limit search.offset)))

/-- The page at an offset is as long as the limit, or it reaches the end of the list. -/
def FillsPage (offset : ℕ) : Prop :=
  registry.size limit offset = limit ∨
    registry.versions.length ≤ offset + registry.size limit offset

def FillsPages : Prop :=
  ∀ k, limit * k < registry.versions.length → registry.FillsPage (limit * k)

variable {registry} {useId : Text} {int : Value F E → Outcome ℤ} {artifactId : ℤ}

theorem searchPage_body (limit offset : ℕ) :
    searchPage int (.ok (.dict (registry.body limit offset))) =
      .ok ((registry.versions.drop offset).take (registry.size limit offset),
        registry.versions.length) := by
  have hpage := registry.body_page limit offset
  have hcount := registry.body_count limit offset
  simp only [searchPage, bind, Except.bind, hpage, hcount, lenOf, intOf, Option.getD_some]
  rfl

theorem take_append_page (offset size : ℕ) :
    registry.versions.take offset ++ (registry.versions.drop offset).take size =
      registry.versions.take (offset + size) := List.take_add.symm

/-- A turn that starts at a multiple of the limit, with all versions before it, goes on with the
next multiple if the page is full and does not end the list; else it returns. -/
theorem pages_step (turns k : ℕ) :
    ((registry.client useId int).pages artifactId (turns + 1) (registry.versions.take (limit * k))
        (limit * k)).run =
      if registry.size limit (limit * k) = limit ∧ limit * (k + 1) < registry.versions.length then
        ((registry.client useId int).pages artifactId turns
          (registry.versions.take (limit * (k + 1))) (limit * (k + 1))).run
      else some (.ok (registry.versions.take (limit * k + registry.size limit (limit * k)))) := by
  have hlimit : 1 ≤ limit := by decide
  have hsize := registry.size_le limit (limit * k) hlimit
  have hpositive := registry.size_pos limit (limit * k) hlimit
  have hsucc : limit * (k + 1) = limit * k + limit := Nat.mul_succ limit k
  rw [pages, Steps.run_bind]
  simp only [client, Steps.run_lift]
  rw [Steps.run_bind]
  simp only [Steps.run_lift, searchPage_body, take_append_page]
  have hlength : ((registry.versions.drop (limit * k)).take
      (registry.size limit (limit * k))).length =
        min (registry.size limit (limit * k)) (registry.versions.length - limit * k) := by
    rw [List.length_take, List.length_drop]
  split_ifs with hstop hmore hmore
  · rw [← List.length_eq_zero_iff.trans List.isEmpty_iff.symm, hlength] at hstop
    omega
  · rfl
  · rw [hlength, hmore.1]
    congr 3
    omega
  · rw [← List.length_eq_zero_iff.trans List.isEmpty_iff.symm, hlength] at hstop
    omega

theorem take_eq_versions_iff (n : ℕ) :
    registry.versions.take n = registry.versions ↔ registry.versions.length ≤ n :=
  List.take_eq_self_iff _

/-- With a turn for each multiple of the limit below the count, the loop returns. -/
theorem pages_returns {turns k : ℕ} (hturns : 1 ≤ turns)
    (h : registry.versions.length ≤ limit * (k + turns)) :
    ∃ values, ((registry.client useId int).pages artifactId turns
      (registry.versions.take (limit * k)) (limit * k)).run = some (.ok values) := by
  induction turns generalizing k with
  | zero => exact absurd hturns (by decide)
  | succ turns ih =>
    rw [pages_step]
    split_ifs with hmore
    · have hnext : limit * (k + (turns + 1)) = limit * (k + 1 + turns) :=
        congrArg (limit * ·) (by omega)
      refine ih ?_ (hnext ▸ h)
      by_contra hzero
      obtain rfl : turns = 0 := by omega
      exact absurd hmore.2 (Nat.not_lt.mpr h)
    · exact ⟨_, rfl⟩

/-- What the loop returns is the whole list exactly when the pages from there on are filled. -/
theorem pages_result {turns k : ℕ} {values : List (Value F E)}
    (h : ((registry.client useId int).pages artifactId turns
      (registry.versions.take (limit * k)) (limit * k)).run = some (.ok values)) :
    values = registry.versions ↔
      ∀ j, k ≤ j → limit * j < registry.versions.length → registry.FillsPage (limit * j) := by
  have hlimit : 1 ≤ limit := by decide
  induction turns generalizing k with
  | zero => cases h
  | succ turns ih =>
    rw [pages_step] at h
    split_ifs at h with hmore
    · refine (ih h).trans ?_
      constructor
      · intro hlater j hj hbelow
        rcases Nat.eq_or_lt_of_le hj with rfl | hj
        · exact .inl hmore.1
        · exact hlater j hj hbelow
      · exact fun hall j hj => hall j (Nat.le_of_succ_le hj)
    · obtain rfl := Except.ok.inj (Option.some.inj h)
      rw [take_eq_versions_iff]
      have hsize := (registry.size_le limit (limit * k) hlimit).1
      have hsucc : limit * (k + 1) = limit * k + limit := Nat.mul_succ limit k
      constructor
      · intro hends j hj hbelow
        rcases Nat.eq_or_lt_of_le hj with rfl | hj
        · exact .inr hends
        · have hnext : limit * (k + 1) ≤ limit * j := Nat.mul_le_mul_left limit hj
          omega
      · intro hall
        rcases Nat.lt_or_ge (limit * k) registry.versions.length with hbelow | hpast
        · rcases hall k (Nat.le_refl k) hbelow with hfull | hends
          · have hlast : registry.versions.length ≤ limit * (k + 1) :=
              Nat.not_lt.mp fun hlt => hmore ⟨hfull, hlt⟩
            omega
          · exact hends
        · omega

theorem calls_run {client : MetadataClient F E} {turns : ℕ} {values : List (Value F E)}
    (h : (client.pages artifactId turns [] 0).run = some (.ok values)) (found : List Bool)
    {cache : Option (List (Value F E))} (hcache : cache = none ∨ cache = some values) :
    (client.calls artifactId turns cache found).run =
      some (.ok (List.replicate found.length values)) := by
  induction found generalizing cache with
  | nil => rfl
  | cons found later ih =>
    have hcall : (client.getMetadata artifactId turns (if found then cache else none)).run =
        some (.ok values) := by
      rcases hcache with rfl | rfl
      · rw [ite_self]
        exact h
      · cases found with
        | false => exact h
        | true => rfl
    rw [calls, Steps.run_bind, hcall]
    simp only [Steps.run_bind, ih (.inr rfl)]
    rfl

theorem pages_result_zero {turns : ℕ} {values : List (Value F E)}
    (h : ((registry.client useId int).pages artifactId turns [] 0).run = some (.ok values)) :
    values = registry.versions ↔ registry.FillsPages :=
  (pages_result (k := 0) h).trans ⟨fun hall k => hall k (Nat.zero_le k), fun hall k _ => hall k⟩

/-- The first call, which finds nothing in the cache, returns what the loop does. -/
theorem fillsPages_of_calls {turns : ℕ} {found : Bool} {later : List Bool}
    (h : ((registry.client useId int).calls artifactId turns none (found :: later)).run =
      some (.ok (List.replicate (later.length + 1) registry.versions))) : registry.FillsPages := by
  rw [calls, ite_self, Steps.run_bind_eq_ok] at h
  obtain ⟨values, hpages, hlater⟩ := h
  obtain ⟨results, -, heq⟩ := Steps.run_bind_eq_ok.mp hlater
  have hfirst := (List.cons.inj (Except.ok.inj (Option.some.inj heq))).1
  exact (pages_result_zero hpages).mp hfirst

/-- Every call returns, and returns all versions in their order, exactly when the registry's pages
at the multiples of the limit are as long as the limit or reach the end of the list. -/
theorem returnsAll_iff (registry : HonestRegistry F E) (useId : Text) (int : Value F E → Outcome ℤ)
    (artifactId : ℤ) (found : Bool) (later : List Bool) :
    (∃ turns, ((registry.client useId int).calls artifactId turns none (found :: later)).run =
      some (.ok (List.replicate (later.length + 1) registry.versions))) ↔ registry.FillsPages := by
  constructor
  · rintro ⟨turns, hcalls⟩
    exact fillsPages_of_calls hcalls
  · intro hfills
    have hturns : registry.versions.length ≤ limit * (0 + (registry.versions.length + 1)) := by
      simp only [limit]
      omega
    obtain ⟨values, hpages⟩ : ∃ values, ((registry.client useId int).pages artifactId
        (registry.versions.length + 1) [] 0).run = some (.ok values) :=
      pages_returns (k := 0) (Nat.le_add_left 1 _) hturns
    obtain rfl := (pages_result_zero hpages).mpr hfills
    exact ⟨_, calls_run hpages (found :: later) (.inl rfl)⟩

/-- A registry whose pages are as long as the limit and its maximum allow fills the pages exactly
when its maximum is at least the limit, or one page holds all versions. -/
theorem fillsPages_iff (h : ∀ offset, registry.size limit offset = min limit registry.maximum) :
    registry.FillsPages ↔
      limit ≤ registry.maximum ∨ registry.versions.length ≤ registry.maximum := by
  simp only [FillsPages, FillsPage, h]
  constructor
  · intro hfills
    rcases Nat.eq_zero_or_pos registry.versions.length with hzero | hpos
    · omega
    · have hfirst := hfills 0 hpos
      omega
  · intro hmaximum k hbelow
    omega

def oneByOne : HonestRegistry FloatRepr Empty where
  versions := [.str (text "1"), .str (text "2")]
  maximum := 1
  size _ _ := 1
  size_pos _ _ _ := Nat.le_refl 1
  size_le _ _ h := ⟨h, Nat.le_refl 1⟩
  body _ offset := [
    (text "versions", .list (([.str (text "1"), .str (text "2")].drop offset).take 1)),
    (text "count", .int 2)]
  body_page _ _ := rfl
  body_count _ _ := rfl

/-- The client stops after the first of the two versions. -/
theorem not_returnsAll_oneByOne :
    ¬ ∃ turns, ((oneByOne.client (text "contentId") (fun _ => .ok 0)).calls 7 turns none
      [false]).run = some (.ok (List.replicate 1 oneByOne.versions)) := by
  rintro ⟨turns, hcalls⟩
  rcases fillsPages_of_calls hcalls 0 (by decide) with hfull | hends
  · exact absurd hfull (by decide)
  · exact absurd hends (by decide)

end HonestRegistry

end Kaskade
