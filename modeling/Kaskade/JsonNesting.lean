import Kaskade.JsonRoundTrip
import Kaskade.JsonReading

/-!
# JSON nesting

A higher nesting limit reads whatever a lower one reads, so `json.loads` reads printed JSON
exactly when it nests within the limit.
-/

namespace Kaskade.Python

variable {F E : Type}

theorem Value.depth_shown (default : Value F E → Text) (v : Value F E) :
    (v.shown default).depth = v.depth := by
  induction v with
  | list items ih =>
    have hitems : depthList (items.map (shown default)) = depthList items := by
      induction items with
      | nil => rfl
      | cons w ws ihws =>
        rw [List.map_cons, depthList, depthList, ih w List.mem_cons_self,
          ihws fun x hx => ih x (List.mem_cons_of_mem w hx)]
    rw [shown, shownList_eq, depth, depth, hitems]
  | dict items ih =>
    have hitems : depthItems (items.map fun kv => (kv.1, shown default kv.2)) =
        depthItems items := by
      induction items with
      | nil => rfl
      | cons kv kvs ihkvs =>
        rw [List.map_cons, depthItems, depthItems, ih kv List.mem_cons_self,
          ihkvs fun x hx => ih x (List.mem_cons_of_mem kv hx)]
    rw [shown, shownItems_eq, depth, depth, hitems]
  | _ => rfl

/-- The second reader returns whatever the first one returns. -/
def Extends (term term' : Text → Scan (Value F E)) : Prop :=
  ∀ t r, term t = .ok r → term' t = .ok r

section Containers

variable {term term' : Text → Scan (Value F E)}

theorem scanItems_extends (h : Extends term term') {turns : ℕ} {t : Text}
    {r : List (Value F E) × Text} (hscan : scanItems term turns t = .ok r) :
    scanItems term' turns t = .ok r := by
  induction turns generalizing t r with
  | zero => cases hscan
  | succ turns ih =>
    rw [scanItems] at hscan ⊢
    obtain ⟨v, t₁, hterm, hrest⟩ := Scan.andThen_eq_ok.mp hscan
    refine Scan.andThen_eq_ok.mpr ⟨v, t₁, h t _ hterm, ?_⟩
    cases hnext : skipSpace t₁ with
    | nil => simp [hnext] at hrest
    | cons c rest =>
      simp only [hnext] at hrest ⊢
      split_ifs at hrest ⊢ with hclose hcomma
      · exact hrest
      · obtain ⟨vs, hvs, hr⟩ := Scan.as_eq_ok.mp hrest
        exact Scan.as_eq_ok.mpr ⟨vs, ih hvs, hr⟩

theorem scanPair_extends (h : Extends term term') {t : Text} {r : (Text × Value F E) × Text}
    (hscan : scanPair term t = .ok r) : scanPair term' t = .ok r := by
  rw [scanPair] at hscan ⊢
  split_ifs at hscan ⊢ with hquote
  obtain ⟨k, t₁, hkey, hrest⟩ := Scan.andThen_eq_ok.mp hscan
  refine Scan.andThen_eq_ok.mpr ⟨k, t₁, hkey, ?_⟩
  simp only at hrest ⊢
  split_ifs at hrest ⊢ with hcolon
  obtain ⟨v, hv, hr⟩ := Scan.as_eq_ok.mp hrest
  exact Scan.as_eq_ok.mpr ⟨v, h _ _ hv, hr⟩

theorem scanPairs_extends (h : Extends term term') {turns : ℕ} {t : Text}
    {r : List (Text × Value F E) × Text} (hscan : scanPairs term turns t = .ok r) :
    scanPairs term' turns t = .ok r := by
  induction turns generalizing t r with
  | zero => cases hscan
  | succ turns ih =>
    rw [scanPairs] at hscan ⊢
    obtain ⟨kv, t₁, hpair, hrest⟩ := Scan.andThen_eq_ok.mp hscan
    refine Scan.andThen_eq_ok.mpr ⟨kv, t₁, scanPair_extends h hpair, ?_⟩
    cases hnext : skipSpace t₁ with
    | nil => simp [hnext] at hrest
    | cons c rest =>
      simp only [hnext] at hrest ⊢
      split_ifs at hrest ⊢ with hclose hcomma
      · exact hrest
      · obtain ⟨kvs, hkvs, hr⟩ := Scan.as_eq_ok.mp hrest
        exact Scan.as_eq_ok.mpr ⟨kvs, ih hkvs, hr⟩

theorem scanArray_extends (h : Extends term term') : Extends (scanArray term) (scanArray term') := by
  intro t r hscan
  rw [scanArray] at hscan ⊢
  split_ifs at hscan ⊢ with hempty
  · exact hscan
  · obtain ⟨vs, hvs, hr⟩ := Scan.as_eq_ok.mp hscan
    exact Scan.as_eq_ok.mpr ⟨vs, scanItems_extends h hvs, hr⟩

theorem scanObject_extends (h : Extends term term') :
    Extends (scanObject term) (scanObject term') := by
  intro t r hscan
  rw [scanObject] at hscan ⊢
  split_ifs at hscan ⊢ with hempty
  · exact hscan
  · obtain ⟨kvs, hkvs, hr⟩ := Scan.as_eq_ok.mp hscan
    exact Scan.as_eq_ok.mpr ⟨kvs, scanPairs_extends h hkvs, hr⟩

end Containers

variable [PyFloat F]

theorem scanValue_extends (lim : JsonLimits) {deeper : Option (Text → Scan (Value F E))}
    {term' : Text → Scan (Value F E)} (h : ∀ term ∈ deeper, Extends term term') :
    Extends (scanValue lim deeper) (scanValue lim (some term')) := by
  intro t r hscan
  cases t with
  | nil => cases hscan
  | cons c rest =>
    rw [scanValue] at hscan ⊢
    split_ifs at hscan ⊢ with hstring hobject harray
    · exact hscan
    · cases deeper with
      | none => cases hscan
      | some term => exact scanObject_extends (h term rfl) _ _ hscan
    · cases deeper with
      | none => cases hscan
      | some term => exact scanArray_extends (h term rfl) _ _ hscan
    · exact hscan

theorem scanOnce_extends (lim : JsonLimits) {m n : ℕ} (hmn : m ≤ n) :
    Extends (scanOnce (F := F) (E := E) lim m) (scanOnce lim n) := by
  induction m generalizing n with
  | zero =>
    cases n with
    | zero => exact fun _ _ h => h
    | succ n => exact scanValue_extends lim (by simp)
  | succ m ih =>
    obtain ⟨n, rfl⟩ : ∃ k, n = k + 1 := ⟨n - 1, by omega⟩
    refine scanValue_extends lim fun term hterm => ?_
    obtain rfl := Option.some.inj hterm
    exact ih (by omega)

theorem scanOnce_digits {lim lim' : JsonLimits} (h : lim.digits = lim'.digits) (d : ℕ) :
    scanOnce (F := F) (E := E) lim d = scanOnce lim' d := by
  have hnumber : ∀ t, scanNumber (F := F) (E := E) lim t = scanNumber lim' t := fun t => by
    rw [scanNumber, scanNumber, h]
  have hvalue : ∀ deeper, scanValue (F := F) (E := E) lim deeper = scanValue lim' deeper := by
    intro deeper
    funext t
    cases t with
    | nil => rfl
    | cons c rest => rw [scanValue, scanValue, hnumber]
  induction d with
  | zero => exact hvalue none
  | succ d ih => rw [scanOnce, scanOnce, ih, hvalue]

/-- A higher nesting limit reads the same. -/
theorem loads_extends {lim lim' : JsonLimits} (hdigits : lim.digits = lim'.digits)
    (hnesting : lim.nesting ≤ lim'.nesting) {t : Text} {v : Value F E}
    (h : loads lim t = .ok v) : loads lim' t = .ok v := by
  rw [loads] at h ⊢
  split_ifs at h ⊢ with hbom
  obtain ⟨rest, hscan, hrest⟩ := decodeDocument_eq_ok.mp h
  refine decodeDocument_eq_ok.mpr ⟨rest, ?_, hrest⟩
  rw [← scanOnce_digits hdigits]
  exact scanOnce_extends lim hnesting _ _ hscan

/-- `json.loads` of printed JSON succeeds exactly within the nesting limit. -/
theorem loads_dumps_eq_ok (lim : JsonLimits) (L : Layout) (default : Value F E → Text)
    {v w : Value F E} (hkeys : v.distinctKeys) (hdigits : v.withinDigits lim.digits) :
    loads lim (dumps L default v) = .ok w ↔ v.depth ≤ lim.nesting ∧ w = v.shown default := by
  constructor
  · intro h
    let lim' : JsonLimits := { lim with nesting := max lim.nesting v.depth }
    have hsame : lim.digits = lim'.digits := rfl
    have hhigher : lim.nesting ≤ lim'.nesting := Nat.le_max_left _ _
    have hwide : loads lim' (dumps L default v) = .ok w := loads_extends hsame hhigher h
    have hshown : loads lim' (dumps L default v) = .ok (v.shown default) :=
      loads_dumps lim' L default hkeys hdigits (Nat.le_max_right _ _)
    obtain rfl : w = v.shown default := Except.ok.inj (hwide.symm.trans hshown)
    exact ⟨Value.depth_shown default v ▸ (loads_read h).depth_le, rfl⟩
  · rintro ⟨hdepth, rfl⟩
    exact loads_dumps lim L default hkeys hdigits hdepth

end Kaskade.Python
