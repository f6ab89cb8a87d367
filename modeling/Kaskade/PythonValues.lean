import Kaskade.PythonText
import Mathlib.Data.List.Nodup

/-!
# Python values

The values the program passes around as `Any`: JSON-like data, octets, and other objects
that it only ever shows through `str`. Floating-point numbers are known through their
text alone, which `float` reads back exactly.
-/

namespace Kaskade.Python

instance decimalDigit_neZero : NeZero 10 := ⟨by decide⟩

/-- A number literal that has a fraction, an exponent or both. -/
structure FloatLiteral where
  negative : Bool
  whole : ℕ
  fraction : List (Fin 10)
  exponent : Option ℤ
  proper : fraction ≠ [] ∨ exponent.isSome
  deriving DecidableEq

theorem FloatLiteral.whole_proper : ([0] : List (Fin 10)) ≠ [] ∨ (none : Option ℤ).isSome := by
  decide

/-- What `repr` of a float says. -/
inductive FloatRepr where
  | nan
  | infinity (negative : Bool)
  | literal (l : FloatLiteral)
  deriving DecidableEq

/-- Floating-point numbers, with NaN payloads identified. -/
class PyFloat (F : Type) where
  repr : F → FloatRepr
  ofRepr : FloatRepr → F
  /-- The value of a `struct` float of four or eight octets, most significant first. -/
  unpack : Bytes → F
  /-- `float.is_integer`. -/
  isInteger : F → Bool
  /-- How the float compares with an integer, unless it is NaN. -/
  compareInt : F → ℤ → Option Ordering
  ofRepr_repr : ∀ f, ofRepr (repr f) = f

/-- Python values: `F` are the floats and `E` the objects outside JSON and `bytes`. -/
inductive Value (F E : Type) where
  | null
  | bool (b : Bool)
  | int (i : ℤ)
  | float (f : F)
  | str (s : Text)
  | bytes (data : Bytes)
  | list (items : List (Value F E))
  | dict (items : List (Text × Value F E))
  | other (e : E)

namespace Value

variable {F E : Type}

/-- Structural induction: a list by its items, a dictionary by its values. -/
@[elab_as_elim, induction_eliminator]
theorem induct {motive : Value F E → Prop} (null : motive .null) (bool : ∀ b, motive (.bool b))
    (int : ∀ i, motive (.int i)) (float : ∀ f, motive (.float f)) (str : ∀ s, motive (.str s))
    (bytes : ∀ data, motive (.bytes data))
    (list : ∀ items, (∀ v ∈ items, motive v) → motive (.list items))
    (dict : ∀ items, (∀ kv ∈ items, motive kv.2) → motive (.dict items))
    (other : ∀ e, motive (.other e)) (v : Value F E) : motive v := by
  refine Value.rec (motive_1 := motive) (motive_2 := fun items => ∀ v ∈ items, motive v)
    (motive_3 := fun items => ∀ kv ∈ items, motive kv.2) (motive_4 := fun kv => motive kv.2)
    null bool int float str bytes list dict other ?_ ?_ ?_ ?_ ?_ v
  · intro v hv
    cases hv
  · intro v vs hv hvs
    exact List.forall_mem_cons.mpr ⟨hv, hvs⟩
  · intro kv hkv
    cases hkv
  · intro kv kvs hkv hkvs
    exact List.forall_mem_cons.mpr ⟨hkv, hkvs⟩
  · intro k v hv
    exact hv

mutual

/-- `p` holds of the value and of everything nested in it. -/
def all (p : Value F E → Bool) : Value F E → Bool
  | .null => p .null
  | .bool b => p (.bool b)
  | .int i => p (.int i)
  | .float f => p (.float f)
  | .str s => p (.str s)
  | .bytes data => p (.bytes data)
  | .list items => p (.list items) && allList p items
  | .dict items => p (.dict items) && allItems p items
  | .other e => p (.other e)

def allList (p : Value F E → Bool) : List (Value F E) → Bool
  | [] => true
  | v :: vs => all p v && allList p vs

def allItems (p : Value F E → Bool) : List (Text × Value F E) → Bool
  | [] => true
  | (_, v) :: kvs => all p v && allItems p kvs

end

@[simp] theorem allList_eq (p : Value F E → Bool) (items : List (Value F E)) :
    allList p items = items.all (all p) := by
  induction items with
  | nil => rfl
  | cons v vs ih => rw [allList, ih, List.all_cons]

@[simp] theorem allItems_eq (p : Value F E → Bool) (items : List (Text × Value F E)) :
    allItems p items = items.all (fun kv => all p kv.2) := by
  induction items with
  | nil => rfl
  | cons kv kvs ih => rw [allItems, ih, List.all_cons]

theorem all_list {p : Value F E → Bool} {items : List (Value F E)} :
    all p (.list items) ↔ p (.list items) ∧ ∀ v ∈ items, all p v := by
  simp [all]

theorem all_dict {p : Value F E → Bool} {items : List (Text × Value F E)} :
    all p (.dict items) ↔ p (.dict items) ∧ ∀ kv ∈ items, all p kv.2 := by
  simp [all]

/-- No octets and no other objects: what a JSON document can hold. -/
def isJson (v : Value F E) : Bool :=
  all (fun | .bytes _ => false | .other _ => false | _ => true) v

/-- Every dictionary lists each of its keys once, as a Python dictionary does. -/
def distinctKeys (v : Value F E) : Bool :=
  all (fun | .dict items => decide (items.map Prod.fst).Nodup | _ => true) v

/-- `q` holds of every code point of every string and key. -/
def stringsAll (q : CodePoint → Bool) (v : Value F E) : Bool :=
  all (fun
    | .str s => s.all q
    | .dict items => items.all (fun kv => kv.1.all q)
    | _ => true) v

theorem stringsAll_list (q : CodePoint → Bool) (items : List (Value F E)) :
    stringsAll q (.list items) = items.all (stringsAll q) := by
  rw [stringsAll, all, allList_eq, Bool.true_and]
  rfl

theorem stringsAll_dict (q : CodePoint → Bool) (items : List (Text × Value F E)) :
    stringsAll q (.dict items) =
      (items.all (fun kv => kv.1.all q) && items.all (fun kv => stringsAll q kv.2)) := by
  rw [stringsAll, all, allItems_eq]
  rfl

theorem stringsAll_of_forall {q : CodePoint → Bool} (h : ∀ c, q c = true) (v : Value F E) :
    stringsAll q v = true := by
  induction v with
  | list items ih =>
    rw [stringsAll_list, List.all_eq_true]
    exact ih
  | dict items ih =>
    rw [stringsAll_dict, Bool.and_eq_true, List.all_eq_true, List.all_eq_true]
    exact ⟨fun kv _ => by simp [h], ih⟩
  | _ => simp [stringsAll, all, h]

/-- No string or key holds a lone surrogate. -/
def encodable (v : Value F E) : Bool := stringsAll (fun c => !isSurrogate c) v

mutual

def depth : Value F E → ℕ
  | .list items => depthList items + 1
  | .dict items => depthItems items + 1
  | _ => 0

def depthList : List (Value F E) → ℕ
  | [] => 0
  | v :: vs => max (depth v) (depthList vs)

def depthItems : List (Text × Value F E) → ℕ
  | [] => 0
  | (_, v) :: kvs => max (depth v) (depthItems kvs)

end

theorem depthList_le {items : List (Value F E)} {n : ℕ} :
    depthList items ≤ n ↔ ∀ v ∈ items, depth v ≤ n := by
  induction items with
  | nil => simp [depthList]
  | cons v vs ih => rw [depthList, Nat.max_le, ih, List.forall_mem_cons]

theorem depthItems_le {items : List (Text × Value F E)} {n : ℕ} :
    depthItems items ≤ n ↔ ∀ kv ∈ items, depth kv.2 ≤ n := by
  induction items with
  | nil => simp [depthItems]
  | cons kv kvs ih => rw [depthItems, Nat.max_le, ih, List.forall_mem_cons]

/-- `items[key] = value`: a new key goes last, an old one keeps its place. -/
def insertItem (items : List (Text × Value F E)) (key : Text) (value : Value F E) :
    List (Text × Value F E) :=
  match items with
  | [] => [(key, value)]
  | (k, v) :: rest => if k = key then (k, value) :: rest else (k, v) :: insertItem rest key value

def ofPairs (pairs : List (Text × Value F E)) : List (Text × Value F E) :=
  pairs.foldl (fun items kv => insertItem items kv.1 kv.2) []

/-- `items.get(key)`. -/
def getItem? (items : List (Text × Value F E)) (key : Text) : Option (Value F E) :=
  (items.find? (fun kv => kv.1 = key)).map Prod.snd

theorem insertItem_of_notMem {items : List (Text × Value F E)} {key : Text} {value : Value F E}
    (h : key ∉ items.map Prod.fst) : insertItem items key value = items ++ [(key, value)] := by
  induction items with
  | nil => rfl
  | cons kv rest ih =>
    simp only [List.map_cons, List.mem_cons, not_or] at h
    rw [insertItem, if_neg (Ne.symm h.1), ih h.2, List.cons_append]

private theorem foldl_insertItem (items : List (Text × Value F E))
    {pairs : List (Text × Value F E)} (h : ((items ++ pairs).map Prod.fst).Nodup) :
    pairs.foldl (fun items kv => insertItem items kv.1 kv.2) items = items ++ pairs := by
  induction pairs generalizing items with
  | nil => simp
  | cons kv pairs ih =>
    have hn : kv.1 ∉ items.map Prod.fst := by
      rw [List.map_append, List.map_cons] at h
      exact fun hm => (List.disjoint_of_nodup_append h) hm List.mem_cons_self
    rw [List.foldl_cons, insertItem_of_notMem hn, ih _ (by simpa using h)]
    simp

/-- Assigning distinct keys keeps the sequence. -/
theorem ofPairs_of_nodup {pairs : List (Text × Value F E)} (h : (pairs.map Prod.fst).Nodup) :
    ofPairs pairs = pairs := by
  simpa [ofPairs] using foldl_insertItem [] (by simpa using h)

theorem map_fst_insertItem (items : List (Text × Value F E)) (key : Text) (value : Value F E) :
    (insertItem items key value).map Prod.fst =
      if key ∈ items.map Prod.fst then items.map Prod.fst else items.map Prod.fst ++ [key] := by
  induction items with
  | nil => simp [insertItem]
  | cons kv rest ih =>
    rw [insertItem]
    by_cases hk : kv.1 = key
    · simp [hk]
    · have hk' : key ≠ kv.1 := Ne.symm hk
      rw [if_neg hk, List.map_cons, ih]
      by_cases hm : key ∈ rest.map Prod.fst <;> simp [hm, hk']

theorem nodup_insertItem {items : List (Text × Value F E)} (h : (items.map Prod.fst).Nodup)
    (key : Text) (value : Value F E) : ((insertItem items key value).map Prod.fst).Nodup := by
  rw [map_fst_insertItem]
  split_ifs with hm
  · exact h
  · rw [List.nodup_append]
    exact ⟨h, List.nodup_singleton key, fun a ha b hb => by
      rw [List.mem_singleton.mp hb]; exact fun he => hm (he ▸ ha)⟩

theorem nodup_ofPairs (pairs : List (Text × Value F E)) :
    ((ofPairs pairs).map Prod.fst).Nodup := by
  suffices ∀ items : List (Text × Value F E), (items.map Prod.fst).Nodup →
      ((pairs.foldl (fun items kv => insertItem items kv.1 kv.2) items).map Prod.fst).Nodup from
    this [] List.nodup_nil
  induction pairs with
  | nil => exact fun items h => h
  | cons kv pairs ih => exact fun items h => ih _ (nodup_insertItem h kv.1 kv.2)

theorem mem_insertItem {items : List (Text × Value F E)} {key : Text} {value : Value F E}
    {kv : Text × Value F E} (h : kv ∈ insertItem items key value) :
    kv ∈ items ∨ kv = (key, value) := by
  induction items with
  | nil => exact .inr (List.mem_singleton.mp h)
  | cons head rest ih =>
    rw [insertItem] at h
    split_ifs at h with hk
    · rcases List.mem_cons.mp h with rfl | h
      · exact .inr (by rw [hk])
      · exact .inl (List.mem_cons_of_mem _ h)
    · rcases List.mem_cons.mp h with rfl | h
      · exact .inl List.mem_cons_self
      · exact (ih h).imp (List.mem_cons_of_mem _) id

/-- The items of the built dictionary are among the assignments. -/
theorem mem_of_mem_ofPairs {pairs : List (Text × Value F E)} {kv : Text × Value F E}
    (h : kv ∈ ofPairs pairs) : kv ∈ pairs := by
  suffices ∀ items : List (Text × Value F E),
      kv ∈ pairs.foldl (fun items kv => insertItem items kv.1 kv.2) items → kv ∈ items ∨ kv ∈ pairs by
    simpa using this [] h
  clear h
  induction pairs with
  | nil => exact fun items h => .inl h
  | cons p pairs ih =>
    intro items h
    rcases ih _ h with h | h
    · rcases mem_insertItem h with h | rfl
      · exact .inl h
      · exact .inr List.mem_cons_self
    · exact .inr (List.mem_cons_of_mem _ h)

end Value

end Kaskade.Python
