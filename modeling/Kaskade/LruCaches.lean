import Kaskade.Dictionaries
import Mathlib.Data.Finset.Card
import Mathlib.Data.List.Pairwise

/-!
# The cache of the least recently used entries

`kaskade.cache`: what an `LruCache` keeps, related to the whole history of its uses. The entries
stand in the order of their last uses, and what is evicted was used less recently than all that stay.
-/

namespace Kaskade

section Uses

variable {κ : Type} [DecidableEq κ] {uses : List κ} {key other : κ}

def usedSince (uses : List κ) (key : κ) : Finset κ :=
  (uses.reverse.takeWhile (fun used => used ≠ key)).toFinset

@[simp] theorem usedSince_self (uses : List κ) (key : κ) : usedSince (uses ++ [key]) key = ∅ := by
  simp [usedSince]

theorem usedSince_of_ne (h : other ≠ key) (uses : List κ) :
    usedSince (uses ++ [other]) key = insert other (usedSince uses key) := by
  simp [usedSince, h]

theorem usedSince_subset (h : other ≠ key) (uses : List κ) :
    usedSince uses key ⊆ usedSince (uses ++ [other]) key := by
  rw [usedSince_of_ne h]
  exact Finset.subset_insert _ _

end Uses

/-- An `OrderedDict` of at most so many entries, the least recently used one first. -/
structure LruCache (κ β : Type) where
  capacity : ℕ
  items : List (κ × β)
  distinct : (items.map Prod.fst).Nodup

namespace LruCache

variable {κ β : Type}

/-- `while len(items) > capacity: items.popitem(last=False)`. -/
def evict (capacity : ℕ) : List (κ × β) → List (κ × β)
  | [] => []
  | entry :: items =>
    if capacity < (entry :: items).length then evict capacity items else entry :: items

theorem evict_eq_drop (capacity : ℕ) (items : List (κ × β)) :
    evict capacity items = items.drop (items.length - capacity) := by
  induction items with
  | nil => rw [evict, List.drop_nil]
  | cons entry items ih =>
    rw [evict]
    split_ifs with h
    · have hlength : (entry :: items).length - capacity = items.length - capacity + 1 := by
        rw [List.length_cons] at h ⊢
        omega
      rw [ih, hlength, List.drop_succ_cons]
    · rw [Nat.sub_eq_zero_of_le (Nat.not_lt.mp h), List.drop_zero]

variable [DecidableEq κ]

def moveToEnd (items : List (κ × β)) (key : κ) : List (κ × β) :=
  match items.find? (·.1 = key) with
  | some entry => items.filter (·.1 ≠ key) ++ [entry]
  | none => items

theorem nodup_filter_append {items : List (κ × β)} (h : (items.map Prod.fst).Nodup) {key : κ}
    {entry : κ × β} (hentry : entry.1 = key) :
    ((items.filter (·.1 ≠ key) ++ [entry]).map Prod.fst).Nodup := by
  rw [List.map_append, List.map_singleton, ← List.concat_eq_append, List.nodup_concat]
  refine ⟨?_, h.sublist (List.filter_sublist.map _)⟩
  rintro hmem
  obtain ⟨other, hother, heq⟩ := List.mem_map.mp hmem
  exact of_decide_eq_true (List.mem_filter.mp hother).2 (heq.trans hentry)

theorem moveToEnd_eq {items : List (κ × β)} {key : κ} {value : β} (hmem : (key, value) ∈ items)
    (hunique : ∀ entry ∈ items, entry.1 = key → entry = (key, value)) :
    moveToEnd items key = items.filter (·.1 ≠ key) ++ [(key, value)] := by
  rw [moveToEnd]
  cases hfind : items.find? (·.1 = key) with
  | none => exact absurd (decide_eq_true rfl) (List.find?_eq_none.mp hfind _ hmem)
  | some entry =>
    have hkey : entry.1 = key := by simpa using List.find?_some hfind
    rw [hunique entry (List.mem_of_find?_eq_some hfind) hkey]

theorem moveToEnd_setItem (items : List (κ × β)) (key : κ) (value : β) :
    moveToEnd (Dictionary.setItem items key value) key =
      items.filter (·.1 ≠ key) ++ [(key, value)] := by
  rw [moveToEnd_eq (Dictionary.mem_setItem_self items key value), Dictionary.filter_setItem]
  intro entry hentry hkey
  rw [Dictionary.setItem] at hentry
  split_ifs at hentry with hany
  · obtain ⟨other, -, rfl⟩ := List.mem_map.mp hentry
    split_ifs at hkey ⊢ with hother
    · rfl
    · exact absurd hkey hother
  · rcases List.mem_append.mp hentry with hentry | hentry
    · exact absurd (List.any_eq_true.mpr ⟨entry, hentry, decide_eq_true hkey⟩) hany
    · exact List.mem_singleton.mp hentry

theorem nodup_moveToEnd {items : List (κ × β)} (h : (items.map Prod.fst).Nodup) (key : κ) :
    ((moveToEnd items key).map Prod.fst).Nodup := by
  rw [moveToEnd]
  cases hfind : items.find? (·.1 = key) with
  | none => exact h
  | some entry => exact nodup_filter_append h (by simpa using List.find?_some hfind)

def new (capacity : ℕ) : LruCache κ β := ⟨capacity, [], List.nodup_nil⟩

/-- `len(cache)`. -/
def len (c : LruCache κ β) : ℕ := c.items.length

/-- `key in cache`. -/
def contains (c : LruCache κ β) (key : κ) : Bool := c.items.any (·.1 = key)

def get (c : LruCache κ β) (key : κ) : Option β × LruCache κ β :=
  if c.contains key then
    let items := moveToEnd c.items key
    (items.lookup key, ⟨c.capacity, items, nodup_moveToEnd c.distinct key⟩)
  else (none, c)

theorem nodup_put {items : List (κ × β)} (h : (items.map Prod.fst).Nodup) (capacity : ℕ) (key : κ)
    (value : β) :
    ((evict capacity (moveToEnd (Dictionary.setItem items key value) key)).map Prod.fst).Nodup := by
  rw [evict_eq_drop, moveToEnd_setItem]
  exact (nodup_filter_append h (show (key, value).1 = key from rfl)).sublist ((List.drop_sublist _ _).map _)

def put (c : LruCache κ β) (key : κ) (value : β) : LruCache κ β where
  capacity := c.capacity
  items := evict c.capacity (moveToEnd (Dictionary.setItem c.items key value) key)
  distinct := nodup_put c.distinct c.capacity key value

def remove (c : LruCache κ β) (key : κ) : LruCache κ β where
  capacity := c.capacity
  items := c.items.filter (·.1 ≠ key)
  distinct := c.distinct.sublist (List.filter_sublist.map _)

end LruCache

inductive CacheOperation (κ β : Type) where
  | get (key : κ)
  | put (key : κ) (value : β)
  | remove (key : κ)

namespace LruCache

variable {κ β : Type} [DecidableEq κ]

def perform (c : LruCache κ β) : CacheOperation κ β → LruCache κ β
  | .get key => (c.get key).2
  | .put key value => c.put key value
  | .remove key => c.remove key

/-- The key that an operation uses: one that is put, or is hit by `get`. -/
def used (c : LruCache κ β) : CacheOperation κ β → List κ
  | .get key => if c.contains key then [key] else []
  | .put key _ => [key]
  | .remove _ => []

/-- The cache after some operations, and the keys they have used. -/
def run (capacity : ℕ) (operations : List (CacheOperation κ β)) : LruCache κ β × List κ :=
  operations.foldl (fun s operation => (s.1.perform operation, s.2 ++ s.1.used operation))
    (new capacity, [])

theorem run_concat (capacity : ℕ) (operations : List (CacheOperation κ β))
    (last : CacheOperation κ β) :
    run capacity (operations ++ [last]) =
      ((run capacity operations).1.perform last,
        (run capacity operations).2 ++ (run capacity operations).1.used last) :=
  List.foldl_concat _ _ _ _

def LastPut (operations : List (CacheOperation κ β)) (key : κ) (value : β) : Prop :=
  ∃ before after, operations = before ++ .put key value :: after ∧ ∀ v, .put key v ∉ after

/-- The key was put and not removed since. -/
def Kept (operations : List (CacheOperation κ β)) (key : κ) : Prop :=
  ∃ before value after, operations = before ++ .put key value :: after ∧ .remove key ∉ after

variable {operations : List (CacheOperation κ β)} {last : CacheOperation κ β} {key : κ} {value : β}

omit [DecidableEq κ] in
theorem LastPut.concat (h : LastPut operations key value) (hlast : ∀ v, last ≠ .put key v) :
    LastPut (operations ++ [last]) key value := by
  obtain ⟨before, after, rfl, hafter⟩ := h
  refine ⟨before, after ++ [last], List.append_assoc _ _ _, fun v hmem => ?_⟩
  rcases List.mem_append.mp hmem with hmem | hmem
  · exact hafter v hmem
  · exact hlast v (List.mem_singleton.mp hmem).symm

omit [DecidableEq κ] in
theorem lastPut_put (operations : List (CacheOperation κ β)) (key : κ) (value : β) :
    LastPut (operations ++ [.put key value]) key value :=
  ⟨operations, [], rfl, fun _ => List.not_mem_nil⟩

omit [DecidableEq κ] in
theorem Kept.of_concat (h : Kept (operations ++ [last]) key) :
    (∃ value, last = .put key value) ∨ Kept operations key ∧ last ≠ .remove key := by
  obtain ⟨before, value, after, heq, hafter⟩ := h
  rcases List.eq_nil_or_concat after with rfl | ⟨after, final, rfl⟩
  · exact .inl ⟨value, (List.append_inj' heq rfl).2 |> List.singleton_inj.mp⟩
  · rw [List.concat_eq_append, ← List.cons_append, ← List.append_assoc] at heq
    obtain ⟨rfl, hfinal⟩ := List.append_inj' heq rfl
    obtain rfl := List.singleton_inj.mp hfinal
    rw [List.concat_eq_append, List.mem_append, not_or, List.mem_singleton] at hafter
    exact .inr ⟨⟨before, value, after, rfl, hafter.1⟩, Ne.symm hafter.2⟩

/-- How the entries relate to the history: they stand in the order of their last uses, with the
values last put, and a key that was put and is missing was followed by as many others as there is
room for. -/
structure Follows (capacity : ℕ) (operations : List (CacheOperation κ β)) (uses : List κ)
    (items : List (κ × β)) : Prop where
  length_le : items.length ≤ capacity
  ordered : items.Pairwise fun entry later => later.1 ∈ usedSince uses entry.1
  lastPut : ∀ entry ∈ items, LastPut operations entry.1 entry.2
  evicted : ∀ key, Kept operations key → key ∉ items.map Prod.fst →
    capacity ≤ (usedSince uses key).card

variable {capacity : ℕ} {uses : List κ} {items : List (κ × β)}

/-- A key that is used now comes after all others. -/
theorem ordered_touch (h : items.Pairwise fun entry later => later.1 ∈ usedSince uses entry.1)
    (key : κ) (value : β) :
    (items.filter (·.1 ≠ key) ++ [(key, value)]).Pairwise
      fun entry later => later.1 ∈ usedSince (uses ++ [key]) entry.1 := by
  have hne : ∀ entry ∈ items.filter (·.1 ≠ key), key ≠ entry.1 := fun entry hentry =>
    Ne.symm (of_decide_eq_true (List.mem_filter.mp hentry).2)
  rw [List.pairwise_append]
  refine ⟨?_, List.pairwise_singleton _ _, fun entry hentry later hlater => ?_⟩
  · refine (h.sublist List.filter_sublist).imp_of_mem fun hentry _ hused => ?_
    exact usedSince_subset (hne _ hentry) uses hused
  · rw [List.mem_singleton.mp hlater, usedSince_of_ne (hne entry hentry)]
    exact Finset.mem_insert_self _ _

theorem card_usedSince_le {other : κ} (h : other ≠ key) (uses : List κ) :
    (usedSince uses key).card ≤ (usedSince (uses ++ [other]) key).card :=
  Finset.card_le_card (usedSince_subset h uses)

theorem Follows.miss (h : Follows capacity operations uses items) (key : κ) :
    Follows capacity (operations ++ [.get key]) uses items where
  length_le := h.length_le
  ordered := h.ordered
  lastPut entry hentry := (h.lastPut entry hentry).concat fun _ => nofun
  evicted other hkept hmissing := by
    rcases hkept.of_concat with ⟨value, heq⟩ | ⟨hkept, -⟩
    · cases heq
    · exact h.evicted other hkept hmissing

theorem Follows.hit (h : Follows capacity operations uses items) (hmem : (key, value) ∈ items) :
    Follows capacity (operations ++ [.get key]) (uses ++ [key])
      (items.filter (·.1 ≠ key) ++ [(key, value)]) where
  length_le := by
    have hshorter : (items.filter (·.1 ≠ key)).length < items.length :=
      List.length_filter_lt_length_iff_exists.mpr ⟨_, hmem, by simp⟩
    rw [List.length_append, List.length_singleton]
    exact hshorter.trans_le h.length_le
  ordered := ordered_touch h.ordered key value
  lastPut entry hentry := by
    have hentry : entry ∈ items := by
      rcases List.mem_append.mp hentry with hentry | hentry
      · exact (List.mem_filter.mp hentry).1
      · rwa [List.mem_singleton.mp hentry]
    exact (h.lastPut entry hentry).concat fun _ => nofun
  evicted other hkept hmissing := by
    rw [List.map_append, List.mem_append, not_or, List.map_singleton, List.mem_singleton] at hmissing
    have hmissed : other ∉ items.map Prod.fst := by
      intro hother
      obtain ⟨entry, hentry, rfl⟩ := List.mem_map.mp hother
      exact hmissing.1 (List.mem_map_of_mem (List.mem_filter.mpr ⟨hentry, by simpa using hmissing.2⟩))
    rcases hkept.of_concat with ⟨value, heq⟩ | ⟨hkept, -⟩
    · cases heq
    · exact (h.evicted other hkept hmissed).trans (card_usedSince_le (Ne.symm hmissing.2) uses)

theorem Follows.remove (h : Follows capacity operations uses items) (key : κ) :
    Follows capacity (operations ++ [.remove key]) uses (items.filter (·.1 ≠ key)) where
  length_le := (List.length_filter_le _ _).trans h.length_le
  ordered := h.ordered.sublist List.filter_sublist
  lastPut entry hentry :=
    (h.lastPut entry (List.mem_filter.mp hentry).1).concat fun _ => nofun
  evicted other hkept hmissing := by
    rcases hkept.of_concat with ⟨value, heq⟩ | ⟨hkept, hremoved⟩
    · cases heq
    · refine h.evicted other hkept fun hother => hmissing ?_
      obtain ⟨entry, hentry, rfl⟩ := List.mem_map.mp hother
      have hne : entry.1 ≠ key := fun heq => hremoved (heq ▸ rfl)
      exact List.mem_map_of_mem (List.mem_filter.mpr ⟨hentry, by simpa using hne⟩)

omit [DecidableEq κ] in
/-- What is dropped from the front is followed by the entries that stay. -/
theorem exists_mem_of_drop {n : ℕ} {entry : κ × β} (hentry : entry ∈ items)
    (hmissing : entry.1 ∉ (items.drop n).map Prod.fst) : entry ∈ items.take n := by
  rw [← List.take_append_drop n items, List.mem_append] at hentry
  exact hentry.resolve_right fun h => hmissing (List.mem_map_of_mem h)

theorem Follows.put (h : Follows capacity operations uses items)
    (hdistinct : (items.map Prod.fst).Nodup) (hcapacity : 1 ≤ capacity) (key : κ) (value : β) :
    Follows capacity (operations ++ [.put key value]) (uses ++ [key])
      (evict capacity (items.filter (·.1 ≠ key) ++ [(key, value)])) := by
  have hordered := ordered_touch h.ordered key value
  have hnodup := nodup_filter_append hdistinct (show (key, value).1 = key from rfl)
  rw [evict_eq_drop]
  refine ⟨?_, hordered.sublist (List.drop_sublist _ _), fun entry hentry => ?_,
    fun other hkept hmissing => ?_⟩
  · rw [List.length_drop]
    omega
  · rcases List.mem_append.mp (List.mem_of_mem_drop hentry) with hentry | hentry
    · obtain ⟨hentry, hne⟩ := List.mem_filter.mp hentry
      refine (h.lastPut entry hentry).concat fun v heq => ?_
      cases heq
      exact of_decide_eq_true hne rfl
    · rw [List.mem_singleton.mp hentry]
      exact lastPut_put operations key value
  · generalize hall : items.filter (·.1 ≠ key) ++ [(key, value)] = all at *
    have hlast : (key, value) ∈ all.drop (all.length - capacity) := by
      rw [← hall, List.drop_append_of_le_length (by
        rw [List.length_append, List.length_singleton]
        omega)]
      exact List.mem_append_right _ List.mem_cons_self
    have hne : key ≠ other := fun heq => hmissing (heq ▸ List.mem_map_of_mem hlast)
    by_cases hother : other ∈ all.map Prod.fst
    · -- `other` is evicted now: everything that stays was used after it.
      obtain ⟨entry, hentry, rfl⟩ := List.mem_map.mp hother
      have htaken := exists_mem_of_drop hentry hmissing
      have hstay : (all.drop (all.length - capacity)).map Prod.fst ⊆
          (usedSince (uses ++ [key]) entry.1).toList := by
        intro k hk
        obtain ⟨later, hlater, rfl⟩ := List.mem_map.mp hk
        rw [← List.take_append_drop (all.length - capacity) all, List.pairwise_append] at hordered
        exact Finset.mem_toList.mpr (hordered.2.2 entry htaken later hlater)
      have hpositive : 0 < all.length - capacity := by
        rw [List.mem_take_iff_getElem] at htaken
        obtain ⟨i, hi, -⟩ := htaken
        omega
      have hcard := (hnodup.sublist ((List.drop_sublist (all.length - capacity) all).map
        Prod.fst)).subperm hstay |>.length_le
      rw [List.length_map, List.length_drop, Finset.length_toList] at hcard
      omega
    · have hmissed : other ∉ items.map Prod.fst := by
        intro hmem
        obtain ⟨entry, hentry, rfl⟩ := List.mem_map.mp hmem
        refine hother (hall ▸ ?_)
        exact List.mem_map_of_mem (List.mem_append_left _
          (List.mem_filter.mpr ⟨hentry, by simpa using Ne.symm hne⟩))
      rcases hkept.of_concat with ⟨v, heq⟩ | ⟨hkept, -⟩
      · cases heq
        exact absurd rfl hne
      · exact (h.evicted other hkept hmissed).trans (card_usedSince_le hne uses)

/-- Every operation keeps the entries related to the history. -/
theorem follows_perform {c : LruCache κ β} (hcapacity : 1 ≤ c.capacity)
    (h : Follows c.capacity operations uses c.items) (last : CacheOperation κ β) :
    (c.perform last).capacity = c.capacity ∧
      Follows c.capacity (operations ++ [last]) (uses ++ c.used last) (c.perform last).items := by
  cases last with
  | get key =>
    rw [perform, get, used]
    split_ifs with hcontains
    · obtain ⟨⟨k, value⟩, hmem, hkey⟩ := List.any_eq_true.mp hcontains
      obtain rfl := of_decide_eq_true hkey
      have hmove := moveToEnd_eq hmem fun entry hentry heq =>
        List.inj_on_of_nodup_map c.distinct hentry hmem heq
      refine ⟨rfl, ?_⟩
      simp only [hmove]
      exact h.hit hmem
    · exact ⟨rfl, (List.append_nil uses).symm ▸ h.miss key⟩
  | put key value =>
    refine ⟨rfl, ?_⟩
    simp only [perform, LruCache.put, moveToEnd_setItem]
    exact h.put c.distinct hcapacity key value
  | remove key => exact ⟨rfl, (List.append_nil uses).symm ▸ h.remove key⟩

theorem follows_run (hcapacity : 1 ≤ capacity) (operations : List (CacheOperation κ β)) :
    (run capacity operations).1.capacity = capacity ∧
      Follows capacity operations (run capacity operations).2 (run capacity operations).1.items := by
  induction operations using List.reverseRecOn with
  | nil =>
    refine ⟨rfl, Nat.zero_le _, List.Pairwise.nil, nofun, ?_⟩
    rintro key ⟨before, value, after, heq, -⟩
    cases before <;> cases heq
  | append_singleton operations last ih =>
    obtain ⟨hsame, hfollows⟩ := ih
    rw [run_concat]
    obtain ⟨hcapacity', hnext⟩ := follows_perform (by rwa [hsame]) (by rwa [hsame]) last
    rw [hsame] at hcapacity' hnext
    exact ⟨hcapacity', hnext⟩

theorem get_eq_some {c : LruCache κ β} (h : (c.get key).1 = some value) : (key, value) ∈ c.items := by
  rw [get] at h
  split_ifs at h with hcontains
  have hmem := (Dictionary.lookup_eq_some_iff (nodup_moveToEnd c.distinct key)).mp h
  rw [moveToEnd] at hmem
  cases hfind : c.items.find? (·.1 = key) with
  | none => rwa [hfind] at hmem
  | some entry =>
    rw [hfind] at hmem
    rcases List.mem_append.mp hmem with hmem | hmem
    · exact (List.mem_filter.mp hmem).1
    · rw [List.mem_singleton.mp hmem]
      exact List.mem_of_find?_eq_some hfind

/-- After any operations: the cache holds no more than its capacity, `get` gives the value last put
or nothing, and a key that was put, not removed since, and is missing was followed by uses of at
least as many other keys as the cache holds. -/
theorem run_keeps (hcapacity : 1 ≤ capacity) (operations : List (CacheOperation κ β)) :
    (run capacity operations).1.len ≤ capacity ∧
      (∀ key value, ((run capacity operations).1.get key).1 = some value →
        LastPut operations key value) ∧
      ∀ key, Kept operations key → (run capacity operations).1.contains key = false →
        capacity ≤ (usedSince (run capacity operations).2 key).card := by
  obtain ⟨-, hfollows⟩ := follows_run hcapacity operations
  refine ⟨hfollows.length_le, fun key value hget => hfollows.lastPut _ (get_eq_some hget),
    fun key hkept hmissing => hfollows.evicted key hkept fun hmem => ?_⟩
  obtain ⟨entry, hentry, rfl⟩ := List.mem_map.mp hmem
  exact absurd (List.any_eq_true.mpr ⟨entry, hentry, decide_eq_true rfl⟩)
    (Bool.eq_false_iff.mp hmissing)

theorem run_keeps_pair :
    1 ≤ (usedSince (run 1 [.put 'a' 5, .put 'b' 6]).2 'a').card :=
  (run_keeps (Nat.le_refl 1) [.put 'a' 5, .put 'b' 6]).2.2 'a' ⟨[], 5, [.put 'b' 6], rfl, by simp⟩
    (by decide)

end LruCache

end Kaskade
