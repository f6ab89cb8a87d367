import Kaskade.LruCaches
import Mathlib.Tactic.Linarith

/-!
# Caches whose entries expire

A least recently used cache of values that are kept with the time at which they were stored. A
value is served for a period; one that is looked up after its period is removed. Lookups and stores
are translated to the operations of the cache, so that what is known of these applies.
-/

namespace Kaskade

namespace LruCache

variable {κ β : Type} {operations : List (CacheOperation κ β)} {last : CacheOperation κ β} {key : κ}

theorem Kept.concat (h : Kept operations key) (hlast : last ≠ .remove key) :
    Kept (operations ++ [last]) key := by
  obtain ⟨before, value, after, rfl, hafter⟩ := h
  refine ⟨before, value, after ++ [last], List.append_assoc _ _ _, fun hmem => ?_⟩
  rcases List.mem_append.mp hmem with hmem | hmem
  · exact hafter hmem
  · exact hlast (List.mem_singleton.mp hmem).symm

theorem LastPut.unique {value other : β} (h : LastPut operations key value)
    (hother : LastPut operations key other) : value = other := by
  induction operations using List.reverseRecOn with
  | nil =>
    obtain ⟨before, after, heq, -⟩ := h
    exact absurd heq (by simp)
  | append_singleton operations last ih =>
    have hends : ∀ v, LastPut (operations ++ [last]) key v →
        last = .put key v ∨ LastPut operations key v ∧ ∀ w, last ≠ .put key w := by
      intro v hv
      obtain ⟨before, after, heq, hafter⟩ := hv
      rcases List.eq_nil_or_concat after with rfl | ⟨after, final, rfl⟩
      · exact .inl (List.singleton_inj.mp (List.append_inj' heq rfl).2)
      · rw [List.concat_eq_append, ← List.cons_append, ← List.append_assoc] at heq
        obtain ⟨hbefore, hfinal⟩ := List.append_inj' heq rfl
        obtain rfl := List.singleton_inj.mp hfinal
        refine .inr ⟨⟨before, after, hbefore, fun w hmem => ?_⟩, fun w hw => ?_⟩
        · exact hafter w (by simp [hmem])
        · exact hafter w (by simp [hw])
    rcases hends value h with hlast | ⟨hvalue, hnone⟩
    · rcases hends other hother with hlast' | ⟨-, hnone⟩
      · exact (CacheOperation.put.inj (hlast.symm.trans hlast')).2
      · exact absurd hlast (hnone value)
    · rcases hends other hother with hlast' | ⟨hother, -⟩
      · exact absurd hlast' (hnone other)
      · exact ih hvalue hother

theorem get_of_contains [DecidableEq κ] {c : LruCache κ β} (h : c.contains key = true) :
    ∃ value, (c.get key).1 = some value := by
  obtain ⟨⟨k, value⟩, hmem, hkey⟩ := List.any_eq_true.mp h
  obtain rfl := of_decide_eq_true hkey
  refine ⟨value, ?_⟩
  rw [get, if_pos h]
  apply (Dictionary.lookup_eq_some_iff (nodup_moveToEnd c.distinct k)).mpr
  rw [moveToEnd_eq hmem fun entry hentry heq => List.inj_on_of_nodup_map c.distinct hentry hmem heq]
  exact List.mem_append_right _ List.mem_cons_self

end LruCache

/-- A use of the cache, with the time of the clock. -/
inductive TimedOperation (κ β : Type) where
  | lookup (now : ℚ) (key : κ)
  | store (now : ℚ) (key : κ) (value : β)

namespace TimedOperation

variable {κ β : Type}

def now : TimedOperation κ β → ℚ
  | .lookup now _ => now
  | .store now _ _ => now

def key : TimedOperation κ β → κ
  | .lookup _ key => key
  | .store _ key _ => key

def LastStored (operations : List (TimedOperation κ β)) (key : κ) (createdAt : ℚ) (value : β) :
    Prop :=
  ∃ before after, operations = before ++ .store createdAt key value :: after ∧
    ∀ t v, .store t key v ∉ after

theorem LastStored.concat {operations : List (TimedOperation κ β)} {last : TimedOperation κ β}
    {key : κ} {createdAt : ℚ} {value : β} (h : LastStored operations key createdAt value)
    (hlast : ∀ t v, last ≠ .store t key v) :
    LastStored (operations ++ [last]) key createdAt value := by
  obtain ⟨before, after, rfl, hafter⟩ := h
  refine ⟨before, after ++ [last], List.append_assoc _ _ _, fun t v hmem => ?_⟩
  rcases List.mem_append.mp hmem with hmem | hmem
  · exact hafter t v hmem
  · exact hlast t v (List.mem_singleton.mp hmem).symm

end TimedOperation

namespace TimedCache

variable {κ β : Type} [DecidableEq κ]

/-- Whether a value is too old; with a period of zero every value is. -/
def Expired (period : ℕ) (createdAt now : ℚ) : Prop :=
  period = 0 ∨ (period : ℚ) ≤ (now - createdAt) * 1000

instance (period : ℕ) (createdAt now : ℚ) : Decidable (Expired period createdAt now) :=
  inferInstanceAs (Decidable (_ ∨ _))

def lookup (period : ℕ) (c : LruCache κ (ℚ × β)) (now : ℚ) (key : κ) :
    Option β × LruCache κ (ℚ × β) :=
  match c.get key with
  | (none, c) => (none, c)
  | (some (createdAt, value), c) =>
    if Expired period createdAt now then (none, c.remove key) else (some value, c)

def store (c : LruCache κ (ℚ × β)) (now : ℚ) (key : κ) (value : β) : LruCache κ (ℚ × β) :=
  c.put key (now, value)

def perform (period : ℕ) (c : LruCache κ (ℚ × β)) : TimedOperation κ β → LruCache κ (ℚ × β)
  | .lookup now key => (lookup period c now key).2
  | .store now key value => store c now key value

def run (period capacity : ℕ) (operations : List (TimedOperation κ β)) : LruCache κ (ℚ × β) :=
  operations.foldl (perform period) (LruCache.new capacity)

def steps (period : ℕ) (c : LruCache κ (ℚ × β)) :
    TimedOperation κ β → List (CacheOperation κ (ℚ × β))
  | .lookup now key =>
    match (c.get key).1 with
    | none => [.get key]
    | some entry => if Expired period entry.1 now then [.get key, .remove key] else [.get key]
  | .store now key value => [.put key (now, value)]

def history (period capacity : ℕ) (operations : List (TimedOperation κ β)) :
    List (CacheOperation κ (ℚ × β)) :=
  operations.foldl (fun done operation =>
    done ++ steps period (LruCache.run capacity done).1 operation) []

variable {period capacity : ℕ} {c : LruCache κ (ℚ × β)} {operations : List (TimedOperation κ β)}
  {key : κ} {value : β} {createdAt now : ℚ}

theorem history_concat (operations : List (TimedOperation κ β)) (last : TimedOperation κ β) :
    history period capacity (operations ++ [last]) =
      history period capacity operations ++
        steps period (LruCache.run capacity (history period capacity operations)).1 last :=
  List.foldl_concat _ _ _ _

theorem run_concat (operations : List (TimedOperation κ β)) (last : TimedOperation κ β) :
    run period capacity (operations ++ [last]) =
      perform period (run period capacity operations) last :=
  List.foldl_concat _ _ _ _

theorem perform_eq_foldl (c : LruCache κ (ℚ × β)) (operation : TimedOperation κ β) :
    (steps period c operation).foldl LruCache.perform c = perform period c operation := by
  cases operation with
  | lookup now key =>
    rw [perform, lookup, steps]
    cases hget : c.get key with
    | mk found after =>
      cases found with
      | none => simp [LruCache.perform, hget]
      | some entry =>
        dsimp only
        split_ifs with hexpired
        · simp [LruCache.perform, hget]
        · simp [LruCache.perform, hget]
  | store now key value => rfl

theorem foldl_run (done new : List (CacheOperation κ (ℚ × β))) :
    (LruCache.run capacity (done ++ new)).1 =
      new.foldl LruCache.perform (LruCache.run capacity done).1 := by
  induction new using List.reverseRecOn with
  | nil => rw [List.append_nil, List.foldl_nil]
  | append_singleton new last ih =>
    rw [← List.append_assoc, LruCache.run_concat, ih, List.foldl_concat]

theorem run_eq (period capacity : ℕ) (operations : List (TimedOperation κ β)) :
    run period capacity operations =
      (LruCache.run capacity (history period capacity operations)).1 := by
  induction operations using List.reverseRecOn with
  | nil => rfl
  | append_singleton operations last ih =>
    rw [run_concat, ih, history_concat, foldl_run, perform_eq_foldl]

theorem put_mem_steps {operation : TimedOperation κ β} {entry : ℚ × β}
    (h : .put key entry ∈ steps period c operation) :
    operation = .store entry.1 key entry.2 ∧
      steps period c operation = [.put key entry] := by
  cases operation with
  | lookup now other =>
    rw [steps] at h
    split at h
    · simp at h
    · split_ifs at h <;> simp at h
  | store now other value =>
    rw [steps, List.mem_singleton] at h
    cases h
    exact ⟨rfl, rfl⟩

/-- A value put last in the cache was stored last. -/
theorem lastStored_of_lastPut {entry : ℚ × β}
    (h : LruCache.LastPut (history period capacity operations) key entry) :
    TimedOperation.LastStored operations key entry.1 entry.2 := by
  induction operations using List.reverseRecOn with
  | nil =>
    obtain ⟨before, after, heq, -⟩ := h
    exact absurd heq (by simp [history])
  | append_singleton operations last ih =>
    rw [history_concat] at h
    generalize hc : (LruCache.run capacity (history period capacity operations)).1 = c at h
    by_cases hput : ∃ other, .put key other ∈ steps period c last
    · obtain ⟨other, hother⟩ := hput
      obtain ⟨rfl, hsteps⟩ := put_mem_steps hother
      rw [hsteps] at h
      obtain ⟨before, after, heq, hafter⟩ := h
      rcases List.eq_nil_or_concat after with rfl | ⟨after, final, rfl⟩
      · obtain ⟨-, hlast⟩ := List.append_inj' heq rfl
        cases List.singleton_inj.mp hlast
        exact ⟨operations, [], rfl, fun _ _ => List.not_mem_nil⟩
      · rw [List.concat_eq_append, ← List.cons_append, ← List.append_assoc] at heq
        obtain ⟨-, hfinal⟩ := List.append_inj' heq rfl
        rw [List.concat_eq_append, ← hfinal] at hafter
        exact absurd (List.mem_append_right _ List.mem_cons_self) (hafter other)
    · refine (ih ?_).concat fun t v heq => hput ⟨(t, v), ?_⟩
      · obtain ⟨before, after, heq, hafter⟩ := h
        rcases List.append_eq_append_iff.mp heq with ⟨rest, hbefore, hsteps⟩ | ⟨rest, hdone, hrest⟩
        · exact absurd ⟨entry, hsteps ▸ List.mem_append_right _ List.mem_cons_self⟩ hput
        · rcases rest with - | ⟨first, rest⟩
          · exact absurd ⟨entry, by rw [← List.nil_append (steps _ _ _), ← hrest]; simp⟩ hput
          · rw [List.cons_append] at hrest
            obtain ⟨rfl, rfl⟩ := List.cons.inj hrest
            exact ⟨before, rest, hdone, fun v hmem => hafter v (List.mem_append_left _ hmem)⟩
      · rw [heq, steps]
        exact List.mem_singleton_self _

theorem lookup_eq_some (h : (lookup period c now key).1 = some value) :
    ∃ createdAt, (c.get key).1 = some (createdAt, value) ∧ ¬Expired period createdAt now := by
  rw [lookup] at h
  cases hget : c.get key with
  | mk found after =>
    rw [hget] at h
    cases found with
    | none => cases h
    | some entry =>
      dsimp only at h
      split_ifs at h with hexpired
      cases h
      exact ⟨entry.1, rfl, hexpired⟩

/-- What is served is what was stored last, less than the period ago. -/
theorem lookup_run (hcapacity : 1 ≤ capacity)
    (h : (lookup period (run period capacity operations) now key).1 = some value) :
    ∃ createdAt, TimedOperation.LastStored operations key createdAt value ∧
      ¬Expired period createdAt now := by
  rw [run_eq] at h
  obtain ⟨createdAt, hget, hexpired⟩ := lookup_eq_some h
  obtain ⟨-, hlast, -⟩ := LruCache.run_keeps hcapacity (history period capacity operations)
  exact ⟨createdAt, lastStored_of_lastPut (hlast key _ hget), hexpired⟩

/-- An entry stands in the cache as it was put, and since its last use only some others were used. -/
structure Held (capacity : ℕ) (done : List (CacheOperation κ (ℚ × β))) (key : κ) (entry : ℚ × β)
    (others : Finset κ) : Prop where
  kept : LruCache.Kept done key
  lastPut : LruCache.LastPut done key entry
  since : usedSince (LruCache.run capacity done).2 key ⊆ others

variable {done : List (CacheOperation κ (ℚ × β))} {entry : ℚ × β} {others : Finset κ}

theorem held_put (done : List (CacheOperation κ (ℚ × β))) (key : κ) (entry : ℚ × β)
    (others : Finset κ) : Held capacity (done ++ [.put key entry]) key entry others where
  kept := ⟨done, entry, [], rfl, List.not_mem_nil⟩
  lastPut := LruCache.lastPut_put done key entry
  since := by
    rw [LruCache.run_concat, LruCache.used, usedSince_self]
    exact Finset.empty_subset others

/-- An operation that neither puts nor removes the key keeps its entry. -/
theorem Held.concat (h : Held capacity done key entry others) {last : CacheOperation κ (ℚ × β)}
    (hput : ∀ v, last ≠ .put key v) (hremove : last ≠ .remove key)
    (hused : ∀ other ∈ (LruCache.run capacity done).1.used last, other = key ∨ other ∈ others)
    (hlength : ((LruCache.run capacity done).1.used last).length ≤ 1) :
    Held capacity (done ++ [last]) key entry others where
  kept := h.kept.concat hremove
  lastPut := h.lastPut.concat hput
  since := by
    rw [LruCache.run_concat]
    generalize (LruCache.run capacity done).1.used last = used at hused hlength
    rcases used with - | ⟨other, - | ⟨second, used⟩⟩
    · rw [List.append_nil]
      exact h.since
    · by_cases hother : other = key
      · rw [hother, usedSince_self]
        exact Finset.empty_subset others
      · rw [usedSince_of_ne hother]
        have hmem := (hused other List.mem_cons_self).resolve_left hother
        exact Finset.insert_subset hmem h.since
    · rw [List.length_cons, List.length_cons] at hlength
      omega

theorem length_used_le (c : LruCache κ (ℚ × β)) (operation : CacheOperation κ (ℚ × β)) :
    (c.used operation).length ≤ 1 := by
  cases operation with
  | get key =>
    rw [LruCache.used]
    split_ifs
    · exact Nat.le_refl 1
    · exact Nat.zero_le 1
  | put key value => exact Nat.le_refl 1
  | remove key => exact Nat.zero_le 1

theorem Held.get (hcapacity : 1 ≤ capacity) (h : Held capacity done key entry others)
    (hothers : others.card < capacity) :
    ((LruCache.run capacity done).1.get key).1 = some entry := by
  obtain ⟨-, hlast, hmissing⟩ := LruCache.run_keeps hcapacity done
  have hcontains : (LruCache.run capacity done).1.contains key = true := by
    by_contra hcontains
    have hcard := hmissing key h.kept (Bool.eq_false_iff.mpr hcontains)
    have hsince := Finset.card_le_card h.since
    omega
  obtain ⟨found, hfound⟩ := LruCache.get_of_contains hcontains
  rw [hfound, (hlast key found hfound).unique h.lastPut]

theorem Held.steps (hcapacity : 1 ≤ capacity) (h : Held capacity done key entry others)
    (hothers : others.card < capacity) {operation : TimedOperation κ β}
    (hstore : ∀ t v, operation ≠ .store t key v)
    (hlookup : ∀ t, operation = .lookup t key → ¬Expired period entry.1 t)
    (hkey : operation.key = key ∨ operation.key ∈ others) :
    Held capacity (done ++ steps period (LruCache.run capacity done).1 operation) key entry
      others := by
  cases operation with
  | lookup now other =>
    have hused : ∀ used ∈ (LruCache.run capacity done).1.used (.get other),
        used = key ∨ used ∈ others := by
      intro used hused
      rw [LruCache.used] at hused
      split_ifs at hused
      · rw [List.mem_singleton.mp hused]
        exact hkey
      · cases hused
    have hgot := h.concat (fun _ heq => by cases heq) (fun heq => by cases heq) hused
      (length_used_le _ _)
    rw [TimedCache.steps]
    by_cases hother : other = key
    · subst hother
      rw [h.get hcapacity hothers]
      simp only [if_neg (hlookup now rfl)]
      exact hgot
    · have hremoved := hgot.concat (fun _ heq => by cases heq)
        (fun heq => hother (CacheOperation.remove.inj heq)) (fun _ hmem => by cases hmem)
        (length_used_le _ (.remove other))
      split
      · exact hgot
      · split_ifs
        · rwa [List.append_assoc] at hremoved
        · exact hgot
  | store now other value =>
    have hother : other ≠ key := fun heq => hstore now value (heq ▸ rfl)
    refine h.concat (fun _ heq => ?_) (fun heq => by cases heq) (fun used hused => ?_)
      (length_used_le _ _)
    · exact hother (CacheOperation.put.inj heq).1
    · rw [List.mem_singleton.mp hused]
      exact hkey

/-- A stored value is served until its period is over, unless it is stored again or as many other
keys are used as the cache holds. -/
theorem lookup_stored (hcapacity : 1 ≤ capacity) {before after : List (TimedOperation κ β)}
    (hstore : ∀ t v, .store t key v ∉ after)
    (hlookup : ∀ t, .lookup t key ∈ after → ¬Expired period createdAt t)
    (hothers : ((after.map TimedOperation.key).toFinset.erase key).card < capacity)
    (hnow : ¬Expired period createdAt now) :
    (lookup period (run period capacity (before ++ .store createdAt key value :: after)) now key).1 =
      some value := by
  have hheld : ∀ done, done <+: after → Held capacity
      (history period capacity (before ++ .store createdAt key value :: done)) key (createdAt, value)
      ((after.map TimedOperation.key).toFinset.erase key) := by
    intro done
    induction done using List.reverseRecOn with
    | nil =>
      intro _
      rw [history_concat]
      exact held_put _ key (createdAt, value) _
    | append_singleton done last ih =>
      intro hprefix
      have hmem : last ∈ after := hprefix.subset (List.mem_append_right _ List.mem_cons_self)
      have hdone := ih ((List.prefix_append done [last]).trans hprefix)
      rw [← List.cons_append, ← List.append_assoc, history_concat]
      refine hdone.steps hcapacity hothers (fun t v heq => hstore t v (heq ▸ hmem))
        (fun t heq => hlookup t (heq ▸ hmem)) (or_iff_not_imp_left.mpr fun hne => ?_)
      exact Finset.mem_erase.mpr ⟨hne, List.mem_toFinset.mpr (List.mem_map_of_mem hmem)⟩
  have hget := (hheld after (List.prefix_refl after)).get hcapacity hothers
  rw [run_eq, lookup]
  cases hfound : LruCache.get _ key with
  | mk found rest =>
    rw [hfound] at hget
    obtain rfl : found = some (createdAt, value) := hget
    simp only [if_neg hnow]

end TimedCache

end Kaskade
