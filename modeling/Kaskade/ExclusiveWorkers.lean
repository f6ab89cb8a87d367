import Kaskade.Runs
import Mathlib.Data.List.Infix

/-!
# Exclusive workers

A group of workers that make calls one after another, where each worker that starts cancels the
others. A cancelled worker waits for the call that it is in, and makes no other.
-/

namespace Kaskade

variable {α : Type}

structure PlannedWorker (α : Type) where
  id : ℕ
  remaining : List α
  calling : Bool := false
  cancelled : Bool := false

structure ExclusiveWorkers (α : Type) where
  /-- The calls that each worker is to make, by its number. -/
  plans : List (List α) := []
  workers : List (PlannedWorker α) := []
  calls : List (ℕ × α) := []
  /-- The workers that came to the end of their plans. -/
  completed : List ℕ := []

inductive WorkerEvent (α : Type) where
  | start (plan : List α)
  | call (worker : ℕ)
  | answer (worker : ℕ) (raised : Bool)
  | finish (worker : ℕ)

namespace ExclusiveWorkers

variable {s t : ExclusiveWorkers α}

def callsOf (s : ExclusiveWorkers α) (id : ℕ) : List α :=
  (s.calls.filter (·.1 = id)).map Prod.snd

def find (s : ExclusiveWorkers α) (id : ℕ) : Option (PlannedWorker α) :=
  s.workers.find? (·.id = id)

def replace (s : ExclusiveWorkers α) (worker : PlannedWorker α) : ExclusiveWorkers α :=
  { s with workers := s.workers.map fun other => if other.id = worker.id then worker else other }

def drop (s : ExclusiveWorkers α) (id : ℕ) : ExclusiveWorkers α :=
  { s with workers := s.workers.filter (·.id ≠ id) }

def start (s : ExclusiveWorkers α) (plan : List α) : ExclusiveWorkers α :=
  { s with
    plans := s.plans ++ [plan]
    workers := ⟨s.plans.length, plan, false, false⟩ :: s.workers.map ({ · with cancelled := true }) }

def step (s : ExclusiveWorkers α) : WorkerEvent α → Option (ExclusiveWorkers α)
  | .start plan => some (s.start plan)
  | .call id =>
    match s.find id with
    | some ⟨_, call :: remaining, false, false⟩ =>
      some { s.replace ⟨id, remaining, true, false⟩ with calls := s.calls ++ [(id, call)] }
    | _ => none
  | .answer id raised =>
    match s.find id with
    | some ⟨_, remaining, true, cancelled⟩ =>
      if raised || cancelled then some (s.drop id)
      else some (s.replace ⟨id, remaining, false, false⟩)
    | _ => none
  | .finish id =>
    match s.find id with
    | some ⟨_, _, false, true⟩ => some (s.drop id)
    | some ⟨_, [], false, false⟩ => some { s.drop id with completed := s.completed ++ [id] }
    | _ => none

def Step (s : ExclusiveWorkers α) (event : WorkerEvent α) (t : ExclusiveWorkers α) : Prop :=
  s.step event = some t

theorem mem_of_find {id : ℕ} {worker : PlannedWorker α} (h : s.find id = some worker) :
    worker ∈ s.workers ∧ worker.id = id :=
  ⟨List.mem_of_find?_eq_some h, by simpa using List.find?_some h⟩

theorem mem_replace {worker other : PlannedWorker α} (h : other ∈ (s.replace worker).workers) :
    other = worker ∨ other ∈ s.workers ∧ other.id ≠ worker.id := by
  obtain ⟨before, hbefore, rfl⟩ := List.mem_map.mp h
  split_ifs with hid
  · exact .inl rfl
  · exact .inr ⟨hbefore, hid⟩

theorem mem_drop {id : ℕ} {worker : PlannedWorker α} (h : worker ∈ (s.drop id).workers) :
    worker ∈ s.workers ∧ worker.id ≠ id := by
  simpa [drop] using h

structure Follows (s : ExclusiveWorkers α) : Prop where
  /-- A worker has made the first of its calls, and is to make the others. -/
  plan : ∀ worker ∈ s.workers,
    s.plans[worker.id]? = some (s.callsOf worker.id ++ worker.remaining)
  /-- Only the last worker that started is not cancelled. -/
  newest : ∀ worker ∈ s.workers, worker.cancelled = false → worker.id + 1 = s.plans.length
  prefixes : ∀ id plan, s.plans[id]? = some plan → s.callsOf id <+: plan
  bounded : ∀ call ∈ s.calls, call.1 < s.plans.length
  ordered : (s.calls.map Prod.fst).Pairwise (· ≤ ·)
  completed : ∀ id ∈ s.completed, s.plans[id]? = some (s.callsOf id)
  ended : ∀ worker ∈ s.workers, worker.id ∉ s.completed

theorem Follows.start (h : Follows s) (plan : List α) : Follows (s.start plan) := by
  have hkept : ∀ {id : ℕ} {calls : List α}, s.plans[id]? = some calls →
      (s.plans ++ [plan])[id]? = some calls := by
    intro id calls hid
    rw [List.getElem?_append_left (List.getElem?_eq_some_iff.mp hid).choose, hid]
  have hnone : s.callsOf s.plans.length = [] := by
    rw [callsOf, List.map_eq_nil_iff, List.filter_eq_nil_iff]
    intro call hcall
    have hbound := h.bounded call hcall
    simp only [decide_eq_true_eq]
    omega
  refine ⟨fun worker hworker => ?_, fun worker hworker hcancelled => ?_, fun id calls hid => ?_,
    fun call hcall => ?_, h.ordered, fun id hid => hkept (h.completed id hid), fun worker hworker => ?_⟩
  · rcases List.mem_cons.mp hworker with rfl | hbefore
    · change (s.plans ++ [plan])[s.plans.length]? = some (s.callsOf s.plans.length ++ plan)
      rw [List.getElem?_concat_length, hnone, List.nil_append]
    · obtain ⟨before, hmem, rfl⟩ := List.mem_map.mp hbefore
      exact hkept (h.plan before hmem)
  · rcases List.mem_cons.mp hworker with rfl | hbefore
    · rw [ExclusiveWorkers.start, List.length_append, List.length_singleton]
    · obtain ⟨before, hmem, rfl⟩ := List.mem_map.mp hbefore
      cases hcancelled
  · by_cases hlast : id < s.plans.length
    · change (s.plans ++ [plan])[id]? = some calls at hid
      rw [List.getElem?_append_left hlast] at hid
      exact h.prefixes id calls hid
    · have hlength := (List.getElem?_eq_some_iff.mp hid).choose
      rw [ExclusiveWorkers.start, List.length_append, List.length_singleton] at hlength
      obtain rfl : id = s.plans.length := by omega
      change s.callsOf s.plans.length <+: calls
      rw [hnone]
      exact List.nil_prefix
  · have hbound := h.bounded call hcall
    rw [ExclusiveWorkers.start, List.length_append]
    omega
  · rcases List.mem_cons.mp hworker with rfl | hbefore
    · intro hcompleted
      have hbound := (List.getElem?_eq_some_iff.mp (h.completed _ hcompleted)).choose
      exact absurd hbound (Nat.lt_irrefl _)
    · obtain ⟨before, hmem, rfl⟩ := List.mem_map.mp hbefore
      exact h.ended before hmem

theorem callsOf_append (s : ExclusiveWorkers α) (id other : ℕ) (call : α)
    (workers : List (PlannedWorker α)) :
    callsOf { s with workers := workers, calls := s.calls ++ [(id, call)] } other =
      s.callsOf other ++ if id = other then [call] else [] := by
  rw [callsOf, callsOf, List.filter_append, List.map_append]
  split_ifs with hid
  · simp [hid]
  · simp [hid]

theorem Follows.call (h : Follows s) {id : ℕ} {call : α} {remaining : List α}
    (hworker : ⟨id, call :: remaining, false, false⟩ ∈ s.workers) :
    Follows { s.replace ⟨id, remaining, true, false⟩ with calls := s.calls ++ [(id, call)] } := by
  have hplan : s.plans[id]? = some (s.callsOf id ++ call :: remaining) := h.plan _ hworker
  have hnewest : id + 1 = s.plans.length := h.newest _ hworker rfl
  have hother : ∀ {other : ℕ}, id ≠ other →
      callsOf { s.replace ⟨id, remaining, true, false⟩ with calls := s.calls ++ [(id, call)] } other =
        s.callsOf other := by
    intro other hne
    exact (callsOf_append s id other call _).trans (by rw [if_neg hne, List.append_nil])
  have hsame : callsOf { s.replace ⟨id, remaining, true, false⟩ with
      calls := s.calls ++ [(id, call)] } id = s.callsOf id ++ [call] :=
    (callsOf_append s id id call _).trans (by rw [if_pos rfl])
  refine ⟨fun worker hmem => ?_, fun worker hmem hcancelled => ?_, fun other calls hcalls => ?_,
    fun made hmade => ?_, ?_, fun other hcompleted => ?_, fun worker hmem => ?_⟩
  · rcases mem_replace hmem with rfl | ⟨hbefore, hne⟩
    · rw [hsame, List.append_assoc]
      exact hplan
    · rw [hother (Ne.symm hne)]
      exact h.plan worker hbefore
  · rcases mem_replace hmem with rfl | ⟨hbefore, -⟩
    · exact hnewest
    · exact h.newest worker hbefore hcancelled
  · by_cases hid : id = other
    · subst hid
      obtain rfl := Option.some.inj (hplan.symm.trans hcalls)
      rw [hsame]
      exact ⟨remaining, by rw [List.append_assoc]; rfl⟩
    · rw [hother hid]
      exact h.prefixes other calls hcalls
  · rcases List.mem_append.mp hmade with hbefore | hnow
    · exact h.bounded made hbefore
    · obtain rfl := List.mem_singleton.mp hnow
      change id < s.plans.length
      omega
  · rw [List.map_append, List.pairwise_append]
    refine ⟨h.ordered, List.pairwise_singleton _ _, fun first hfirst last hlast => ?_⟩
    obtain ⟨made, hmade, rfl⟩ := List.mem_map.mp hfirst
    have hbound := h.bounded made hmade
    have hnow : last = id := List.mem_singleton.mp hlast
    omega
  · have hne : id ≠ other := by
      rintro rfl
      exact h.ended _ hworker hcompleted
    rw [hother hne]
    exact h.completed other hcompleted
  · rcases mem_replace hmem with rfl | ⟨hbefore, -⟩
    · exact h.ended ⟨id, call :: remaining, false, false⟩ hworker
    · exact h.ended worker hbefore

theorem Follows.drop (h : Follows s) (number : ℕ) : Follows (s.drop number) where
  plan worker hworker := h.plan worker (mem_drop hworker).1
  newest worker hworker := h.newest worker (mem_drop hworker).1
  prefixes := h.prefixes
  bounded := h.bounded
  ordered := h.ordered
  completed := h.completed
  ended worker hworker := h.ended worker (mem_drop hworker).1

theorem Follows.replace (h : Follows s) {id : ℕ} {remaining : List α} {calling : Bool}
    (hworker : ⟨id, remaining, calling, false⟩ ∈ s.workers) :
    Follows (s.replace ⟨id, remaining, false, false⟩) where
  plan worker hmem := by
    rcases mem_replace hmem with rfl | ⟨hbefore, -⟩
    · exact h.plan ⟨id, remaining, calling, false⟩ hworker
    · exact h.plan worker hbefore
  newest worker hmem hcancelled := by
    rcases mem_replace hmem with rfl | ⟨hbefore, -⟩
    · exact h.newest ⟨id, remaining, calling, false⟩ hworker rfl
    · exact h.newest worker hbefore hcancelled
  prefixes := h.prefixes
  bounded := h.bounded
  ordered := h.ordered
  completed := h.completed
  ended worker hmem := by
    rcases mem_replace hmem with rfl | ⟨hbefore, -⟩
    · exact h.ended ⟨id, remaining, calling, false⟩ hworker
    · exact h.ended worker hbefore

theorem Follows.complete (h : Follows s) {id : ℕ} {calling cancelled : Bool}
    (hworker : ⟨id, [], calling, cancelled⟩ ∈ s.workers) :
    Follows { s.drop id with completed := s.completed ++ [id] } where
  plan := (h.drop id).plan
  newest := (h.drop id).newest
  prefixes := h.prefixes
  bounded := h.bounded
  ordered := h.ordered
  completed other hcompleted := by
    rcases List.mem_append.mp hcompleted with hbefore | hnow
    · exact h.completed other hbefore
    · obtain rfl := List.mem_singleton.mp hnow
      have hplan := h.plan _ hworker
      rwa [List.append_nil] at hplan
  ended worker hmem hcompleted := by
    obtain ⟨hbefore, hne⟩ := mem_drop hmem
    rcases List.mem_append.mp hcompleted with hearlier | hnow
    · exact h.ended worker hbefore hearlier
    · exact hne (List.mem_singleton.mp hnow)

theorem Follows.step {event : WorkerEvent α} (h : Follows s) (hstep : Step s event t) :
    Follows t := by
  cases event with
  | start plan =>
    obtain rfl := Option.some.inj hstep
    exact h.start plan
  | call id =>
    simp only [Step, ExclusiveWorkers.step] at hstep
    split at hstep
    next found call remaining hfind =>
      obtain ⟨hworker, rfl⟩ := mem_of_find hfind
      obtain rfl := Option.some.inj hstep
      exact h.call hworker
    next => cases hstep
  | answer id raised =>
    simp only [Step, ExclusiveWorkers.step] at hstep
    split at hstep
    next found remaining cancelled hfind =>
      obtain ⟨hworker, rfl⟩ := mem_of_find hfind
      split_ifs at hstep with hends
      · obtain rfl := Option.some.inj hstep
        exact h.drop _
      · obtain rfl := Option.some.inj hstep
        obtain rfl : cancelled = false := by
          rw [Bool.or_eq_true, not_or] at hends
          exact Bool.eq_false_iff.mpr hends.2
        exact h.replace hworker
    next => cases hstep
  | finish id =>
    simp only [Step, ExclusiveWorkers.step] at hstep
    split at hstep
    next found remaining hfind =>
      obtain rfl := Option.some.inj hstep
      exact h.drop id
    next found hfind =>
      obtain ⟨hworker, rfl⟩ := mem_of_find hfind
      obtain rfl := Option.some.inj hstep
      exact h.complete hworker
    next => cases hstep

theorem Step.plans {event : WorkerEvent α} (hstep : Step s event t)
    (hother : ∀ plan, event ≠ .start plan) : t.plans = s.plans := by
  cases event with
  | start plan => exact absurd rfl (hother plan)
  | call id =>
    simp only [Step, ExclusiveWorkers.step] at hstep
    split at hstep
    next => rw [← Option.some.inj hstep]; rfl
    next => cases hstep
  | answer id raised =>
    simp only [Step, ExclusiveWorkers.step] at hstep
    split at hstep
    next =>
      split_ifs at hstep
      · rw [← Option.some.inj hstep]; rfl
      · rw [← Option.some.inj hstep]; rfl
    next => cases hstep
  | finish id =>
    simp only [Step, ExclusiveWorkers.step] at hstep
    split at hstep
    next => rw [← Option.some.inj hstep]; rfl
    next => rw [← Option.some.inj hstep]; rfl
    next => cases hstep

theorem follows_empty : Follows ({} : ExclusiveWorkers α) where
  plan _ hworker := absurd hworker List.not_mem_nil
  newest _ hworker := absurd hworker List.not_mem_nil
  prefixes _ _ hid := by cases hid
  bounded _ hcall := absurd hcall List.not_mem_nil
  ordered := List.Pairwise.nil
  completed _ hid := absurd hid List.not_mem_nil
  ended _ hworker := absurd hworker List.not_mem_nil

end ExclusiveWorkers

end Kaskade
