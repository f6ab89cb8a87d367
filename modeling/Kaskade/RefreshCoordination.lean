import Kaskade.Runs
import Mathlib.Data.List.Basic

/-!
# Refreshes and mutations of the topic list

`RefreshCoordinator` and the events of `ListTopics` that use it: requests, completed
refreshes, confirmed mutations and the end of their workers, in any order. One flag stands
for all mutations, so the end of one of them lets refreshes through while another is still
in progress.
-/

namespace Kaskade

inductive RefreshReason where
  | initial
  | manual
  | periodic
  | resume
  | mutation
  | pending
  deriving DecidableEq

structure RefreshCoordinator where
  generation : ℕ := 0
  active : Bool := false
  pending : Bool := false
  mutationActive : Bool := false
  deriving DecidableEq

namespace RefreshCoordinator

/-- `request`: the coordinator afterwards and the generation it issues, if any. -/
def request (c : RefreshCoordinator) (reason : RefreshReason) : RefreshCoordinator × Option ℕ :=
  if c.active || c.mutationActive then
    (if reason ≠ .periodic then { c with pending := true } else c, none)
  else ({ c with generation := c.generation + 1, active := true }, some (c.generation + 1))

def isCurrent (c : RefreshCoordinator) (generation : ℕ) : Bool :=
  c.active && generation == c.generation

/-- `complete`: whether the refresh was the current one. -/
def complete (c : RefreshCoordinator) (generation : ℕ) : RefreshCoordinator × Bool :=
  if !c.isCurrent generation then (c, false) else ({ c with active := false }, true)

/-- `take_pending`: whether a request was pending and can be made now. -/
def takePending (c : RefreshCoordinator) : RefreshCoordinator × Bool :=
  if !c.pending || c.active || c.mutationActive then (c, false)
  else ({ c with pending := false }, true)

def beginMutation (c : RefreshCoordinator) : RefreshCoordinator := { c with mutationActive := true }

def endMutation (c : RefreshCoordinator) : RefreshCoordinator := { c with mutationActive := false }

def discardPending (c : RefreshCoordinator) : RefreshCoordinator := { c with pending := false }

section Flags

variable (c : RefreshCoordinator)

theorem request_issues {reason : RefreshReason} {generation : ℕ}
    (h : (c.request reason).2 = some generation) : c.active = false ∧ c.mutationActive = false := by
  rw [request] at h
  split_ifs at h with hbusy
  simpa using hbusy

theorem request_idle (reason : RefreshReason) (hactive : c.active = false)
    (hmutation : c.mutationActive = false) : (c.request reason).2 = some (c.generation + 1) := by
  simp [request, hactive, hmutation]

@[simp] theorem request_mutationActive (reason : RefreshReason) :
    (c.request reason).1.mutationActive = c.mutationActive := by
  rw [request]
  split_ifs <;> rfl

@[simp] theorem complete_mutationActive (generation : ℕ) :
    (c.complete generation).1.mutationActive = c.mutationActive := by
  rw [complete]
  split_ifs <;> rfl

@[simp] theorem takePending_mutationActive : c.takePending.1.mutationActive = c.mutationActive := by
  rw [takePending]
  split_ifs <;> rfl

end Flags

end RefreshCoordinator

/-- A worker of the group `topic-mutation` that has not finished. -/
structure MutationWorker where
  id : ℕ
  cancelled : Bool
  deriving DecidableEq

/-- The part of `ListTopics` that coordinates refreshes: the unfinished mutations, newest
first, and the requests put off to a timer or until after the next repaint. -/
structure ListTopics where
  refreshCoordinator : RefreshCoordinator := {}
  mutations : List MutationWorker := []
  mutationsBegun : ℕ := 0
  scheduled : List RefreshReason := []
  deriving DecidableEq

inductive TopicsEvent where
  | request (reason : RefreshReason)
  /-- A request that was put off is made. -/
  | fire (index : ℕ)
  | completeRefresh (generation : ℕ) (attached : Bool)
  /-- A confirmed mutation begins and starts its worker. -/
  | mutate
  /-- A worker ends, after the blocking call of its mutation. -/
  | finishMutation (worker : ℕ) (changed : Bool)

namespace ListTopics

/-- `request_refresh`, with the generation of the refresh it starts. -/
def requestRefresh (s : ListTopics) (reason : RefreshReason) : ListTopics × Option ℕ :=
  let (coordinator, generation) := s.refreshCoordinator.request reason
  ({ s with refreshCoordinator := coordinator }, generation)

/-- `if take_pending(): call_after_refresh(...)`. -/
def schedulePending (s : ListTopics) : ListTopics :=
  let (coordinator, taken) := s.refreshCoordinator.takePending
  { s with
    refreshCoordinator := coordinator
    scheduled := if taken then s.scheduled ++ [.pending] else s.scheduled }

def completeRefresh (s : ListTopics) (generation : ℕ) (attached : Bool) : ListTopics :=
  let (coordinator, completed) := s.refreshCoordinator.complete generation
  let s := { s with refreshCoordinator := coordinator }
  if completed && attached then s.schedulePending else s

/-- `begin_mutation()` and the start of an exclusive worker, which cancels the others. -/
def startMutation (s : ListTopics) : ListTopics :=
  { s with
    refreshCoordinator := s.refreshCoordinator.beginMutation
    mutations := ⟨s.mutationsBegun, false⟩ :: s.mutations.map ({ · with cancelled := true })
    mutationsBegun := s.mutationsBegun + 1 }

def finishMutation (s : ListTopics) (changed : Bool) : ListTopics :=
  let s := { s with refreshCoordinator := s.refreshCoordinator.endMutation }
  if changed then
    { s with
      refreshCoordinator := s.refreshCoordinator.discardPending
      scheduled := s.scheduled ++ [.mutation] }
  else s.schedulePending

/-- The state after an event that can happen, and the generation it issues, if any. -/
def step (s : ListTopics) : TopicsEvent → Option (ListTopics × Option ℕ)
  | .request reason => some (s.requestRefresh reason)
  | .fire index =>
    match s.scheduled[index]? with
    | none => none
    | some reason => some ({ s with scheduled := s.scheduled.eraseIdx index }.requestRefresh reason)
  | .completeRefresh generation attached => some (s.completeRefresh generation attached, none)
  | .mutate => some (s.startMutation, none)
  | .finishMutation worker changed =>
    if s.mutations.any (·.id == worker) then
      some ({ s with mutations := s.mutations.filter (·.id != worker) }.finishMutation changed, none)
    else none

def Step (s : ListTopics) (event : TopicsEvent) (s' : ListTopics) : Prop :=
  ∃ issued, s.step event = some (s', issued)

/-- The event ends no mutation while another one is in progress. -/
def EndsAlone (s : ListTopics) : TopicsEvent → Prop
  | .finishMutation worker _ => ∀ w ∈ s.mutations, w.id = worker
  | _ => True

section Fields

variable (s : ListTopics)

@[simp] theorem requestRefresh_mutations (reason : RefreshReason) :
    (s.requestRefresh reason).1.mutations = s.mutations := rfl

@[simp] theorem requestRefresh_mutationActive (reason : RefreshReason) :
    (s.requestRefresh reason).1.refreshCoordinator.mutationActive =
      s.refreshCoordinator.mutationActive := by
  simp [requestRefresh]

@[simp] theorem schedulePending_mutationActive :
    s.schedulePending.refreshCoordinator.mutationActive = s.refreshCoordinator.mutationActive := by
  simp [schedulePending]

@[simp] theorem completeRefresh_mutations (generation : ℕ) (attached : Bool) :
    (s.completeRefresh generation attached).mutations = s.mutations := by
  simp only [completeRefresh]
  split_ifs <;> rfl

@[simp] theorem completeRefresh_mutationActive (generation : ℕ) (attached : Bool) :
    (s.completeRefresh generation attached).refreshCoordinator.mutationActive =
      s.refreshCoordinator.mutationActive := by
  simp only [completeRefresh]
  split_ifs <;> simp

@[simp] theorem finishMutation_mutations (changed : Bool) :
    (s.finishMutation changed).mutations = s.mutations := by
  cases changed <;> rfl

@[simp] theorem finishMutation_mutationActive (changed : Bool) :
    (s.finishMutation changed).refreshCoordinator.mutationActive = false := by
  cases changed <;> simp [finishMutation, RefreshCoordinator.endMutation,
    RefreshCoordinator.discardPending]

end Fields

theorem finishMutation_step {s s' : ListTopics} {worker : ℕ} {changed : Bool}
    (h : s.Step (.finishMutation worker changed) s') :
    s'.mutations = s.mutations.filter (·.id != worker) ∧
      s'.refreshCoordinator.mutationActive = false := by
  obtain ⟨issued, h⟩ := h
  simp only [step] at h
  split_ifs at h
  obtain rfl := congrArg Prod.fst (Option.some.inj h)
  exact ⟨by simp, by simp⟩

theorem step_mutations {s s' : ListTopics} {event : TopicsEvent} (h : s.Step event s') :
    (s'.mutations = s.mutations ∧
        s'.refreshCoordinator.mutationActive = s.refreshCoordinator.mutationActive) ∨
      (event = .mutate ∧ s'.refreshCoordinator.mutationActive = true) ∨
      ∃ worker changed, event = .finishMutation worker changed ∧
        s'.mutations = s.mutations.filter (·.id != worker) ∧
        s'.refreshCoordinator.mutationActive = false := by
  obtain ⟨issued, hstep⟩ := id h
  cases event with
  | request reason =>
    obtain rfl := congrArg Prod.fst (Option.some.inj hstep)
    exact .inl ⟨rfl, by simp⟩
  | fire index =>
    simp only [step] at hstep
    cases hreason : s.scheduled[index]? with
    | none => simp [hreason] at hstep
    | some reason =>
      simp only [hreason] at hstep
      obtain rfl := congrArg Prod.fst (Option.some.inj hstep)
      exact .inl ⟨rfl, by simp⟩
  | completeRefresh generation attached =>
    obtain rfl := congrArg Prod.fst (Option.some.inj hstep)
    exact .inl ⟨by simp, by simp⟩
  | mutate =>
    obtain rfl := congrArg Prod.fst (Option.some.inj hstep)
    exact .inr (.inl ⟨rfl, rfl⟩)
  | finishMutation worker changed =>
    exact .inr (.inr ⟨worker, changed, rfl, finishMutation_step h⟩)

/-- A generation is issued only when no flag is set. -/
theorem step_issues {s s' : ListTopics} {event : TopicsEvent} {generation : ℕ}
    (h : s.step event = some (s', some generation)) :
    s.refreshCoordinator.active = false ∧ s.refreshCoordinator.mutationActive = false := by
  cases event with
  | request reason =>
    exact RefreshCoordinator.request_issues _ (congrArg Prod.snd (Option.some.inj h))
  | fire index =>
    simp only [step] at h
    cases hreason : s.scheduled[index]? with
    | none => simp [hreason] at h
    | some reason =>
      simp only [hreason] at h
      exact RefreshCoordinator.request_issues _ (congrArg Prod.snd (Option.some.inj h))
  | completeRefresh completed attached =>
    cases congrArg Prod.snd (Option.some.inj h)
  | mutate => cases congrArg Prod.snd (Option.some.inj h)
  | finishMutation worker changed =>
    simp only [step] at h
    split_ifs at h
    cases congrArg Prod.snd (Option.some.inj h)

/-- The flag is set while a mutation is in progress. -/
def Guarded (s : ListTopics) : Prop :=
  s.mutations ≠ [] → s.refreshCoordinator.mutationActive = true

theorem guarded_step {s s' : ListTopics} {event : TopicsEvent} (hguarded : s.Guarded)
    (hstep : s.Step event s') (halone : s.EndsAlone event) : s'.Guarded := by
  intro hprogress
  rcases step_mutations hstep with
    ⟨hmutations, hflag⟩ | ⟨-, hflag⟩ | ⟨worker, changed, rfl, hmutations, -⟩
  · rw [hflag]
    exact hguarded (hmutations ▸ hprogress)
  · exact hflag
  · refine absurd ?_ hprogress
    rw [hmutations, List.filter_eq_nil_iff]
    intro w hw
    simp [halone w hw]

/-- The run of a topic list from its start. -/
abbrev TopicsRun (step : ListTopics → TopicsEvent → ListTopics → Prop) :=
  Run step ({} : ListTopics)

/-- As long as no mutation ends while another one is in progress, a generation is issued
only when no mutation is in progress. -/
theorem refresh_waits_for_mutations {events : List TopicsEvent} {s s' : ListTopics}
    {event : TopicsEvent} {generation : ℕ}
    (hrun : TopicsRun (fun s event s' => s.Step event s' ∧ s.EndsAlone event) events s)
    (hissue : s.step event = some (s', some generation)) : s.mutations = [] := by
  have hguarded : s.Guarded :=
    hrun.invariant (fun _ _ _ hs hstep => guarded_step hs hstep.1 hstep.2) fun h => absurd rfl h
  by_contra hprogress
  have hflag := hguarded hprogress
  rw [(step_issues hissue).2] at hflag
  cases hflag

/-- The refresh after a mutation is issued once the mutation is over. -/
theorem refresh_after_mutation :
    ∃ s s', TopicsRun (fun s event s' => s.Step event s' ∧ s.EndsAlone event)
        [.mutate, .finishMutation 0 true] s ∧
      s.step (.fire 0) = some (s', some 1) ∧ s.mutations = [] := by
  have hrun : TopicsRun (fun s event s' => s.Step event s' ∧ s.EndsAlone event)
      [.mutate, .finishMutation 0 true] ⟨⟨0, false, false, false⟩, [], 1, [.mutation]⟩ :=
    .snoc (.snoc .nil ⟨⟨none, rfl⟩, trivial⟩) ⟨⟨none, rfl⟩, by simp [EndsAlone, startMutation]⟩
  have hissue : step ⟨⟨0, false, false, false⟩, [], 1, [.mutation]⟩ (.fire 0) =
      some (⟨⟨1, true, false, false⟩, [], 1, []⟩, some 1) := rfl
  exact ⟨_, _, hrun, hissue, refresh_waits_for_mutations hrun hissue⟩

/-- A mutation that ends in the middle of another one lets a refresh through. -/
theorem refresh_during_mutation :
    ∃ s s', TopicsRun Step [.mutate, .mutate, .finishMutation 0 false] s ∧
      s.step (.request .manual) = some (s', some 1) ∧ s.mutations = [⟨1, false⟩] :=
  ⟨⟨⟨0, false, false, false⟩, [⟨1, false⟩], 2, []⟩, _,
    .snoc (.snoc (.snoc .nil ⟨none, rfl⟩) ⟨none, rfl⟩) ⟨none, rfl⟩, rfl, rfl⟩

/-- Whenever a mutation ends while another one is in progress, a refresh can be issued while
it still is. -/
theorem overlapping_end_unguards {s s' : ListTopics} {worker : ℕ} {changed : Bool}
    (hstep : s.Step (.finishMutation worker changed) s')
    (hoverlap : ¬ s.EndsAlone (.finishMutation worker changed)) :
    ∃ events t, Run Step s' events t ∧
      (t.requestRefresh .manual).2 = some (t.refreshCoordinator.generation + 1) ∧
      t.mutations ≠ [] := by
  obtain ⟨w, hw, hother⟩ : ∃ w ∈ s.mutations, w.id ≠ worker := by
    simpa [EndsAlone] using hoverlap
  obtain ⟨hmutations, hflag⟩ := finishMutation_step hstep
  have hprogress : s'.mutations ≠ [] := by
    rw [hmutations]
    exact List.ne_nil_of_mem (List.mem_filter.mpr ⟨hw, by simpa using hother⟩)
  by_cases hactive : s'.refreshCoordinator.active = true
  · -- the current refresh completes first
    let generation := s'.refreshCoordinator.generation
    have hcomplete : Run Step s' [.completeRefresh generation false]
        (s'.completeRefresh generation false) := .snoc .nil ⟨none, rfl⟩
    refine ⟨_, _, hcomplete, ?_, by simpa using hprogress⟩
    refine RefreshCoordinator.request_idle _ _ ?_ (by simpa using hflag)
    simp [completeRefresh, RefreshCoordinator.complete, RefreshCoordinator.isCurrent, hactive,
      generation]
  · refine ⟨[], s', .nil, ?_, hprogress⟩
    exact RefreshCoordinator.request_idle _ _ (by simpa using hactive) hflag

end ListTopics

end Kaskade
