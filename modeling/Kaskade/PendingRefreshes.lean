import Kaskade.RefreshCoordination

/-!
# Pending refreshes

A refused request of the topic list is owed a refresh. The debt is carried by the pending flag,
by a callback after the next repaint or by a timer, and passes between them: a completed refresh
and an unchanged mutation schedule what is pending, a changed mutation schedules a refresh of its
own, and a scheduled request that is refused in turn sets the flag again.
-/

namespace Kaskade

namespace ListTopics

def requested (s : ListTopics) : TopicsEvent → Option RefreshReason
  | .request reason => some reason
  | .fire index => s.scheduled[index]?
  | _ => none

/-- Whether a refresh is owed after an event: one that issues a generation settles the debt, and
a request other than a periodic one that is refused makes one. -/
def owedAfter (s : ListTopics) (event : TopicsEvent) (owed : Bool) (issued : Option ℕ) : Bool :=
  match issued with
  | some _ => false
  | none => owed || (s.requested event).any (· ≠ .periodic)

def owingStep : ListTopics × Bool → TopicsEvent → Option (ListTopics × Bool)
  | _, .completeRefresh _ false => none
  | (s, owed), event =>
    (s.step event).map fun (t, issued) => (t, s.owedAfter event owed issued)

/-- What is scheduled makes a request, and what is pending will be scheduled. -/
structure HandsOver (s : ListTopics) (owed : Bool) : Prop where
  scheduled : ∀ reason ∈ s.scheduled, reason = .pending ∨ reason = .mutation
  carried : owed = true → s.refreshCoordinator.pending = true ∨ s.scheduled ≠ []
  awaited : s.refreshCoordinator.pending = true →
    s.refreshCoordinator.active = true ∨ s.refreshCoordinator.mutationActive = true ∨
      s.scheduled ≠ []
  mutating : s.refreshCoordinator.mutationActive = true → s.mutations ≠ []

variable {s : ListTopics} {owed : Bool}

/-- A request starts a refresh when neither a refresh nor a change is going on. -/
theorem requestRefresh_idle
    (hidle : ¬ (s.refreshCoordinator.active || s.refreshCoordinator.mutationActive))
    (reason : RefreshReason) :
    s.requestRefresh reason =
      ({ s with refreshCoordinator := { s.refreshCoordinator with
          generation := s.refreshCoordinator.generation + 1, active := true } },
        some (s.refreshCoordinator.generation + 1)) := by
  simp [requestRefresh, RefreshCoordinator.request, hidle]

/-- A request carries the debt on, or settles it, whatever carried it before. -/
theorem handsOver_request {reason : RefreshReason} (hreason : reason ≠ .periodic)
    (hscheduled : ∀ reason ∈ s.scheduled, reason = .pending ∨ reason = .mutation)
    (hmutating : s.refreshCoordinator.mutationActive = true → s.mutations ≠ []) :
    HandsOver (s.requestRefresh reason).1 (s.requestRefresh reason).2.isNone := by
  by_cases hbusy : s.refreshCoordinator.active || s.refreshCoordinator.mutationActive
  · have hrequest : s.requestRefresh reason =
        ({ s with refreshCoordinator := { s.refreshCoordinator with pending := true } }, none) := by
      simp [requestRefresh, RefreshCoordinator.request, hbusy, hreason]
    rw [hrequest]
    constructor
    · exact hscheduled
    · exact fun _ => .inl rfl
    · exact fun _ => (Bool.or_eq_true _ _ ▸ hbusy).imp_right .inl
    · exact hmutating
  · rw [requestRefresh_idle hbusy]
    constructor
    · exact hscheduled
    · simp
    · exact fun _ => .inl rfl
    · exact hmutating

theorem handsOver_periodic (h : HandsOver s owed) :
    HandsOver (s.requestRefresh .periodic).1 (owed && (s.requestRefresh .periodic).2.isNone) := by
  by_cases hbusy : s.refreshCoordinator.active || s.refreshCoordinator.mutationActive
  · have hrequest : s.requestRefresh .periodic = (s, none) := by
      simp [requestRefresh, RefreshCoordinator.request, hbusy]
    simpa [hrequest] using h
  · rw [requestRefresh_idle hbusy]
    constructor
    · exact h.scheduled
    · simp
    · exact fun _ => .inl rfl
    · exact h.mutating

theorem handsOver_schedulePending
    (hscheduled : ∀ reason ∈ s.scheduled, reason = .pending ∨ reason = .mutation)
    (hcarried : owed = true → s.refreshCoordinator.pending = true ∨ s.scheduled ≠ [])
    (hmutating : s.refreshCoordinator.mutationActive = true → s.mutations ≠ []) :
    HandsOver s.schedulePending owed := by
  by_cases hkept : !s.refreshCoordinator.pending || s.refreshCoordinator.active ||
      s.refreshCoordinator.mutationActive
  · have hsame : s.schedulePending = s := by
      simp [schedulePending, RefreshCoordinator.takePending, hkept]
    rw [hsame]
    refine ⟨hscheduled, hcarried, fun hpending => ?_, hmutating⟩
    rw [hpending, Bool.not_true, Bool.false_or, Bool.or_eq_true] at hkept
    exact hkept.imp_right .inl
  · have htaken : s.schedulePending =
        { s with
          refreshCoordinator := { s.refreshCoordinator with pending := false }
          scheduled := s.scheduled ++ [.pending] } := by
      simp [schedulePending, RefreshCoordinator.takePending, hkept]
    have hnonempty : s.scheduled ++ [.pending] ≠ [] := by simp
    rw [htaken]
    constructor
    · intro reason hreason
      rcases List.mem_append.mp hreason with hold | hnew
      · exact hscheduled reason hold
      · exact .inl (List.mem_singleton.mp hnew)
    · exact fun _ => .inr hnonempty
    · exact fun _ => .inr (.inr hnonempty)
    · exact hmutating

theorem handsOver_completeRefresh (h : HandsOver s owed) (generation : ℕ) :
    HandsOver (s.completeRefresh generation true) owed := by
  by_cases hcurrent : s.refreshCoordinator.isCurrent generation
  · have hcomplete : s.completeRefresh generation true =
        { s with refreshCoordinator := { s.refreshCoordinator with active := false } }.schedulePending := by
      simp [completeRefresh, RefreshCoordinator.complete, hcurrent]
    rw [hcomplete]
    apply handsOver_schedulePending
    · exact h.scheduled
    · exact h.carried
    · exact h.mutating
  · have hcomplete : s.completeRefresh generation true = s := by
      simp [completeRefresh, RefreshCoordinator.complete, hcurrent]
    rwa [hcomplete]

theorem handsOver_startMutation (h : HandsOver s owed) : HandsOver s.startMutation owed := by
  constructor
  · exact h.scheduled
  · exact h.carried
  · exact fun _ => .inr (.inl rfl)
  · exact fun _ => List.cons_ne_nil _ _

theorem handsOver_finishMutation (h : HandsOver s owed) (mutations : List MutationWorker)
    (changed : Bool) : HandsOver ({ s with mutations := mutations }.finishMutation changed) owed := by
  cases changed with
  | true =>
    have hnonempty : s.scheduled ++ [.mutation] ≠ [] := by simp
    constructor
    · intro reason hreason
      rcases List.mem_append.mp hreason with hold | hnew
      · exact h.scheduled reason hold
      · exact .inr (List.mem_singleton.mp hnew)
    · exact fun _ => .inr hnonempty
    · exact fun _ => .inr (.inr hnonempty)
    · exact nofun
  | false =>
    apply handsOver_schedulePending
    · exact h.scheduled
    · exact h.carried
    · exact nofun

theorem owedAfter_request {event : TopicsEvent} {reason : RefreshReason}
    (h : s.requested event = some reason) (hreason : reason ≠ .periodic) (issued : Option ℕ) :
    s.owedAfter event owed issued = issued.isNone := by
  cases issued <;> simp [owedAfter, h, hreason]

theorem handsOver_step {t : ListTopics} {owed' : Bool} {event : TopicsEvent} (h : HandsOver s owed)
    (hstep : owingStep (s, owed) event = some (t, owed')) : HandsOver t owed' := by
  cases event with
  | request reason =>
    obtain ⟨rfl, rfl⟩ := Prod.mk.inj (Option.some.inj hstep)
    by_cases hreason : reason = .periodic
    · subst hreason
      have howed : s.owedAfter (.request .periodic) owed (s.requestRefresh .periodic).2 =
          (owed && (s.requestRefresh .periodic).2.isNone) := by
        cases (s.requestRefresh .periodic).2 <;> simp [owedAfter, requested]
      exact howed ▸ handsOver_periodic h
    · rw [owedAfter_request rfl hreason]
      exact handsOver_request hreason h.scheduled h.mutating
  | fire index =>
    simp only [owingStep, step] at hstep
    cases hfired : s.scheduled[index]? with
    | none => simp [hfired] at hstep
    | some reason =>
      simp only [hfired, Option.map_some, Option.some.injEq, Prod.mk.injEq] at hstep
      obtain ⟨rfl, rfl⟩ := hstep
      have hreason : reason ≠ .periodic := by
        rcases h.scheduled reason (List.mem_of_getElem? hfired) with rfl | rfl <;> decide
      have hrequested : s.requested (.fire index) = some reason := hfired
      rw [owedAfter_request hrequested hreason]
      apply handsOver_request hreason
      · exact fun r hr => h.scheduled r (List.mem_of_mem_eraseIdx hr)
      · exact h.mutating
  | completeRefresh generation attached =>
    cases attached with
    | false => cases hstep
    | true =>
      obtain ⟨rfl, rfl⟩ := Prod.mk.inj (Option.some.inj hstep)
      simpa [owedAfter, requested] using handsOver_completeRefresh h generation
  | mutate =>
    obtain ⟨rfl, rfl⟩ := Prod.mk.inj (Option.some.inj hstep)
    simpa [owedAfter, requested] using handsOver_startMutation h
  | finishMutation worker changed =>
    simp only [owingStep, step] at hstep
    split_ifs at hstep
    · obtain ⟨rfl, rfl⟩ := Prod.mk.inj (Option.some.inj hstep)
      simpa [owedAfter, requested] using handsOver_finishMutation h _ changed
    · cases hstep

/-- A run of an attached topic list, and whether a refresh is owed at its end. -/
abbrev OwingRun :=
  Run (fun s event t => owingStep s event = some t) (({}, false) : ListTopics × Bool)

/-- After every run, an owed refresh is pending or scheduled; where no refresh and no mutation is
in progress and nothing is scheduled, none is owed. Mutations may even overlap. -/
theorem owed_refresh_handed_over {events : List TopicsEvent} {s : ListTopics} {owed : Bool}
    (hrun : OwingRun events (s, owed)) :
    (owed = true → s.refreshCoordinator.pending = true ∨
      ∃ reason ∈ s.scheduled, reason = .pending ∨ reason = .mutation) ∧
    (s.refreshCoordinator.active = false → s.mutations = [] → s.scheduled = [] → owed = false) := by
  have h : HandsOver s owed := by
    apply hrun.invariant (I := fun s => HandsOver s.1 s.2)
    · exact fun _ _ _ hs hstep => handsOver_step hs hstep
    · constructor <;> simp
  constructor
  · intro howed
    refine (h.carried howed).imp_right fun hscheduled => ?_
    obtain ⟨reason, hreason⟩ := List.exists_mem_of_ne_nil _ hscheduled
    exact ⟨reason, hreason, h.scheduled reason hreason⟩
  · intro hactive hmutations hscheduled
    by_contra howed
    rw [Bool.not_eq_false] at howed
    have hpending := (h.carried howed).resolve_right (· hscheduled)
    rcases h.awaited hpending with hrefresh | hmutation | hnonempty
    · simp [hactive] at hrefresh
    · exact h.mutating hmutation hmutations
    · exact hnonempty hscheduled

/-- The request of a resumed screen is refused twice, the second time as a timer fires during a
refresh, and is still pending. -/
theorem resume_handed_over :
    ∃ s, OwingRun [.request .initial, .mutate, .request .resume, .finishMutation 0 true, .fire 0]
        (s, true) ∧ s.scheduled = [] ∧
      (s.refreshCoordinator.pending = true ∨
        ∃ reason ∈ s.scheduled, reason = .pending ∨ reason = .mutation) := by
  have hrun : OwingRun [.request .initial, .mutate, .request .resume, .finishMutation 0 true,
      .fire 0] (_, true) := .of_foldlM rfl
  exact ⟨_, hrun, rfl, (owed_refresh_handed_over hrun).1 rfl⟩

end ListTopics

end Kaskade
