import Kaskade.PendingRefreshes

/-!
# Automatic refreshes

`KaskadeAdmin` and its periodic timer: the timer runs only while the topic list is the active
screen, every screen that covers the list pauses it, and the end of a refresh or the return to
the list restarts it. Whatever the order of screens, timers, messages and refreshes, the list
is refreshed again without being asked.
-/

namespace Kaskade

inductive TimerState where
  | paused
  | running
  deriving DecidableEq

/-- The part of `KaskadeAdmin` that refreshes the topic list on its own. Timers and messages that
have been posted and not been handled are counted. -/
structure KaskadeAdmin where
  autoRefreshInterval : ℕ
  periodicRefreshTimer : Option TimerState := none
  /-- The length of `screen_stack`, the topic list included. -/
  screens : ℕ := 1
  /-- `resume-admin-auto-refresh` timers. -/
  resumeTimers : ℕ := 0
  /-- Calls of the periodic timer that wait in the message queue. -/
  periodicCalls : ℕ := 0
  /-- `RefreshCompleted` messages. -/
  refreshCompleted : ℕ := 0
  attached : Bool := true
  topics : ListTopics := {}
  /-- The generations whose `refresh_topics` workers have not finished. -/
  refreshWorkers : List ℕ := []

inductive AdminEvent where
  | pushScreen
  | popScreen
  /-- The periodic timer fires and posts its callback. -/
  | elapse
  | requestPeriodicRefresh
  | resumeAutoRefresh
  | onRefreshCompleted
  | topics (event : TopicsEvent)
  /-- The topic list is removed. -/
  | detach

namespace KaskadeAdmin

variable (s : KaskadeAdmin)

def onRootScreen : Bool := s.screens == 1

def aboveRootScreen : Bool := s.screens == 2

def pauseAutoRefresh : KaskadeAdmin :=
  { s with periodicRefreshTimer := s.periodicRefreshTimer.map fun _ => .paused }

def restartAutoRefresh : KaskadeAdmin :=
  { s with periodicRefreshTimer := s.periodicRefreshTimer.map fun _ => .running }

/-- `request_refresh`, which starts a worker for the generation that it is given. -/
def requestRefresh (reason : RefreshReason) : KaskadeAdmin :=
  let (topics, generation) := s.topics.requestRefresh reason
  { s with topics, refreshWorkers := generation.toList ++ s.refreshWorkers }

/-- The app after `on_mount`. -/
def onMount (interval : ℕ) : KaskadeAdmin :=
  let app : KaskadeAdmin :=
    { autoRefreshInterval := interval
      periodicRefreshTimer := if interval ≠ 0 then some .paused else none }
  app.requestRefresh .initial

def pushScreen : KaskadeAdmin :=
  let app := s.pauseAutoRefresh
  { app with screens := app.screens + 1 }

/-- `pop_screen`, which refuses to remove the last screen. -/
def popScreen : Option KaskadeAdmin :=
  if s.screens ≤ 1 then none
  else some
    { s with
      screens := s.screens - 1
      resumeTimers := if s.aboveRootScreen then s.resumeTimers + 1 else s.resumeTimers }

def resumeAutoRefresh : KaskadeAdmin :=
  if s.autoRefreshInterval = 0 || !s.onRootScreen then s
  else s.restartAutoRefresh.requestRefresh .resume

def requestPeriodicRefresh : KaskadeAdmin :=
  if s.onRootScreen then s.requestRefresh .periodic else s

def onRefreshCompleted : KaskadeAdmin :=
  if s.onRootScreen then s.restartAutoRefresh else s

/-- The end of a `refresh_topics` worker, which posts `RefreshCompleted` if its generation was
the current one and the list is still there. -/
def completeRefresh (generation : ℕ) : KaskadeAdmin :=
  let completed := (s.topics.refreshCoordinator.complete generation).2
  { s with
    topics := s.topics.completeRefresh generation s.attached
    refreshWorkers := s.refreshWorkers.erase generation
    refreshCompleted :=
      if completed && s.attached then s.refreshCompleted + 1 else s.refreshCompleted }

def topicsEvent : TopicsEvent → Option KaskadeAdmin
  | .completeRefresh generation attached =>
    if generation ∈ s.refreshWorkers ∧ attached = s.attached then some (s.completeRefresh generation)
    else none
  | event =>
    (s.topics.step event).map fun (topics, generation) =>
      { s with topics, refreshWorkers := generation.toList ++ s.refreshWorkers }

def step : AdminEvent → Option KaskadeAdmin
  | .pushScreen => some s.pushScreen
  | .popScreen => s.popScreen
  | .elapse =>
    if s.periodicRefreshTimer = some .running then
      some { s with periodicCalls := s.periodicCalls + 1 }
    else none
  | .requestPeriodicRefresh =>
    if s.periodicCalls = 0 then none
    else some { s with periodicCalls := s.periodicCalls - 1 }.requestPeriodicRefresh
  | .resumeAutoRefresh =>
    if s.resumeTimers = 0 then none
    else some { s with resumeTimers := s.resumeTimers - 1 }.resumeAutoRefresh
  | .onRefreshCompleted =>
    if s.refreshCompleted = 0 then none
    else some { s with refreshCompleted := s.refreshCompleted - 1 }.onRefreshCompleted
  | .topics event => s.topicsEvent event
  | .detach => some { s with attached := false }

end KaskadeAdmin

namespace ListTopics

variable {s t : ListTopics} {event : TopicsEvent} {issued : Option ℕ}

theorem requestRefresh_issues (reason : RefreshReason) :
    ((s.requestRefresh reason).2 = none ∧
        (s.requestRefresh reason).1.refreshCoordinator.active = s.refreshCoordinator.active ∧
        (s.requestRefresh reason).1.refreshCoordinator.generation =
          s.refreshCoordinator.generation) ∨
      ((s.requestRefresh reason).2 =
          some (s.requestRefresh reason).1.refreshCoordinator.generation ∧
        (s.requestRefresh reason).1.refreshCoordinator.active = true) := by
  by_cases hbusy : s.refreshCoordinator.active || s.refreshCoordinator.mutationActive
  · left
    by_cases hreason : reason = .periodic
    · simp [requestRefresh, RefreshCoordinator.request, hbusy, hreason]
    · simp [requestRefresh, RefreshCoordinator.request, hbusy, hreason]
  · right
    simp [requestRefresh_idle hbusy]

theorem schedulePending_active (s : ListTopics) :
    s.schedulePending.refreshCoordinator.active = s.refreshCoordinator.active ∧
      s.schedulePending.refreshCoordinator.generation = s.refreshCoordinator.generation := by
  simp only [schedulePending, RefreshCoordinator.takePending]
  split_ifs <;> simp

theorem finishMutation_active (s : ListTopics) (changed : Bool) :
    (s.finishMutation changed).refreshCoordinator.active = s.refreshCoordinator.active ∧
      (s.finishMutation changed).refreshCoordinator.generation =
        s.refreshCoordinator.generation := by
  cases changed with
  | true => exact ⟨rfl, rfl⟩
  | false => exact schedulePending_active _

/-- An event other than the end of a refresh issues the generation that becomes active, or leaves
the active one as it is. -/
theorem step_active (hstep : s.step event = some (t, issued))
    (hevent : ∀ generation attached, event ≠ .completeRefresh generation attached) :
    (issued = none ∧ t.refreshCoordinator.active = s.refreshCoordinator.active ∧
        t.refreshCoordinator.generation = s.refreshCoordinator.generation) ∨
      (issued = some t.refreshCoordinator.generation ∧ t.refreshCoordinator.active = true) := by
  cases event with
  | request reason =>
    obtain ⟨rfl, rfl⟩ := Prod.mk.inj (Option.some.inj hstep)
    exact requestRefresh_issues reason
  | fire index =>
    simp only [step] at hstep
    cases hreason : s.scheduled[index]? with
    | none => simp [hreason] at hstep
    | some reason =>
      simp only [hreason] at hstep
      obtain ⟨rfl, rfl⟩ := Prod.mk.inj (Option.some.inj hstep)
      exact requestRefresh_issues (s := { s with scheduled := s.scheduled.eraseIdx index }) reason
  | completeRefresh generation attached => exact absurd rfl (hevent generation attached)
  | mutate =>
    obtain ⟨rfl, rfl⟩ := Prod.mk.inj (Option.some.inj hstep)
    exact .inl ⟨rfl, rfl, rfl⟩
  | finishMutation worker changed =>
    simp only [step] at hstep
    split_ifs at hstep
    obtain ⟨rfl, rfl⟩ := Prod.mk.inj (Option.some.inj hstep)
    exact .inl ⟨rfl, finishMutation_active _ changed⟩

/-- The flag of the mutations is set only while one is in progress. -/
theorem mutating_step (hstep : s.step event = some (t, issued))
    (h : s.refreshCoordinator.mutationActive = true → s.mutations ≠ []) :
    t.refreshCoordinator.mutationActive = true → t.mutations ≠ [] := by
  intro hflag
  have hlabelled : s.Step event t := ⟨issued, hstep⟩
  obtain ⟨hmutations, hsame⟩ | ⟨rfl, -⟩ | ⟨worker, changed, rfl, -, hcleared⟩ :=
    step_mutations hlabelled
  · rw [hmutations]
    exact h (hsame ▸ hflag)
  · obtain ⟨rfl, -⟩ := Prod.mk.inj (Option.some.inj hstep)
    exact List.cons_ne_nil _ _
  · rw [hcleared] at hflag
    cases hflag

theorem completeRefresh_current {generation : ℕ}
    (hcurrent : s.refreshCoordinator.isCurrent generation = true) (attached : Bool) :
    (s.completeRefresh generation attached).refreshCoordinator.active = false ∧
      (s.completeRefresh generation attached).refreshCoordinator.generation =
        s.refreshCoordinator.generation := by
  have hcomplete : s.refreshCoordinator.complete generation =
      ({ s.refreshCoordinator with active := false }, true) := by
    simp [RefreshCoordinator.complete, hcurrent]
  cases attached with
  | false => simp [completeRefresh, hcomplete]
  | true =>
    simp only [completeRefresh, hcomplete]
    exact schedulePending_active _

theorem completeRefresh_stale {generation : ℕ}
    (hstale : s.refreshCoordinator.isCurrent generation = false) (attached : Bool) :
    s.completeRefresh generation attached = s := by
  simp [completeRefresh, RefreshCoordinator.complete, hstale]

end ListTopics

namespace KaskadeAdmin

variable {s t : KaskadeAdmin}

/-- The timer runs only over the topic list, and something will restart it whenever the list is
the active screen and it does not run. -/
structure Refreshing (s : KaskadeAdmin) : Prop where
  screens_pos : 1 ≤ s.screens
  timer : s.periodicRefreshTimer.isSome = true ↔ s.autoRefreshInterval ≠ 0
  root : s.periodicRefreshTimer = some .running → s.screens = 1
  awake : s.attached = true → s.autoRefreshInterval ≠ 0 → s.screens = 1 →
    s.periodicRefreshTimer = some .running ∨ 0 < s.resumeTimers ∨
      s.topics.refreshCoordinator.active = true ∨ 0 < s.refreshCompleted
  worked : s.topics.refreshCoordinator.active = true →
    s.topics.refreshCoordinator.generation ∈ s.refreshWorkers
  mutating : s.topics.refreshCoordinator.mutationActive = true → s.topics.mutations ≠ []

theorem refreshing_request (h : Refreshing s) (reason : RefreshReason) :
    Refreshing (s.requestRefresh reason) := by
  have hflag := ListTopics.requestRefresh_mutationActive s.topics reason
  obtain ⟨hissued, hactive, hgeneration⟩ | ⟨hissued, hactive⟩ :=
    ListTopics.requestRefresh_issues (s := s.topics) reason
  · constructor
    · exact h.screens_pos
    · exact h.timer
    · exact h.root
    · intro hattached hinterval hroot
      simpa only [requestRefresh, hactive] using h.awake hattached hinterval hroot
    · simpa [requestRefresh, hissued, hactive, hgeneration] using h.worked
    · simpa only [requestRefresh, hflag, ListTopics.requestRefresh_mutations] using h.mutating
  · constructor
    · exact h.screens_pos
    · exact h.timer
    · exact h.root
    · exact fun _ _ _ => .inr (.inr (.inl hactive))
    · intro _
      simp [requestRefresh, hissued]
    · simpa only [requestRefresh, hflag, ListTopics.requestRefresh_mutations] using h.mutating

/-- Over the topic list, a restart needs nothing else to wake the refreshes. -/
theorem refreshing_restart (h : Refreshing s) (hroot : s.screens = 1) (resumes completed : ℕ) :
    Refreshing
      { s with resumeTimers := resumes, refreshCompleted := completed }.restartAutoRefresh := by
  constructor
  · exact h.screens_pos
  · simpa [restartAutoRefresh] using h.timer
  · exact fun _ => hroot
  · intro _ hinterval _
    left
    obtain ⟨timer, htimer⟩ := Option.isSome_iff_exists.mp (h.timer.mpr hinterval)
    simp [restartAutoRefresh, htimer]
  · exact h.worked
  · exact h.mutating

/-- Elsewhere, and without an interval, nothing has to wake them. -/
theorem refreshing_away (h : Refreshing s)
    (haway : s.screens = 1 → s.autoRefreshInterval = 0) (resumes completed : ℕ) :
    Refreshing { s with resumeTimers := resumes, refreshCompleted := completed } := by
  constructor
  · exact h.screens_pos
  · exact h.timer
  · exact h.root
  · exact fun _ hinterval hroot => absurd (haway hroot) hinterval
  · exact h.worked
  · exact h.mutating

theorem refreshing_pushScreen (h : Refreshing s) : Refreshing s.pushScreen := by
  have hpos := h.screens_pos
  constructor
  · exact Nat.le_add_left 1 _
  · simpa [pushScreen, pauseAutoRefresh] using h.timer
  · intro hrunning
    cases htimer : s.periodicRefreshTimer <;> simp [pushScreen, pauseAutoRefresh, htimer] at hrunning
  · intro _ _ hroot
    simp only [pushScreen, pauseAutoRefresh] at hroot
    omega
  · exact h.worked
  · exact h.mutating

theorem refreshing_popScreen (h : Refreshing s) (hpop : s.popScreen = some t) : Refreshing t := by
  have hpos := h.screens_pos
  simp only [popScreen] at hpop
  split_ifs at hpop with hlast habove
  all_goals obtain rfl := Option.some.inj hpop
  · constructor
    · exact (by omega : 1 ≤ s.screens - 1)
    · exact h.timer
    · intro hrunning
      have hroot := h.root hrunning
      omega
    · exact fun _ _ _ => .inr (.inl (Nat.succ_pos _))
    · exact h.worked
    · exact h.mutating
  · have hhigher : s.screens - 1 ≠ 1 := by
      have hother : s.screens ≠ 2 := by simpa [aboveRootScreen] using habove
      omega
    constructor
    · exact (by omega : 1 ≤ s.screens - 1)
    · exact h.timer
    · intro hrunning
      have hroot := h.root hrunning
      omega
    · exact fun _ _ hroot => absurd hroot hhigher
    · exact h.worked
    · exact h.mutating

theorem refreshing_resume (h : Refreshing s) (resumes : ℕ) :
    Refreshing { s with resumeTimers := resumes }.resumeAutoRefresh := by
  rw [resumeAutoRefresh]
  split_ifs with haway
  · refine refreshing_away h (fun hroot => ?_) resumes s.refreshCompleted
    simpa [onRootScreen, hroot] using haway
  · have hroot : s.screens = 1 := by
      simp only [onRootScreen, Bool.or_eq_true, decide_eq_true_eq, Bool.not_eq_true', not_or,
        Bool.not_eq_false, beq_iff_eq] at haway
      exact haway.2
    exact refreshing_request (refreshing_restart h hroot resumes s.refreshCompleted) .resume

theorem refreshing_refreshCompleted (h : Refreshing s) (completed : ℕ) :
    Refreshing { s with refreshCompleted := completed }.onRefreshCompleted := by
  rw [onRefreshCompleted]
  split_ifs with hroot
  · exact refreshing_restart h (by simpa [onRootScreen] using hroot) s.resumeTimers completed
  · refine refreshing_away h (fun hscreens => ?_) s.resumeTimers completed
    simp [onRootScreen, hscreens] at hroot

/-- The current refresh ends with a message, and others end without a trace. -/
theorem refreshing_completeRefresh (h : Refreshing s) (generation : ℕ) :
    Refreshing (s.completeRefresh generation) := by
  have hmutating : (s.topics.completeRefresh generation s.attached).refreshCoordinator.mutationActive
      = true → (s.topics.completeRefresh generation s.attached).mutations ≠ [] := by
    simpa using h.mutating
  cases hcurrent : s.topics.refreshCoordinator.isCurrent generation with
  | true =>
    obtain ⟨hactive, -⟩ := ListTopics.completeRefresh_current hcurrent s.attached
    have hcompleted : (s.topics.refreshCoordinator.complete generation).2 = true := by
      simp [RefreshCoordinator.complete, hcurrent]
    constructor
    · exact h.screens_pos
    · exact h.timer
    · exact h.root
    · intro hattached _ _
      have hhere : s.attached = true := hattached
      exact .inr (.inr (.inr (by simp [completeRefresh, hcompleted, hhere])))
    · intro hstill
      simp [completeRefresh, hactive] at hstill
    · exact hmutating
  | false =>
    have hsame := ListTopics.completeRefresh_stale hcurrent s.attached
    have hcompleted : (s.topics.refreshCoordinator.complete generation).2 = false := by
      simp [RefreshCoordinator.complete, hcurrent]
    constructor
    · exact h.screens_pos
    · exact h.timer
    · exact h.root
    · intro hattached hinterval hroot
      simpa [completeRefresh, hsame, hcompleted] using h.awake hattached hinterval hroot
    · intro hactive
      have hbefore : s.topics.refreshCoordinator.active = true := by
        simpa only [completeRefresh, hsame] using hactive
      have hother : s.topics.refreshCoordinator.generation ≠ generation := by
        intro heq
        simp [RefreshCoordinator.isCurrent, heq, hbefore] at hcurrent
      rw [completeRefresh, hsame]
      exact (List.mem_erase_of_ne hother).mpr (h.worked hbefore)
    · exact hmutating

theorem refreshing_topicsEvent {event : TopicsEvent} (h : Refreshing s)
    (hstep : s.topicsEvent event = some t) : Refreshing t := by
  by_cases hevent : ∃ generation attached, event = .completeRefresh generation attached
  · obtain ⟨generation, attached, rfl⟩ := hevent
    simp only [topicsEvent] at hstep
    split_ifs at hstep
    obtain rfl := Option.some.inj hstep
    exact refreshing_completeRefresh h generation
  · push Not at hevent
    obtain ⟨topics, issued, htopics, rfl⟩ : ∃ topics issued,
        s.topics.step event = some (topics, issued) ∧
        t = { s with topics, refreshWorkers := issued.toList ++ s.refreshWorkers } := by
      cases event with
      | completeRefresh generation attached => exact absurd rfl (hevent generation attached)
      | _ =>
        simp only [topicsEvent, Option.map_eq_some_iff] at hstep
        obtain ⟨⟨topics, issued⟩, htopics, rfl⟩ := hstep
        exact ⟨topics, issued, htopics, rfl⟩
    have hmutating := ListTopics.mutating_step htopics h.mutating
    obtain ⟨rfl, hactive, hgeneration⟩ | ⟨rfl, hactive⟩ := ListTopics.step_active htopics hevent
    · constructor
      · exact h.screens_pos
      · exact h.timer
      · exact h.root
      · simpa only [hactive] using h.awake
      · simpa [hactive, hgeneration] using h.worked
      · exact hmutating
    · constructor
      · exact h.screens_pos
      · exact h.timer
      · exact h.root
      · exact fun _ _ _ => .inr (.inr (.inl hactive))
      · exact fun _ => List.mem_cons_self
      · exact hmutating

theorem refreshing_step {event : AdminEvent} (h : Refreshing s) (hstep : s.step event = some t) :
    Refreshing t := by
  cases event with
  | pushScreen =>
    obtain rfl := Option.some.inj hstep
    exact refreshing_pushScreen h
  | popScreen => exact refreshing_popScreen h hstep
  | elapse =>
    simp only [step] at hstep
    split_ifs at hstep
    obtain rfl := Option.some.inj hstep
    exact ⟨h.screens_pos, h.timer, h.root, h.awake, h.worked, h.mutating⟩
  | requestPeriodicRefresh =>
    simp only [step] at hstep
    split_ifs at hstep
    obtain rfl := Option.some.inj hstep
    have hcalls : Refreshing { s with periodicCalls := s.periodicCalls - 1 } :=
      ⟨h.screens_pos, h.timer, h.root, h.awake, h.worked, h.mutating⟩
    rw [KaskadeAdmin.requestPeriodicRefresh]
    split_ifs
    · exact refreshing_request hcalls .periodic
    · exact hcalls
  | resumeAutoRefresh =>
    simp only [step] at hstep
    split_ifs at hstep
    obtain rfl := Option.some.inj hstep
    exact refreshing_resume h _
  | onRefreshCompleted =>
    simp only [step] at hstep
    split_ifs at hstep
    obtain rfl := Option.some.inj hstep
    exact refreshing_refreshCompleted h _
  | topics event => exact refreshing_topicsEvent h hstep
  | detach =>
    obtain rfl := Option.some.inj hstep
    refine ⟨h.screens_pos, h.timer, h.root, fun hattached => ?_, h.worked, h.mutating⟩
    cases hattached

theorem refreshing_onMount (interval : ℕ) : Refreshing (onMount interval) := by
  constructor
  · exact Nat.le_refl 1
  · by_cases hinterval : interval = 0 <;> simp [onMount, requestRefresh, hinterval]
  · by_cases hinterval : interval = 0 <;> simp [onMount, requestRefresh, hinterval]
  · exact fun _ _ _ => .inr (.inr (.inl rfl))
  · exact fun _ => List.mem_cons_self
  · intro hflag
    cases hflag

theorem step_interval {event : AdminEvent} (hstep : s.step event = some t) :
    t.autoRefreshInterval = s.autoRefreshInterval := by
  cases event with
  | popScreen =>
    simp only [step, popScreen] at hstep
    split_ifs at hstep <;> (obtain rfl := Option.some.inj hstep; rfl)
  | requestPeriodicRefresh =>
    simp only [step, requestPeriodicRefresh] at hstep
    split_ifs at hstep <;> (obtain rfl := Option.some.inj hstep; rfl)
  | resumeAutoRefresh =>
    simp only [step, resumeAutoRefresh] at hstep
    split_ifs at hstep <;> (obtain rfl := Option.some.inj hstep; rfl)
  | onRefreshCompleted =>
    simp only [step, onRefreshCompleted] at hstep
    split_ifs at hstep <;> (obtain rfl := Option.some.inj hstep; rfl)
  | topics event =>
    cases event with
    | completeRefresh generation attached =>
      simp only [step, topicsEvent] at hstep
      split_ifs at hstep
      obtain rfl := Option.some.inj hstep
      rfl
    | _ =>
      simp only [step, topicsEvent, Option.map_eq_some_iff] at hstep
      obtain ⟨_, -, rfl⟩ := hstep
      rfl
  | elapse =>
    simp only [step] at hstep
    split_ifs at hstep
    obtain rfl := Option.some.inj hstep
    rfl
  | _ =>
    obtain rfl := Option.some.inj hstep
    rfl

/-- A run of the app from the moment it is mounted. -/
abbrev AdminRun (interval : ℕ) :=
  Run (fun s event t => KaskadeAdmin.step s event = some t) (onMount interval)

theorem AdminRun.refreshing {interval : ℕ} {events : List AdminEvent}
    (hrun : AdminRun interval events s) : Refreshing s ∧ s.autoRefreshInterval = interval := by
  apply hrun.invariant (I := fun s => Refreshing s ∧ s.autoRefreshInterval = interval)
  · exact fun _ _ _ hs hstep => ⟨refreshing_step hs.1 hstep, (step_interval hstep).trans hs.2⟩
  · exact ⟨refreshing_onMount interval, rfl⟩

/-- After every run, the periodic timer runs only while the topic list is the active screen; and
while the list is the active screen, the timer runs, or a resume timer, a refresh or the message of
a finished refresh is on its way to restart it. -/
theorem periodic_timer_follows_list {interval : ℕ} {events : List AdminEvent}
    (hrun : AdminRun interval events s) :
    (s.periodicRefreshTimer = some .running → interval ≠ 0 ∧ s.screens = 1) ∧
      (s.attached = true → interval ≠ 0 → s.screens = 1 →
        s.periodicRefreshTimer = some .running ∨ 0 < s.resumeTimers ∨
          (s.topics.refreshCoordinator.active = true ∧
            s.topics.refreshCoordinator.generation ∈ s.refreshWorkers) ∨
          0 < s.refreshCompleted) := by
  obtain ⟨h, rfl⟩ := hrun.refreshing
  constructor
  · intro hrunning
    exact ⟨h.timer.mp (by simp [hrunning]), h.root hrunning⟩
  · intro hattached hinterval hroot
    obtain hrunning | hresume | hactive | hcompleted := h.awake hattached hinterval hroot
    · exact .inl hrunning
    · exact .inr (.inl hresume)
    · exact .inr (.inr (.inl ⟨hactive, h.worked hactive⟩))
    · exact .inr (.inr (.inr hcompleted))

/-- The timer stops behind a screen that is opened during the first refresh, whose message comes
too late to start it, and the return to the list leaves a resume timer. -/
theorem periodic_timer_after_screen :
    ∃ s, AdminRun 5 [.pushScreen, .topics (.completeRefresh 1 true), .onRefreshCompleted, .popScreen]
        s ∧ s.periodicRefreshTimer = some .paused ∧
      (s.attached = true → 5 ≠ 0 → s.screens = 1 →
        s.periodicRefreshTimer = some .running ∨ 0 < s.resumeTimers ∨
          (s.topics.refreshCoordinator.active = true ∧
            s.topics.refreshCoordinator.generation ∈ s.refreshWorkers) ∨
          0 < s.refreshCompleted) := by
  have hrun : AdminRun 5 [.pushScreen, .topics (.completeRefresh 1 true), .onRefreshCompleted,
      .popScreen] _ := .of_foldlM rfl
  exact ⟨_, hrun, rfl, (periodic_timer_follows_list hrun).2⟩

end KaskadeAdmin

def AdminEvent.Unprompted : AdminEvent → Prop
  | .pushScreen | .detach => False
  | .topics (.completeRefresh _ _) | .topics (.finishMutation _ _) => True
  | .topics _ => False
  | _ => True

namespace KaskadeAdmin

variable {s t : KaskadeAdmin}

/-- A run in which nobody asks for a refresh. -/
abbrev UnpromptedRun :=
  Run (fun s event t => KaskadeAdmin.step s event = some t ∧ event.Unprompted)

theorem closes_screens (hpos : 1 ≤ s.screens) :
    ∃ later t, UnpromptedRun s later t ∧ t.screens = 1 ∧ t.topics = s.topics ∧
      t.attached = s.attached := by
  obtain ⟨n, hn⟩ : ∃ n, s.screens = n + 1 := ⟨s.screens - 1, by omega⟩
  induction n generalizing s with
  | zero => exact ⟨[], s, .nil, hn, rfl, rfl⟩
  | succ n ih =>
    let popped : KaskadeAdmin :=
      { s with
        screens := n + 1
        resumeTimers := if s.aboveRootScreen then s.resumeTimers + 1 else s.resumeTimers }
    have hpop : s.step .popScreen = some popped := by
      simp [step, popScreen, hn, popped]
    obtain ⟨later, t, hrun, hroot, htopics, hattached⟩ :=
      ih (s := popped) (Nat.le_add_left 1 n) rfl
    exact ⟨_, t, .cons ⟨hpop, trivial⟩ hrun, hroot, htopics, hattached⟩

/-- A mutation that is in progress ends, and lets go of the flag. -/
theorem ends_mutation (h : Refreshing s) :
    ∃ later t, UnpromptedRun s later t ∧ t.screens = s.screens ∧ t.attached = s.attached ∧
      t.topics.refreshCoordinator.mutationActive = false ∧
      t.topics.refreshCoordinator.generation = s.topics.refreshCoordinator.generation := by
  cases hflag : s.topics.refreshCoordinator.mutationActive with
  | false => exact ⟨[], s, .nil, rfl, rfl, hflag, rfl⟩
  | true =>
    obtain ⟨worker, hworker⟩ := List.exists_mem_of_ne_nil _ (h.mutating hflag)
    have hknown : s.topics.mutations.any (·.id == worker.id) = true :=
      List.any_eq_true.mpr ⟨worker, hworker, by simp⟩
    let remaining : ListTopics :=
      { s.topics with mutations := s.topics.mutations.filter (·.id != worker.id) }
    have hstep : s.step (.topics (.finishMutation worker.id false)) = some
        { s with topics := remaining.finishMutation false } := by
      simp [step, topicsEvent, ListTopics.step, hknown, remaining]
    refine ⟨_, _, .cons ⟨hstep, trivial⟩ .nil, rfl, rfl, ?_, ?_⟩
    · simp
    · exact (ListTopics.finishMutation_active remaining false).2

theorem ends_refresh (h : Refreshing s) :
    ∃ later t, UnpromptedRun s later t ∧ t.screens = s.screens ∧ t.attached = s.attached ∧
      t.topics.refreshCoordinator.active = false ∧
      t.topics.refreshCoordinator.mutationActive = s.topics.refreshCoordinator.mutationActive ∧
      t.topics.refreshCoordinator.generation = s.topics.refreshCoordinator.generation := by
  cases hactive : s.topics.refreshCoordinator.active with
  | false => exact ⟨[], s, .nil, rfl, rfl, hactive, rfl, rfl⟩
  | true =>
    let generation := s.topics.refreshCoordinator.generation
    have hcurrent : s.topics.refreshCoordinator.isCurrent generation = true := by
      simp [RefreshCoordinator.isCurrent, hactive, generation]
    have hstep : s.step (.topics (.completeRefresh generation s.attached)) =
        some (s.completeRefresh generation) := by
      simp [step, topicsEvent, generation, h.worked hactive]
    obtain ⟨hinactive, hgeneration⟩ := ListTopics.completeRefresh_current hcurrent s.attached
    refine ⟨_, _, .cons ⟨hstep, trivial⟩ .nil, rfl, rfl, hinactive, ?_, hgeneration⟩
    exact ListTopics.completeRefresh_mutationActive s.topics generation s.attached

section Idle

variable (hactive : s.topics.refreshCoordinator.active = false)
  (hmutation : s.topics.refreshCoordinator.mutationActive = false)

include hactive hmutation

theorem requestRefresh_generation (reason : RefreshReason) :
    (s.requestRefresh reason).topics.refreshCoordinator.generation =
      s.topics.refreshCoordinator.generation + 1 := by
  have hidle : ¬ (s.topics.refreshCoordinator.active ||
      s.topics.refreshCoordinator.mutationActive) := by
    simp [hactive, hmutation]
  simp [requestRefresh, ListTopics.requestRefresh_idle hidle]

theorem fires_periodic (hroot : s.screens = 1) (hrunning : s.periodicRefreshTimer = some .running) :
    ∃ later t, UnpromptedRun s later t ∧
      t.topics.refreshCoordinator.generation = s.topics.refreshCoordinator.generation + 1 := by
  have helapse : s.step .elapse = some { s with periodicCalls := s.periodicCalls + 1 } := by
    simp [step, hrunning]
  have hon : s.onRootScreen = true := by simp [onRootScreen, hroot]
  have hperiodic : { s with periodicCalls := s.periodicCalls + 1 }.step .requestPeriodicRefresh =
      some (s.requestRefresh .periodic) :=
    congrArg some (if_pos hon)
  refine ⟨_, _, .cons ⟨helapse, trivial⟩ (.cons ⟨hperiodic, trivial⟩ .nil), ?_⟩
  exact requestRefresh_generation hactive hmutation .periodic

/-- Over an idle topic list, whatever is awake leads to a refresh. -/
theorem wakes_refresh (h : Refreshing s) (hattached : s.attached = true)
    (hinterval : s.autoRefreshInterval ≠ 0) (hroot : s.screens = 1) :
    ∃ later t, UnpromptedRun s later t ∧
      t.topics.refreshCoordinator.generation = s.topics.refreshCoordinator.generation + 1 := by
  obtain hrunning | hresume | hbusy | hcompleted := h.awake hattached hinterval hroot
  · exact fires_periodic hactive hmutation hroot hrunning
  · have hstep : s.step .resumeAutoRefresh = some
        ({ s with resumeTimers := s.resumeTimers - 1 }.restartAutoRefresh.requestRefresh .resume) := by
      have hscheduled : s.resumeTimers ≠ 0 := by omega
      simp [step, KaskadeAdmin.resumeAutoRefresh, onRootScreen, hroot, hinterval, hscheduled]
    refine ⟨_, _, .cons ⟨hstep, trivial⟩ .nil, ?_⟩
    exact requestRefresh_generation
      (s := { s with resumeTimers := s.resumeTimers - 1 }.restartAutoRefresh) hactive hmutation _
  · rw [hactive] at hbusy
    cases hbusy
  · obtain ⟨timer, htimer⟩ := Option.isSome_iff_exists.mp (h.timer.mpr hinterval)
    let restarted :=
      { s with refreshCompleted := s.refreshCompleted - 1 }.restartAutoRefresh
    have hstep : s.step .onRefreshCompleted = some restarted := by
      have hposted : s.refreshCompleted ≠ 0 := by omega
      simp [step, KaskadeAdmin.onRefreshCompleted, onRootScreen, hroot, hposted, restarted]
    have hrunning : restarted.periodicRefreshTimer = some .running := by
      simp [restarted, restartAutoRefresh, htimer]
    obtain ⟨later, t, hrun, hgeneration⟩ :=
      fires_periodic (s := restarted) hactive hmutation hroot hrunning
    exact ⟨_, t, .cons ⟨hstep, trivial⟩ hrun, hgeneration⟩

end Idle

theorem UnpromptedRun.refreshing {later : List AdminEvent} (hrun : UnpromptedRun s later t)
    (h : Refreshing s) :
    Refreshing t ∧ t.autoRefreshInterval = s.autoRefreshInterval := by
  apply hrun.invariant (I := fun t => Refreshing t ∧ t.autoRefreshInterval = s.autoRefreshInterval)
  · exact fun _ _ _ hs hstep => ⟨refreshing_step hs.1 hstep.1, (step_interval hstep.1).trans hs.2⟩
  · exact ⟨h, rfl⟩

/-- Automatic refreshes never die: from every state of every run, once the screens over the list
are closed and what is in progress ends, the list is refreshed again without a request. -/
theorem refreshes_again {interval : ℕ} {events : List AdminEvent} (hinterval : interval ≠ 0)
    (hrun : AdminRun interval events s) (hattached : s.attached = true) :
    ∃ later t, UnpromptedRun s later t ∧
      t.topics.refreshCoordinator.generation = s.topics.refreshCoordinator.generation + 1 := by
  obtain ⟨h, rfl⟩ := hrun.refreshing
  obtain ⟨closing, closed, hclosing, hroot, htopics, hstill⟩ := closes_screens h.screens_pos
  obtain ⟨hclosed, hsame⟩ := hclosing.refreshing h
  obtain ⟨ending, ended, hending, hroot', hstill', hflag, hgeneration⟩ := ends_mutation hclosed
  obtain ⟨hended, hsame'⟩ := hending.refreshing hclosed
  obtain ⟨finishing, idle, hfinishing, hroot'', hstill'', hinactive, hflag', hgeneration'⟩ :=
    ends_refresh hended
  obtain ⟨hidle, hsame''⟩ := hfinishing.refreshing hended
  obtain ⟨waking, t, hwaking, hnext⟩ := wakes_refresh hinactive (hflag'.trans hflag) hidle
    (by rw [hstill'', hstill', hstill, hattached]) (by rwa [hsame'', hsame', hsame])
    (by rw [hroot'', hroot', hroot])
  refine ⟨_, t, ((hclosing.append hending).append hfinishing).append hwaking, ?_⟩
  rw [hnext, hgeneration', hgeneration, htopics]

/-- A form over the list, with a mutation in progress. -/
theorem refreshes_after_form :
    ∃ s, AdminRun 5 [.topics (.completeRefresh 1 true), .pushScreen, .topics .mutate] s ∧
      ∃ later t, UnpromptedRun s later t ∧ t.topics.refreshCoordinator.generation = 2 := by
  have hrun : AdminRun 5 [.topics (.completeRefresh 1 true), .pushScreen, .topics .mutate] _ :=
    .of_foldlM rfl
  exact ⟨_, hrun, refreshes_again (Nat.succ_ne_zero 4) hrun rfl⟩

end KaskadeAdmin

end Kaskade
