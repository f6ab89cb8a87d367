import Kaskade.ProducerDelivery

/-!
# Whose record was delivered

At most one record is in flight: a call of `produce` that finds another one in progress is refused
before it queues anything. A call returns a delivery only for an acknowledgement of its own
record, however late the reports of earlier records are served.
-/

namespace Kaskade

open Python

variable {F E τ ι : Type} [DecidableEq τ] {py : Interpreter F E} {seconds : Text}

namespace ProducerService

/-- The events of the tasks of `produce`. -/
def taskEvents (events : List (ProducerEvent τ ι)) : List (TaskEvent τ Unit) :=
  events.filterMap fun
    | .task event => some event
    | _ => none

/-- A statement of `_produce` has no effect beyond its thread, the client and its queue. -/
theorem produceEffect_frame {s t : ProducerService τ ι} {task : τ} (h : ProduceEffect py s task t) :
    ∃ thread client queued,
      t = { s with thread := thread, client := client, queued := queued } := by
  cases h <;> exact ⟨_, _, _, rfl⟩

variable [DecidableEq ι]

omit [DecidableEq τ] in
/-- A statement of `close` has no effect beyond its thread, the client and the event. -/
theorem closeStep_frame {s t : ProducerService τ ι} {call : ι} (h : s.closeStep call = some t) :
    ∃ client closing closer,
      t = { s with client := client, closing := closing, closer := closer } := by
  rw [closeStep] at h
  cases hstatement : s.closer call with
  | ended => simp [hstatement] at h
  | _ =>
    simp only [hstatement, Option.some.injEq] at h
    exact ⟨_, _, _, h.symm⟩

/-- A run of a service that has not been started. -/
abbrev ProducerRun (py : Interpreter F E) (seconds : Text) :
    List (ProducerEvent τ ι) → ProducerService τ ι → Prop :=
  Run (Step py seconds) {}

/-- The tasks of a run of the service are a run of tasks under a lock. -/
theorem tasks_run {events : List (ProducerEvent τ ι)} {s : ProducerService τ ι}
    (hrun : ProducerRun py seconds events s) :
    Run (LockedTasks.Step false fun _ => deliveryFollows) {} (taskEvents events) s.tasks := by
  induction hrun with
  | nil => exact .nil
  | @snoc events s t event hrun hstep ih =>
    have hevents : taskEvents (events ++ [event]) = taskEvents events ++ taskEvents [event] :=
      List.filterMap_append
    rw [hevents]
    cases step_effect hstep with
    | task e tasks _ htasks => exact .snoc ih htasks
    | produce task choice _ heffect =>
      obtain ⟨_, _, _, rfl⟩ := produceEffect_frame heffect
      exact (List.append_nil _).symm ▸ ih
    | close call hclose =>
      obtain ⟨_, _, _, rfl⟩ := closeStep_frame hclose
      exact (List.append_nil _).symm ▸ ih
    | requestClose => exact (List.append_nil _).symm ▸ ih
    | report => exact (List.append_nil _).symm ▸ ih

/-- The record was acknowledged with the message that the delivery shows. -/
def Acknowledged (py : Interpreter F E) (s : ProducerService τ ι) (task : τ) (d : Delivery) : Prop :=
  ∃ message, ⟨task, none, message⟩ ∈ s.reports ∧ delivery py message = .ok d

/-- Records are queued with the callbacks of their own calls, and calls conclude nothing but what
their callbacks were told. -/
structure Faithful (py : Interpreter F E) (s : ProducerService τ ι) : Prop where
  own : ∀ queued ∈ s.queued, queued.onDelivery = queued.record
  reported : ∀ task entry, entry ∈ s.outcome task → ⟨task, entry.1, entry.2⟩ ∈ s.reports
  concluded : ∀ task d, s.thread task = .ended (.ok d) → Acknowledged py s task d
  returned : ∀ task d, s.returned task = some (.ok d) → Acknowledged py s task d

omit [DecidableEq τ] [DecidableEq ι] in
theorem Acknowledged.mono {s t : ProducerService τ ι} (hreports : s.reports ⊆ t.reports) {task : τ}
    {d : Delivery} (h : Acknowledged py s task d) : Acknowledged py t task d := by
  obtain ⟨message, hmessage, hdelivery⟩ := h
  exact ⟨message, hreports hmessage, hdelivery⟩

omit [DecidableEq τ] [DecidableEq ι] in
theorem conclude_ok {first : Option KafkaError × ReportedMessage} {d : Delivery}
    (h : conclude py first = .ok d) : first.1 = none ∧ delivery py first.2 = .ok d := by
  obtain ⟨error, message⟩ := first
  cases error with
  | none => exact ⟨rfl, h⟩
  | some error => cases h

omit [DecidableEq ι] in
theorem faithful_goTo {s : ProducerService τ ι} (hs : Faithful py s) {task : τ}
    {statement : ProduceStep}
    (h : ∀ d, statement = .ended (.ok d) → Acknowledged py s task d) :
    Faithful py (s.goTo task statement) := by
  refine ⟨hs.own, hs.reported, fun other d hother => ?_, hs.returned⟩
  by_cases hsame : other = task
  · subst hsame
    rw [goTo_thread_self] at hother
    exact h d hother
  · rw [goTo_thread_of_ne hsame] at hother
    exact hs.concluded other d hother

omit [DecidableEq ι] in
theorem faithful_produce {s t : ProducerService τ ι} {task : τ} (hs : Faithful py s)
    (h : ProduceEffect py s task t) : Faithful py t := by
  have hgoTo : ∀ statement, (∀ d, statement ≠ .ended (.ok d)) →
      Faithful py (s.goTo task statement) := fun statement hne =>
    faithful_goTo hs fun d hd => absurd hd (hne d)
  cases h with
  | early statement _ hstatement _ =>
    refine hgoTo statement fun d hd => ?_
    rw [hd] at hstatement
    exact hstatement
  | create => exact ⟨hs.own, hs.reported, (hgoTo .check nofun).concluded, hs.returned⟩
  | failed e _ => exact hgoTo _ nofun
  | queue _ =>
    refine ⟨?_, hs.reported, (hgoTo .testOutcome nofun).concluded, hs.returned⟩
    intro queued hqueued
    rcases List.mem_append.mp hqueued with hold | hnew
    · exact hs.own queued hold
    · obtain rfl := List.mem_singleton.mp hnew
      rfl
  | acknowledged first _ hfirst =>
    apply faithful_goTo hs
    intro d hd
    obtain ⟨herror, hdelivery⟩ := conclude_ok (ProduceStep.ended.inj hd)
    exact ⟨first.2, herror ▸ hs.reported task first hfirst, hdelivery⟩
  | unacknowledged _ _ => exact hgoTo _ nofun
  | closing _ _ _ => exact hgoTo _ nofun
  | notClosing _ _ => exact hgoTo _ nofun
  | expired _ _ => exact hgoTo _ nofun
  | waits _ => exact hgoTo _ nofun
  | polls _ _ => exact hgoTo _ nofun
  | noClient _ _ => exact hgoTo _ nofun
  | polled _ => exact hgoTo _ nofun

omit [DecidableEq ι] in
/-- A report is told to the call whose record it is about. -/
theorem faithful_serve {s : ProducerService τ ι} (hs : Faithful py s) {queued : QueuedRecord τ}
    (hqueued : queued ∈ s.queued) (error : Option KafkaError) (message : ReportedMessage) :
    Faithful py (s.serve queued error message) := by
  have hreports : s.reports ⊆ (s.serve queued error message).reports := List.subset_append_left _ _
  refine ⟨hs.own, fun task entry hentry => ?_, fun task d h => (hs.concluded task d h).mono hreports,
    fun task d h => (hs.returned task d h).mono hreports⟩
  by_cases hsame : task = queued.onDelivery
  · subst hsame
    rw [serve_outcome_self] at hentry
    rcases List.mem_append.mp hentry with hold | hnew
    · exact hreports (hs.reported _ entry hold)
    · obtain rfl := List.mem_singleton.mp hnew
      rw [hs.own queued hqueued]
      exact List.mem_append_right _ List.mem_cons_self
  · rw [serve_outcome_of_ne hsame] at hentry
    exact hreports (hs.reported task entry hentry)

def inProgress : ProduceException :=
  .deliveryInProgress (text "A record is already being delivered")

omit [DecidableEq ι] in
/-- A call returns what it had returned, or the result of its thread, or is refused. -/
theorem returnedAt_eq_some {s : ProducerService τ ι} {e : TaskEvent τ Unit} {task : τ}
    {result : Except ProduceException Delivery} (h : s.returnedAt e task = some result) :
    s.returned task = some result ∨ s.thread task = .ended result ∨
      (e = .refuse task ∧ result = .error inProgress) := by
  cases e with
  | refuse other =>
    by_cases hsame : task = other
    · subst hsame
      rw [returnedAt, Function.update_self] at h
      exact .inr (.inr ⟨rfl, (Option.some.inj h).symm⟩)
    · rw [returnedAt, Function.update_of_ne hsame] at h
      exact .inl h
  | leave other =>
    by_cases hsame : task = other
    · subst hsame
      rw [returnedAt, Function.update_self] at h
      split at h
      · rename_i result' hthread
        exact .inr (.inl (Option.some.inj h ▸ hthread))
      · cases h
    · rw [returnedAt, Function.update_of_ne hsame] at h
      exact .inl h
  | _ => exact .inl h

theorem faithful_step {s t : ProducerService τ ι} {event : ProducerEvent τ ι} (hs : Faithful py s)
    (hstep : Step py seconds s event t) : Faithful py t := by
  cases step_effect hstep with
  | task e tasks _ _ =>
    refine ⟨hs.own, hs.reported, hs.concluded, fun task d h => ?_⟩
    rcases returnedAt_eq_some h with hreturned | hconcluded | ⟨-, hrefused⟩
    · exact hs.returned task d hreturned
    · exact hs.concluded task d hconcluded
    · cases hrefused
  | produce task choice _ heffect => exact faithful_produce hs heffect
  | close call hclose =>
    obtain ⟨_, _, _, rfl⟩ := closeStep_frame hclose
    exact ⟨hs.own, hs.reported, hs.concluded, hs.returned⟩
  | requestClose => exact ⟨hs.own, hs.reported, hs.concluded, hs.returned⟩
  | report server index error message queued _ hqueued => exact faithful_serve hs hqueued error message

/-- A call that has not held the lock has queued nothing; once refused, it has raised. -/
structure Refuses (s : ProducerService τ ι) : Prop where
  idle : ∀ task, LockedTasks.Outside (s.tasks.phase task) →
    s.tasks.calls task = none ∧ ∀ queued ∈ s.queued, queued.record ≠ task
  raised : ∀ task, s.tasks.phase task = .refused → s.returned task = some (.error inProgress)

omit [DecidableEq ι] in
theorem produceEffect_queued {s t : ProducerService τ ι} {task : τ} (h : ProduceEffect py s task t) :
    ∀ queued ∈ t.queued, queued ∈ s.queued ∨ queued.record = task := by
  have hsame : ∀ queued ∈ s.queued, queued ∈ s.queued ∨ queued.record = task :=
    fun queued hqueued => .inl hqueued
  cases h with
  | queue _ =>
    intro queued hqueued
    rcases List.mem_append.mp hqueued with hold | hnew
    · exact .inl hold
    · obtain rfl := List.mem_singleton.mp hnew
      exact .inr rfl
  | _ => exact hsame

omit [DecidableEq ι] in
theorem refuses_task {s : ProducerService τ ι} (hs : Refuses s) {e : TaskEvent τ Unit}
    {tasks : LockedTasks τ Unit}
    (htasks : s.tasks.step false (fun _ => deliveryFollows) e = some tasks) :
    Refuses { s with tasks := tasks, returned := s.returnedAt e } := by
  constructor
  · intro task h
    obtain ⟨houtside, hcalls, -⟩ := (LockedTasks.step_effect htasks).outside h
    obtain ⟨hnone, hqueued⟩ := hs.idle task houtside
    exact ⟨hcalls hnone, hqueued⟩
  · intro task h
    obtain ⟨-, -, hrefused⟩ := (LockedTasks.step_effect htasks).outside (.inr h)
    rcases hrefused h with hbefore | rfl
    · have hraised := hs.raised task hbefore
      cases e with
      | refuse other =>
        by_cases hsame : task = other
        · subst hsame
          exact Function.update_self _ _ _
        · exact (Function.update_of_ne hsame _ _).trans hraised
      | leave other =>
        have hne : task ≠ other := by
          rintro rfl
          simp [LockedTasks.step, hbefore] at htasks
        exact (Function.update_of_ne hne _ _).trans hraised
      | _ => exact hraised
    · exact Function.update_self _ _ _

theorem refuses_step {s t : ProducerService τ ι} {event : ProducerEvent τ ι} (hs : Refuses s)
    (hstep : Step py seconds s event t) : Refuses t := by
  cases step_effect hstep with
  | task e tasks _ htasks => exact refuses_task hs htasks
  | produce task choice hcall heffect =>
    have hqueued := produceEffect_queued heffect
    obtain ⟨_, _, _, rfl⟩ := produceEffect_frame heffect
    refine ⟨fun other hother => ⟨(hs.idle other hother).1, fun queued hmem => ?_⟩, hs.raised⟩
    rcases hqueued queued hmem with hold | hnew
    · exact (hs.idle other hother).2 queued hold
    · -- the thread of an idle call does not run
      rintro rfl
      have hnone := (hs.idle queued.record hother).1
      rw [hnew, hcall] at hnone
      cases hnone
  | close call hclose =>
    obtain ⟨_, _, _, rfl⟩ := closeStep_frame hclose
    exact ⟨hs.idle, hs.raised⟩
  | requestClose => exact ⟨hs.idle, hs.raised⟩
  | report => exact ⟨hs.idle, hs.raised⟩

/-- While a record is in flight, another call cannot take the lock; it can be refused, and queues
nothing. -/
theorem refused_in_flight {s : ProducerService τ ι} (hs : s.tasks.Exclusive) {task other : τ}
    (hflight : s.tasks.calls other ≠ none) (hwaiting : s.tasks.phase task = .waiting) :
    (∀ t, ¬ Step py seconds s (.task (.acquire task)) t) ∧
      ∃ t, Step py seconds s (.task (.refuse task)) t ∧
        t.returned task = some (.error inProgress) ∧ t.queued = s.queued := by
  have hholder : s.tasks.holder = some other := by
    apply hs.holds
    by_contra houtside
    exact hflight (hs.calls_none houtside)
  constructor
  · intro t hstep
    simp [Step, step, LockedTasks.step, hwaiting, hholder] at hstep
  · let t : ProducerService τ ι :=
      { s with
        tasks := s.tasks.enter task .refused
        returned := s.returnedAt (.refuse task) }
    refine ⟨t, ?_, Function.update_self _ _ _, rfl⟩
    simp [Step, step, threadEnded, LockedTasks.step, hwaiting, hholder, t]

theorem delivery_eq_ok {message : ReportedMessage} {d : Delivery} (h : delivery py message = .ok d) :
    d.partition = message.partition ∧ d.offset = message.offset := by
  rw [delivery] at h
  split at h
  · cases h
    exact ⟨rfl, rfl⟩
  · split at h
    · cases h
      exact ⟨rfl, rfl⟩
    · cases h

/-- As long as no call is cancelled twice: at most one record is in flight, a concurrent call is
refused before it queues its own, and a delivery shows the acknowledgement of the call's record. -/
theorem deliveries_own {events : List (ProducerEvent τ ι)} {s : ProducerService τ ι}
    (hrun : ProducerRun py seconds events s)
    (honce : ∀ task, (taskEvents events).countP (·.cancels task) ≤ 1) :
    (∀ task other, s.tasks.calls task ≠ none → s.tasks.calls other ≠ none → task = other) ∧
    (∀ task other, s.tasks.calls other ≠ none → s.tasks.phase task = .waiting →
      (∀ t, ¬ Step py seconds s (.task (.acquire task)) t) ∧
        ∃ t, Step py seconds s (.task (.refuse task)) t ∧
          t.returned task = some (.error inProgress) ∧ t.queued = s.queued) ∧
    (∀ task, s.tasks.phase task = .refused →
      s.returned task = some (.error inProgress) ∧ ∀ queued ∈ s.queued, queued.record ≠ task) ∧
    (∀ task d, s.returned task = some (.ok d) →
      ∃ message, ⟨task, none, message⟩ ∈ s.reports ∧ d.partition = message.partition ∧
        d.offset = message.offset) := by
  have hexclusive := LockedTasks.exclusive_of_run (tasks_run hrun) honce
  have hrefuses : Refuses s := by
    refine hrun.invariant (fun _ _ _ hs hstep => refuses_step hs hstep) ?_
    constructor <;> simp
  have hfaithful : Faithful py s := by
    refine hrun.invariant (fun _ _ _ hs hstep => faithful_step hs hstep) ?_
    constructor <;> simp
  refine ⟨fun task other => hexclusive.calls_unique, fun task other => refused_in_flight hexclusive,
    fun task h => ⟨hrefuses.raised task h, (hrefuses.idle task (.inr h)).2⟩, fun task d h => ?_⟩
  obtain ⟨message, hmessage, hdelivery⟩ := hfaithful.returned task d h
  exact ⟨message, hmessage, delivery_eq_ok hdelivery⟩

/-- The first events of a call of `produce`, with so many statements of its thread. -/
def startEvents (task statements : ℕ) : List (ProducerEvent ℕ ℕ) :=
  [.task (.acquire task), .task (.issue task ()), .task (.threadStart task)] ++
    List.replicate statements (.produce task .succeeds)

/-- The last events of a call of `produce`. -/
def endEvents (task : ℕ) : List (ProducerEvent ℕ ℕ) :=
  [.task (.threadEnd task), .task (.resume task), .task (.leave task)]

def lateReport : List (ProducerEvent ℕ ℕ) :=
  startEvents 0 12 ++ [.produce 0 .expired] ++ endEvents 0 ++ startEvents 1 8 ++
    [.report (.inl 1) 0 none ⟨0, 7, none⟩, .report (.inl 1) 1 none ⟨0, 8, none⟩,
      .produce 1 .succeeds, .produce 1 .succeeds] ++ endEvents 1

theorem late_report_not_mistaken :
    ∃ s, ProducerRun Interpreter.plain (text "45") lateReport s ∧
      s.returned 1 = some (.ok ⟨0, 8, none⟩) ∧
      ∃ message, ⟨1, none, message⟩ ∈ s.reports ∧ message.offset = 8 := by
  have hrun : ProducerRun Interpreter.plain (text "45") lateReport _ := .of_foldlM rfl
  have honce : ∀ task, (taskEvents lateReport).countP (·.cancels task) ≤ 1 := by
    intro task
    exact Nat.zero_le 1
  obtain ⟨message, hmessage, -, hoffset⟩ := (deliveries_own hrun honce).2.2.2 1 _ rfl
  exact ⟨_, hrun, rfl, message, hmessage, hoffset.symm⟩

end ProducerService

end Kaskade
