import Kaskade.RecordDelivery

/-!
# A delivery that is interrupted by the shutdown

`close` sets an event, flushes and then drops the client, while a thread of `_produce` tests the
event and then reads the client in a later statement. A client that is dropped in between makes
the thread read an attribute of `None`; otherwise the call ends with a delivery or with a
`DeliveryError`.
-/

namespace Kaskade

open Python

variable {F E τ ι : Type} [DecidableEq τ] {py : Interpreter F E} {seconds : Text}

namespace ProducerService

/-- A delivery or a `DeliveryError`. -/
def Expected : Except ProduceException Delivery → Prop
  | .ok _ => True
  | .error (.deliveryError _ _) => True
  | _ => False

def BeforePoll : ProduceStep → Prop
  | .testDeadline | .readToPoll => True
  | _ => False

def Started : ProduceStep → Prop
  | .start | .create | .ended _ => False
  | _ => True

/-- How the client, the closing event and the threads relate while no client is dropped under a
thread that is about to poll. -/
structure Orderly (py : Interpreter F E) (s : ProducerService τ ι) : Prop where
  announced : ∀ call, s.closer call ≠ .set → s.closer call ≠ .ended → s.closing = true
  opened : s.closing = false → ∀ task, Started (s.thread task) → s.client = true
  polled : ∀ task, BeforePoll (s.thread task) → s.client = true
  queuedLate : ∀ queued ∈ s.queued, ¬ Early (s.thread queued.record)
  outcomes : ∀ task entry, entry ∈ s.outcome task → Expected (conclude py entry)
  concluded : ∀ queued ∈ s.queued, ∀ result, s.thread queued.record = .ended result →
    Expected result

theorem expected_deliveryError (error : KafkaError) : Expected (.error (deliveryError error)) := by
  rw [deliveryError]
  split_ifs <;> trivial

theorem orderly_goTo {s : ProducerService τ ι} (hs : Orderly py s) {task : τ}
    {statement : ProduceStep} (hopened : s.closing = false → Started statement → s.client = true)
    (hpolled : BeforePoll statement → s.client = true)
    (hlate : Early statement → Early (s.thread task))
    (hresult : ∀ result, statement = .ended result → ¬ Early (s.thread task) → Expected result) :
    Orderly py (s.goTo task statement) := by
  have hcases : ∀ other, (other = task ∧ (s.goTo task statement).thread other = statement) ∨
      (s.goTo task statement).thread other = s.thread other := by
    intro other
    by_cases hsame : other = task
    · exact .inl ⟨hsame, hsame ▸ goTo_thread_self s task statement⟩
    · exact .inr (goTo_thread_of_ne hsame s statement)
  refine ⟨hs.announced, ?_, ?_, ?_, hs.outcomes, ?_⟩
  · intro hclosing other hother
    rcases hcases other with ⟨-, hthread⟩ | hthread <;> rw [hthread] at hother
    · exact hopened hclosing hother
    · exact hs.opened hclosing other hother
  · intro other hother
    rcases hcases other with ⟨-, hthread⟩ | hthread <;> rw [hthread] at hother
    · exact hpolled hother
    · exact hs.polled other hother
  · intro queued hqueued hearly
    rcases hcases queued.record with ⟨hsame, hthread⟩ | hthread <;> rw [hthread] at hearly
    · exact hs.queuedLate queued hqueued (hsame ▸ hlate hearly)
    · exact hs.queuedLate queued hqueued hearly
  · intro queued hqueued result hended
    rcases hcases queued.record with ⟨hsame, hthread⟩ | hthread <;> rw [hthread] at hended
    · exact hresult result hended (hsame ▸ hs.queuedLate queued hqueued)
    · exact hs.concluded queued hqueued result hended

/-- A thread ends with an expected result if its record is queued. -/
theorem orderly_end {s : ProducerService τ ι} (hs : Orderly py s) {task : τ}
    {result : Except ProduceException Delivery}
    (hresult : ¬ Early (s.thread task) → Expected result) :
    Orderly py (s.goTo task (.ended result)) := by
  apply orderly_goTo hs
  · exact fun _ hstarted => hstarted.elim
  · exact fun hpoll => hpoll.elim
  · exact fun hearly => hearly.elim
  · exact fun _ hended hlate => ProduceStep.ended.inj hended ▸ hresult hlate

/-- A thread whose record is queued goes on to another statement. -/
theorem orderly_continue {s : ProducerService τ ι} (hs : Orderly py s) {task : τ}
    {statement : ProduceStep} (hlate : ¬ Early statement)
    (hended : ∀ result, statement ≠ .ended result) (hopened : s.closing = false → s.client = true)
    (hpolled : BeforePoll statement → s.client = true) : Orderly py (s.goTo task statement) := by
  apply orderly_goTo hs
  · exact fun hclosing _ => hopened hclosing
  · exact hpolled
  · exact fun hearly => absurd hearly hlate
  · exact fun result h => absurd h (hended result)

theorem orderly_produce {s t : ProducerService τ ι} {task : τ} (hs : Orderly py s)
    (h : ProduceEffect py s task t) : Orderly py t := by
  have hopened : ∀ {statement}, s.thread task = statement → Started statement →
      s.closing = false → s.client = true := fun hthread hstarted hclosing =>
    hs.opened hclosing task (hthread ▸ hstarted)
  have hpolled : ∀ {statement}, s.thread task = statement → BeforePoll statement →
      s.client = true := fun hthread hpoll => hs.polled task (hthread ▸ hpoll)
  cases h with
  | early statement hbefore hafter hclient =>
    apply orderly_goTo hs
    · intro _ hstarted
      apply hclient
      rintro rfl
      exact hstarted
    · intro hpoll
      cases statement <;> first | exact hpoll.elim | exact hafter.elim
    · exact fun _ => hbefore
    · exact fun _ _ hlate => absurd hbefore hlate
  | create hthread =>
    -- the same statement after the client was created
    have hcreated : Orderly py { s with client := true } :=
      ⟨hs.announced, fun _ _ _ => rfl, fun _ _ => rfl, hs.queuedLate, hs.outcomes, hs.concluded⟩
    apply orderly_goTo hcreated
    · exact fun _ _ => rfl
    · exact fun _ => rfl
    · exact fun _ => (congrArg Early hthread).mpr trivial
    · exact nofun
  | failed e hbefore => exact orderly_end hs fun hlate => absurd hbefore hlate
  | queue hthread =>
    have hgone : (s.goTo task .testOutcome).thread task = .testOutcome := goTo_thread_self s task _
    have hnext : Orderly py (s.goTo task .testOutcome) :=
      orderly_continue hs id nofun (hopened hthread trivial) fun hpoll => hpoll.elim
    refine ⟨hnext.announced, hnext.opened, hnext.polled, ?_, hnext.outcomes, ?_⟩
    · intro queued hqueued
      rcases List.mem_append.mp hqueued with hold | hnew
      · exact hnext.queuedLate queued hold
      · obtain rfl := List.mem_singleton.mp hnew
        exact hgone.symm ▸ id
    · intro queued hqueued result hended
      rcases List.mem_append.mp hqueued with hold | hnew
      · exact hnext.concluded queued hold result hended
      · obtain rfl := List.mem_singleton.mp hnew
        exact absurd (hgone.symm.trans hended) nofun
  | acknowledged first _ hfirst => exact orderly_end hs fun _ => hs.outcomes task first hfirst
  | unacknowledged hthread _ =>
    exact orderly_continue hs id nofun (hopened hthread trivial) fun hpoll => hpoll.elim
  | closing message _ _ => exact orderly_end hs fun _ => trivial
  | notClosing hthread hclosing =>
    have hclient := hopened hthread trivial hclosing
    exact orderly_continue hs id nofun (fun _ => hclient) fun _ => hclient
  | expired message _ => exact orderly_end hs fun _ => trivial
  | waits hthread =>
    have hclient := hpolled hthread trivial
    exact orderly_continue hs id nofun (fun _ => hclient) fun _ => hclient
  | polls _ hclient => exact orderly_continue hs id nofun (fun _ => hclient) fun _ => hclient
  | noClient hthread hclient => cases hclient.symm.trans (hpolled hthread trivial)
  | polled hthread =>
    exact orderly_continue hs id nofun (hopened hthread trivial) fun hpoll => hpoll.elim

variable [DecidableEq ι]

/-- The client is not dropped under a thread that has tested the closing event and is about to
poll, and acknowledged messages have a timestamp that a `datetime` can hold. -/
def KeepsClient (py : Interpreter F E) (s : ProducerService τ ι) : ProducerEvent τ ι → Prop
  | .close call => s.closer call = .clear → ∀ task, ¬ BeforePoll (s.thread task)
  | .report _ _ none message => ∃ d, delivery py message = .ok d
  | _ => True

omit [DecidableEq τ] in
theorem orderly_closeTo {s : ProducerService τ ι} (hs : Orderly py s) {call : ι}
    {statement : CloseStep} {closing client : Bool} (hclosing : s.closing = true → closing = true)
    (hannounced : statement ≠ .set → statement ≠ .ended → closing = true)
    (hopened : closing = false → s.client = true → client = true)
    (hpolled : s.client = true → (∃ task, BeforePoll (s.thread task)) → client = true) :
    Orderly py { s.closeTo call statement with closing := closing, client := client } := by
  refine ⟨?_, ?_, fun task h => hpolled (hs.polled task h) ⟨task, h⟩, hs.queuedLate, hs.outcomes,
    hs.concluded⟩
  · intro other hset hended
    by_cases hsame : other = call
    · subst hsame
      simp only [closeTo, Function.update_self] at hset hended
      exact hannounced hset hended
    · simp only [closeTo, Function.update_of_ne hsame] at hset hended
      exact hclosing (hs.announced other hset hended)
  · intro hopen task hstarted
    apply hopened hopen
    refine hs.opened ?_ task hstarted
    by_contra hclosed
    rw [Bool.not_eq_false] at hclosed
    exact absurd ((hclosing hclosed).symm.trans hopen) nofun

omit [DecidableEq τ] in
theorem orderly_close {s t : ProducerService τ ι} {call : ι} (hs : Orderly py s)
    (h : s.closeStep call = some t)
    (hkeeps : s.closer call = .clear → ∀ task, ¬ BeforePoll (s.thread task)) : Orderly py t := by
  have hannounced : s.closer call ≠ .set → s.closer call ≠ .ended → s.closing = true :=
    hs.announced call
  rw [closeStep] at h
  cases hstatement : s.closer call with
  | set =>
    simp only [hstatement, Option.some.injEq] at h
    exact h ▸ orderly_closeTo hs (fun _ => rfl) (fun _ _ => rfl) (by simp) fun hclient _ => hclient
  | clear =>
    simp only [hstatement, Option.some.injEq] at h
    have hclosing : s.closing = true := hannounced (by simp [hstatement]) (by simp [hstatement])
    subst h
    apply orderly_closeTo hs
    · exact id
    · exact fun _ _ => hclosing
    · simp [closeTo, hclosing]
    · exact fun _ hpoll => absurd hpoll (not_exists.mpr (hkeeps hstatement))
  | ended => simp [hstatement] at h
  | _ =>
    simp only [hstatement, Option.some.injEq] at h
    have hclosing : s.closing = true := hannounced (by simp [hstatement]) (by simp [hstatement])
    exact h ▸ orderly_closeTo hs id (fun _ _ => hclosing) (fun _ hclient => hclient)
      fun hclient _ => hclient

omit [DecidableEq ι] in
theorem orderly_serve {s : ProducerService τ ι} (hs : Orderly py s) (queued : QueuedRecord τ)
    {error : Option KafkaError} {message : ReportedMessage}
    (h : Expected (conclude py (error, message))) : Orderly py (s.serve queued error message) := by
  refine ⟨hs.announced, hs.opened, hs.polled, hs.queuedLate, fun task entry hentry => ?_,
    hs.concluded⟩
  by_cases hsame : task = queued.onDelivery
  · subst hsame
    rw [serve_outcome_self] at hentry
    rcases List.mem_append.mp hentry with hold | hnew
    · exact hs.outcomes _ entry hold
    · exact List.mem_singleton.mp hnew ▸ h
  · rw [serve_outcome_of_ne hsame] at hentry
    exact hs.outcomes task entry hentry

theorem orderly_step {s t : ProducerService τ ι} {event : ProducerEvent τ ι} (hs : Orderly py s)
    (hstep : Step py seconds s event t) (hkeeps : KeepsClient py s event) : Orderly py t := by
  cases step_effect hstep with
  | task e tasks _ _ =>
    exact ⟨hs.announced, hs.opened, hs.polled, hs.queuedLate, hs.outcomes, hs.concluded⟩
  | produce task choice _ heffect => exact orderly_produce hs heffect
  | close call hclose => exact orderly_close hs hclose hkeeps
  | requestClose =>
    exact ⟨fun _ _ _ => rfl, nofun, hs.polled, hs.queuedLate, hs.outcomes, hs.concluded⟩
  | report server index error message queued _ _ =>
    apply orderly_serve hs queued
    cases error with
    | some error => exact expected_deliveryError error
    | none =>
      obtain ⟨d, hd⟩ : ∃ d, delivery py message = .ok d := hkeeps
      rw [conclude, hd]
      trivial

/-- A call that was not refused returns the result of its thread. -/
def Returns (s : ProducerService τ ι) : Prop :=
  ∀ task result, s.returned task = some result →
    s.thread task = .ended result ∨ s.tasks.phase task = .refused

omit [DecidableEq ι] in
theorem produceEffect_thread_of_ne {s t : ProducerService τ ι} {task other : τ}
    (h : ProduceEffect py s task t) (hne : other ≠ task) : t.thread other = s.thread other := by
  cases h <;> exact goTo_thread_of_ne hne s _

omit [DecidableEq ι] in
theorem produceEffect_not_ended {s t : ProducerService τ ι} {task : τ} (h : ProduceEffect py s task t)
    (result : Except ProduceException Delivery) : s.thread task ≠ .ended result := by
  intro hended
  cases h with
  | early _ hbefore _ _ =>
    rw [hended] at hbefore
    exact hbefore
  | failed _ hbefore =>
    rw [hended] at hbefore
    exact hbefore
  | _ => simp_all

theorem returns_step {s t : ProducerService τ ι} {event : ProducerEvent τ ι} (hs : Returns s)
    (hstep : Step py seconds s event t) : Returns t := by
  cases step_effect hstep with
  | task e tasks _ htasks =>
    intro task result h
    rcases returnedAt_eq_some h with hreturned | hended | ⟨rfl, -⟩
    · refine (hs task result hreturned).imp id fun hrefused => ?_
      exact ((LockedTasks.step_effect htasks).done (.inl hrefused)).trans hrefused
    · exact .inl hended
    · cases LockedTasks.step_effect htasks with
      | refuse _ _ => exact .inr (Function.update_self _ _ _)
  | produce task choice _ heffect =>
    intro other result h
    have hended : s.thread other = .ended result → t.thread other = .ended result := by
      intro hended
      have hother : other ≠ task := by
        rintro rfl
        exact produceEffect_not_ended heffect result hended
      exact (produceEffect_thread_of_ne heffect hother).trans hended
    obtain ⟨_, _, _, rfl⟩ := produceEffect_frame heffect
    exact (hs other result h).imp hended id
  | close call hclose =>
    obtain ⟨_, _, _, rfl⟩ := closeStep_frame hclose
    exact hs
  | requestClose => exact hs
  | report => exact hs

def statementsLeft : ProduceStep → ℕ
  | .readToPoll => 5
  | .poll => 4
  | .testOutcome => 3
  | .testClosing => 2
  | .testDeadline => 1
  | _ => 0

def executes (task : τ) : ProducerEvent τ ι → Bool
  | .produce other _ => other = task
  | _ => false

theorem step_thread {s t : ProducerService τ ι} {event : ProducerEvent τ ι} {task : τ}
    (hstep : Step py seconds s event t) (h : executes task event = false) :
    t.thread task = s.thread task := by
  cases step_effect hstep with
  | produce other choice _ heffect =>
    apply produceEffect_thread_of_ne heffect
    exact Ne.symm (by simpa [executes] using h)
  | close call hclose =>
    obtain ⟨_, _, _, rfl⟩ := closeStep_frame hclose
    rfl
  | _ => rfl

omit [DecidableEq ι] in
/-- A statement of a thread whose record is queued, once its deadline has passed. -/
theorem expired_statement {s t : ProducerService τ ι} {task : τ} (hlate : ¬ Early (s.thread task))
    (h : s.produceStep py seconds task .expired = some t) :
    ¬ Early (t.thread task) ∧ statementsLeft (t.thread task) < statementsLeft (s.thread task) := by
  cases hthread : s.thread task with
  | testOutcome =>
    cases houtcome : s.outcome task <;>
      simp only [produceStep, hthread, houtcome, Option.some.injEq] at h <;> subst h <;>
        simp [Early, statementsLeft]
  | testClosing =>
    simp only [produceStep, hthread, Option.some.injEq] at h
    split_ifs at h <;> subst h <;> simp [raise, Early, statementsLeft]
  | testDeadline =>
    simp only [produceStep, hthread, Option.some.injEq] at h
    subst h
    simp [raise, Early, statementsLeft]
  | readToPoll =>
    simp only [produceStep, hthread, Option.some.injEq] at h
    split_ifs at h <;> subst h <;> simp [raise, Early, statementsLeft]
  | poll =>
    simp only [produceStep, hthread, Option.some.injEq] at h
    subst h
    simp [Early, statementsLeft]
  | ended result => simp [produceStep, hthread] at h
  | _ => simp [hthread, Early] at hlate

theorem expired_run {s t : ProducerService τ ι} {later : List (ProducerEvent τ ι)} {task : τ}
    (hrun : Run (Step py seconds) s later t) (hlate : ¬ Early (s.thread task))
    (hexpired : ∀ choice, .produce task choice ∈ later → choice = .expired) :
    ¬ Early (t.thread task) ∧
      later.countP (executes task) + statementsLeft (t.thread task) ≤
        statementsLeft (s.thread task) := by
  induction hrun with
  | nil => exact ⟨hlate, by simp⟩
  | @snoc events u t event _ hstep ih =>
    obtain ⟨hmid, hcount⟩ := ih fun choice h => hexpired choice (List.mem_append_left _ h)
    rw [List.countP_append]
    cases hexecutes : executes task event with
    | false =>
      rw [step_thread hstep hexecutes]
      exact ⟨hmid, by simpa [hexecutes] using hcount⟩
    | true =>
      cases event with
      | produce other choice =>
        obtain rfl : other = task := by simpa [executes] using hexecutes
        obtain rfl := hexpired choice (List.mem_append_right _ List.mem_cons_self)
        have hstatement : u.produceStep py seconds other .expired = some t := by
          rw [Step, step] at hstep
          split at hstep
          · exact hstep
          · cases hstep
        obtain ⟨hafter, hfewer⟩ := expired_statement hmid hstatement
        have hone : [ProducerEvent.produce (ι := ι) other .expired].countP (executes other) = 1 := by
          simp [executes]
        exact ⟨hafter, by omega⟩
      | _ => cases hexecutes

omit [DecidableEq ι] in
/-- A thread whose record is queued has ended, or has a next statement. -/
theorem exists_expired_statement (py : Interpreter F E) (seconds : Text)
    {s : ProducerService τ ι} {task : τ} (hlate : ¬ Early (s.thread task)) :
    (∃ result, s.thread task = .ended result) ∨
      (0 < statementsLeft (s.thread task) ∧ ∃ t, s.produceStep py seconds task .expired = some t) := by
  cases hthread : s.thread task with
  | ended result => exact .inl ⟨result, rfl⟩
  | testOutcome =>
    refine .inr ⟨Nat.succ_pos _, ?_⟩
    cases houtcome : s.outcome task <;> simp [produceStep, hthread, houtcome]
  | testClosing => exact .inr ⟨Nat.succ_pos _, by simp [produceStep, hthread]⟩
  | testDeadline => exact .inr ⟨Nat.succ_pos _, by simp [produceStep, hthread]⟩
  | readToPoll => exact .inr ⟨Nat.succ_pos _, by simp [produceStep, hthread]⟩
  | poll => exact .inr ⟨Nat.succ_pos _, by simp [produceStep, hthread]⟩
  | _ => simp [hthread, Early] at hlate

/-- As long as no client is dropped under a thread that is about to poll, a call that has queued
its record ends with a delivery or a `DeliveryError`, at the latest five statements after its
deadline. -/
theorem queued_record_expected {events : List (ProducerEvent τ ι)} {s : ProducerService τ ι}
    (hrun : Run (fun s event t => Step py seconds s event t ∧ KeepsClient py s event) {} events s)
    {queued : QueuedRecord τ} (hqueued : queued ∈ s.queued) :
    (∀ result, s.returned queued.record = some result → Expected result) ∧
    (∀ result, s.thread queued.record = .ended result → Expected result) ∧
    ∀ later t, Run (Step py seconds) s later t →
      (∀ choice, .produce queued.record choice ∈ later → choice = .expired) →
      later.countP (executes queued.record) ≤ 5 ∧
        ((∃ result, t.thread queued.record = .ended result) ∨
          later.countP (executes queued.record) < 5 ∧
            (t.tasks.calls queued.record = some ((), true) →
              ∃ u, Step py seconds t (.produce queued.record .expired) u)) := by
  obtain ⟨horderly, hreturns, hrefuses⟩ : Orderly py s ∧ Returns s ∧ Refuses s := by
    refine hrun.invariant (I := fun s => Orderly py s ∧ Returns s ∧ Refuses s) ?_ ⟨?_, nofun, ?_⟩
    · rintro _ _ _ ⟨ho, hr, hf⟩ ⟨hstep, hkeeps⟩
      exact ⟨orderly_step ho hstep hkeeps, returns_step hr hstep, refuses_step hf hstep⟩
    · constructor <;> simp [Started, BeforePoll]
    · constructor <;> simp
  refine ⟨fun result hresult => ?_, horderly.concluded queued hqueued,
    fun later t hlater hexpired => ?_⟩
  · rcases hreturns _ result hresult with hended | hrefused
    · exact horderly.concluded queued hqueued result hended
    · exact absurd rfl ((hrefuses.idle _ (.inr hrefused)).2 queued hqueued)
  · obtain ⟨hlate, hcount⟩ := expired_run hlater (horderly.queuedLate queued hqueued) hexpired
    have hbound : statementsLeft (s.thread queued.record) ≤ 5 := by
      cases s.thread queued.record <;> simp [statementsLeft]
    refine ⟨by omega, (exists_expired_statement py seconds hlate).imp id ?_⟩
    rintro ⟨hleft, u, hu⟩
    refine ⟨by omega, fun hcall => ⟨u, ?_⟩⟩
    rw [Step, step, hcall]
    exact hu

/-- A thread that executes nothing in a run stands where it stood. -/
theorem run_thread {events : List (ProducerEvent τ ι)} {start s : ProducerService τ ι} {task : τ}
    (hrun : Run (Step py seconds) start events s)
    (h : ∀ event ∈ events, executes task event = false) : s.thread task = start.thread task := by
  induction hrun with
  | nil => rfl
  | snoc _ hstep ih =>
    rw [step_thread hstep (h _ (List.mem_append_right _ List.mem_cons_self))]
    exact ih fun event hevent => h event (List.mem_append_left _ hevent)

/-- A run in which the client is dropped while no thread is about to poll. -/
theorem run_keepsClient {events : List (ProducerEvent τ ι)} {s t : ProducerService τ ι}
    (hrun : Run (Step py seconds) s events t) (hpoll : ∀ task, ¬ BeforePoll (s.thread task))
    (hcloses : ∀ event ∈ events, ∃ call, event = .close call) :
    Run (fun s event t => Step py seconds s event t ∧ KeepsClient py s event) s events t := by
  refine hrun.restrict fun before u hbefore hsub event hevent => ?_
  obtain ⟨call, rfl⟩ := hcloses event hevent
  intro _ task
  have hkept : u.thread task = s.thread task := by
    refine run_thread hbefore fun earlier hearlier => ?_
    obtain ⟨_, rfl⟩ := hcloses earlier (hsub hearlier)
    rfl
  exact hkept ▸ hpoll task

theorem not_beforePoll_of_run {events : List (ProducerEvent τ ι)} {s : ProducerService τ ι}
    (hrun : ProducerRun py seconds events s) (task : τ) (h : ¬ BeforePoll (s.thread task))
    (honly : ∀ event ∈ events, ∀ other ≠ task, executes other event = false) (other : τ) :
    ¬ BeforePoll (s.thread other) := by
  by_cases hsame : other = task
  · exact hsame ▸ h
  · rw [run_thread hrun fun event hevent => honly event hevent other hsame]
    exact id

theorem executes_startEvents (task statements : ℕ) :
    ∀ event ∈ startEvents task statements, ∀ other ≠ task, executes other event = false := by
  intro event hevent other hother
  simp only [startEvents, List.mem_append, List.mem_cons, List.not_mem_nil, or_false,
    List.mem_replicate] at hevent
  rcases hevent with (rfl | rfl | rfl) | ⟨-, rfl⟩
  · rfl
  · rfl
  · rfl
  · exact decide_eq_false hother.symm

/-- The client is dropped while the thread polls. -/
theorem droppedDuringPoll_expected :
    ∃ s, ProducerRun Interpreter.plain (text "45")
        (startEvents 0 9 ++ List.replicate 5 (.close 0) ++
          (List.replicate 3 (.produce 0 .succeeds) ++ endEvents 0)) s ∧
      ∃ result, s.returned 0 = some result ∧ Expected result := by
  let kept (s : ProducerService ℕ ℕ) (event : ProducerEvent ℕ ℕ)
      (t : ProducerService ℕ ℕ) : Prop :=
    Step Interpreter.plain (text "45") s event t ∧ KeepsClient Interpreter.plain s event
  have hstart : ProducerRun Interpreter.plain (text "45") (startEvents 0 9) _ := .of_foldlM rfl
  have hpolling : Run kept {} (startEvents 0 9) _ :=
    hstart.restrict (by simp [startEvents, KeepsClient])
  have hdropped : Run kept {} (startEvents 0 9 ++ List.replicate 5 (.close 0)) _ :=
    hpolling.append (run_keepsClient (.of_foldlM rfl)
      (not_beforePoll_of_run hstart 0 id (executes_startEvents 0 9)) (by simp))
  have hended : Run kept {} (startEvents 0 9 ++ List.replicate 5 (.close 0) ++
      (List.replicate 3 (.produce 0 .succeeds) ++ endEvents 0)) _ :=
    hdropped.append (Run.restrict (.of_foldlM rfl) (by simp [endEvents, KeepsClient]))
  exact ⟨_, .of_foldlM rfl, _, rfl, (queued_record_expected hended List.mem_cons_self).1 _ rfl⟩

/-- The condition is sharp: a thread under which the client is dropped can read an attribute of
`None`. -/
theorem dropped_client_attributeError {s : ProducerService τ ι} {task : τ} {call : ι}
    (hcall : s.tasks.calls task = some ((), true)) (hpoll : BeforePoll (s.thread task))
    (hclear : s.closer call = .clear) :
    ∃ later t, Run (Step py seconds) s (.close call :: later) t ∧
      t.thread task = .ended (.error .attributeError) := by
  let dropped : ProducerService τ ι := { s.closeTo call .ended with client := false }
  have hdrop : Step py seconds s (.close call) dropped := by
    simp [Step, step, closeStep, hclear, dropped]
  cases hthread : s.thread task with
  | readToPoll =>
    refine ⟨[.produce task .succeeds], dropped.raise task .attributeError,
      .cons hdrop (Run.nil.snoc ?_), goTo_thread_self _ _ _⟩
    simp [Step, step, produceStep, closeTo, hcall, hthread, dropped]
  | testDeadline =>
    let waiting := dropped.goTo task .readToPoll
    have hwaits : Step py seconds dropped (.produce task .succeeds) waiting := by
      simp [Step, step, produceStep, closeTo, hcall, hthread, dropped, waiting]
    refine ⟨[.produce task .succeeds, .produce task .succeeds], waiting.raise task .attributeError,
      .cons hdrop (.cons hwaits (Run.nil.snoc ?_)), goTo_thread_self _ _ _⟩
    simp [Step, step, produceStep, goTo, closeTo, hcall, dropped, waiting]
  | _ => simp [hthread, BeforePoll] at hpoll

def droppedBeforePoll : List (ProducerEvent ℕ ℕ) :=
  startEvents 0 8 ++ List.replicate 5 (.close 0) ++ [.produce 0 .succeeds] ++ endEvents 0

theorem droppedBeforePoll_attributeError :
    ∃ s, ProducerRun Interpreter.plain (text "45") droppedBeforePoll s ∧
      (∀ task, .task (.cancel task) ∉ droppedBeforePoll) ∧ ⟨0, 0⟩ ∈ s.queued ∧
      s.returned 0 = some (.error .attributeError) ∧
      ¬ Expected (.error .attributeError) := by
  have hrun : ProducerRun Interpreter.plain (text "45") droppedBeforePoll _ := .of_foldlM rfl
  refine ⟨_, hrun, ?_, List.mem_cons_self, rfl, id⟩
  intro task
  simp [droppedBeforePoll, startEvents, endEvents]

end ProducerService

end Kaskade
