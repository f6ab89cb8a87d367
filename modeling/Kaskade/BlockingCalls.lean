import Kaskade.Runs
import Mathlib.Data.List.Count
import Mathlib.Logic.Function.Basic

/-!
# Blocking calls under a lock

Tasks of an event loop that share a lock, and that make calls in worker threads while they hold
it. A thread cannot be interrupted: a task that is cancelled during a call waits for its end
before it lets go of the lock, unless it is cancelled again. Which call may follow which is a
parameter.
-/

namespace Kaskade.Python

/-- Where a task stands; `κ` are the calls. -/
inductive TaskPhase (κ : Type) where
  /-- It does not hold the lock yet. -/
  | waiting
  /-- It holds the lock, after its last call. -/
  | inside (last : Option κ)
  /-- It holds the lock and waits for the end of a call. -/
  | awaiting (call : κ) (cancelled : Bool)
  /-- It found the lock taken and gave up. -/
  | refused
  | finished

/-- The tasks `τ`, the holder of the lock, and the calls that have not ended, each with whether
its thread has started. -/
structure LockedTasks (τ κ : Type) where
  phase : τ → TaskPhase κ := fun _ => .waiting
  holder : Option τ := none
  calls : τ → Option (κ × Bool) := fun _ => none

inductive TaskEvent (τ κ : Type) where
  | acquire (task : τ)
  | refuse (task : τ)
  | issue (task : τ) (call : κ)
  | threadStart (task : τ)
  | threadEnd (task : τ)
  /-- The task resumes after the end of its call. -/
  | resume (task : τ)
  | leave (task : τ)
  | cancel (task : τ)

variable {τ κ : Type} [DecidableEq τ]

def TaskEvent.cancels (task : τ) : TaskEvent τ κ → Bool
  | .cancel other => other = task
  | _ => false

namespace LockedTasks

def enter (s : LockedTasks τ κ) (task : τ) (phase : TaskPhase κ) : LockedTasks τ κ :=
  { s with phase := Function.update s.phase task phase }

/-- The task ends and lets go of the lock. -/
def release (s : LockedTasks τ κ) (task : τ) : LockedTasks τ κ :=
  { s.enter task .finished with holder := none }

def setCall (s : LockedTasks τ κ) (task : τ) (call : Option (κ × Bool)) : LockedTasks τ κ :=
  { s with calls := Function.update s.calls task call }

/-- The state after an event that can happen, where `blocking` tells whether a task waits for a
lock that is taken, and `follows task last next` whether it may make the call `next`, or leave,
after its last call. -/
def step (blocking : Bool) (follows : τ → Option κ → Option κ → Bool) (s : LockedTasks τ κ) :
    TaskEvent τ κ → Option (LockedTasks τ κ)
  | .acquire task =>
    match s.phase task, s.holder with
    | .waiting, none => some { s.enter task (.inside none) with holder := some task }
    | _, _ => none
  | .refuse task =>
    match s.phase task, s.holder with
    | .waiting, some _ => if blocking then none else some (s.enter task .refused)
    | _, _ => none
  | .issue task call =>
    match s.phase task with
    | .inside last =>
      if follows task last (some call) then
        some ((s.enter task (.awaiting call false)).setCall task (some (call, false)))
      else none
    | _ => none
  | .threadStart task =>
    match s.calls task with
    | some (call, false) => some (s.setCall task (some (call, true)))
    | _ => none
  | .threadEnd task =>
    match s.calls task with
    | some (_, true) => some (s.setCall task none)
    | _ => none
  | .resume task =>
    match s.phase task, s.calls task with
    | .awaiting call false, none => some (s.enter task (.inside (some call)))
    | .awaiting _ true, none => some (s.release task)
    | _, _ => none
  | .leave task =>
    match s.phase task with
    | .inside last => if follows task last none then some (s.release task) else none
    | _ => none
  | .cancel task =>
    match s.phase task with
    | .waiting => some (s.enter task .finished)
    | .awaiting call false => some (s.enter task (.awaiting call true))
    -- a second cancellation stops the wait, not the call
    | .awaiting _ true => some (s.release task)
    | _ => none

def Step (blocking : Bool) (follows : τ → Option κ → Option κ → Bool) (s : LockedTasks τ κ)
    (event : TaskEvent τ κ) (t : LockedTasks τ κ) : Prop :=
  s.step blocking follows event = some t

/-- The effect of an event, and the phase or the call that it needs. -/
inductive Effect (s : LockedTasks τ κ) : TaskEvent τ κ → LockedTasks τ κ → Prop where
  | acquire (task : τ) : s.phase task = .waiting → s.holder = none →
      Effect s (.acquire task) { s.enter task (.inside none) with holder := some task }
  | refuse (task : τ) : s.phase task = .waiting → Effect s (.refuse task) (s.enter task .refused)
  | issue (task : τ) (last : Option κ) (call : κ) : s.phase task = .inside last →
      Effect s (.issue task call)
        ((s.enter task (.awaiting call false)).setCall task (some (call, false)))
  | threadStart (task : τ) (call : κ) : s.calls task = some (call, false) →
      Effect s (.threadStart task) (s.setCall task (some (call, true)))
  | threadEnd (task : τ) : Effect s (.threadEnd task) (s.setCall task none)
  | resume (task : τ) (call : κ) : s.phase task = .awaiting call false → s.calls task = none →
      Effect s (.resume task) (s.enter task (.inside (some call)))
  | stop (task : τ) (call : κ) : s.phase task = .awaiting call true → s.calls task = none →
      Effect s (.resume task) (s.release task)
  | leave (task : τ) (last : Option κ) : s.phase task = .inside last →
      Effect s (.leave task) (s.release task)
  | cancelWaiting (task : τ) : s.phase task = .waiting →
      Effect s (.cancel task) (s.enter task .finished)
  | cancelCall (task : τ) (call : κ) : s.phase task = .awaiting call false →
      Effect s (.cancel task) (s.enter task (.awaiting call true))
  | cancelAgain (task : τ) (call : κ) : s.phase task = .awaiting call true →
      Effect s (.cancel task) (s.release task)

theorem step_effect {blocking : Bool} {follows : τ → Option κ → Option κ → Bool}
    {s t : LockedTasks τ κ} {event : TaskEvent τ κ} (h : Step blocking follows s event t) :
    Effect s event t := by
  rw [Step] at h
  cases event with
  | acquire task =>
    simp only [step] at h
    split at h
    · rename_i hphase hfree
      exact Option.some.inj h ▸ .acquire task hphase hfree
    · cases h
  | refuse task =>
    simp only [step] at h
    split at h
    · rename_i hphase _
      split_ifs at h
      exact Option.some.inj h ▸ .refuse task hphase
    · cases h
  | issue task call =>
    simp only [step] at h
    split at h
    · rename_i last hphase
      split_ifs at h
      exact Option.some.inj h ▸ .issue task last call hphase
    · cases h
  | threadStart task =>
    simp only [step] at h
    split at h
    · rename_i call hcall
      exact Option.some.inj h ▸ .threadStart task call hcall
    · cases h
  | threadEnd task =>
    simp only [step] at h
    split at h
    · exact Option.some.inj h ▸ .threadEnd task
    · cases h
  | resume task =>
    simp only [step] at h
    split at h
    · rename_i call hphase hcall
      exact Option.some.inj h ▸ .resume task call hphase hcall
    · rename_i call hphase hcall
      exact Option.some.inj h ▸ .stop task call hphase hcall
    · cases h
  | leave task =>
    simp only [step] at h
    split at h
    · rename_i last hphase
      split_ifs at h
      exact Option.some.inj h ▸ .leave task last hphase
    · cases h
  | cancel task =>
    simp only [step] at h
    split at h
    · rename_i hphase
      exact Option.some.inj h ▸ .cancelWaiting task hphase
    · rename_i call hphase
      exact Option.some.inj h ▸ .cancelCall task call hphase
    · rename_i call hphase
      exact Option.some.inj h ▸ .cancelAgain task call hphase
    · cases h

def Holds : TaskPhase κ → Prop
  | .inside _ | .awaiting _ _ => True
  | _ => False

/-- Whoever is inside holds the lock, and calls are unfinished only of tasks that wait for them. -/
structure Exclusive (s : LockedTasks τ κ) : Prop where
  holds : ∀ task, Holds (s.phase task) → s.holder = some task
  awaited : ∀ task call, s.calls task = some call →
    ∃ cancelled, s.phase task = .awaiting call.1 cancelled

/-- The event does not cancel a task that was cancelled and still waits. -/
def CancelsOnce (s : LockedTasks τ κ) : TaskEvent τ κ → Prop
  | .cancel task => ∀ call, s.phase task ≠ .awaiting call true
  | _ => True

section Invariant

omit [DecidableEq τ]

variable {s t : LockedTasks τ κ}

theorem Exclusive.holder_unique (hs : s.Exclusive) {task other : τ} (h : Holds (s.phase task))
    (h' : Holds (s.phase other)) : task = other :=
  Option.some.inj ((hs.holds task h).symm.trans (hs.holds other h'))

theorem Exclusive.calls_unique (hs : s.Exclusive) {task other : τ} (h : s.calls task ≠ none)
    (h' : s.calls other ≠ none) : task = other := by
  obtain ⟨call, hcall⟩ := Option.ne_none_iff_exists'.mp h
  obtain ⟨call', hcall'⟩ := Option.ne_none_iff_exists'.mp h'
  obtain ⟨_, hphase⟩ := hs.awaited task call hcall
  obtain ⟨_, hphase'⟩ := hs.awaited other call' hcall'
  exact hs.holder_unique (by simp [hphase, Holds]) (by simp [hphase', Holds])

theorem Exclusive.calls_none (hs : s.Exclusive) {task : τ} (h : ¬ Holds (s.phase task)) :
    s.calls task = none := by
  cases hcall : s.calls task with
  | none => rfl
  | some call =>
    obtain ⟨_, hphase⟩ := hs.awaited task call hcall
    exact absurd (by simp [hphase, Holds]) h

theorem Exclusive.of_task (hs : s.Exclusive) (task : τ)
    (hothers : ∀ other ≠ task, t.phase other = s.phase other ∧ t.calls other = s.calls other)
    (hholder : ∀ other ≠ task, Holds (s.phase other) → t.holder = some other)
    (hholds : Holds (t.phase task) → t.holder = some task)
    (hawaited : ∀ call, t.calls task = some call →
      ∃ cancelled, t.phase task = .awaiting call.1 cancelled) : t.Exclusive := by
  constructor
  · intro other h
    by_cases hother : other = task
    · subst hother
      exact hholds h
    · rw [(hothers other hother).1] at h
      exact hholder other hother h
  · intro other call hcall
    by_cases hother : other = task
    · subst hother
      exact hawaited call hcall
    · rw [(hothers other hother).2] at hcall
      rw [(hothers other hother).1]
      exact hs.awaited other call hcall

end Invariant

variable {blocking : Bool} {follows : τ → Option κ → Option κ → Bool} {s t : LockedTasks τ κ}

theorem exclusive_release (hs : s.Exclusive) {task : τ} (hholds : Holds (s.phase task))
    (hcall : s.calls task = none) : (s.release task).Exclusive := by
  apply hs.of_task task
  · intro other hother
    exact ⟨Function.update_of_ne hother _ _, rfl⟩
  · exact fun other hother h => absurd (hs.holder_unique h hholds) hother
  · intro h
    simp [release, enter, Holds] at h
  · intro call h
    exact absurd (h.symm.trans hcall) nofun

/-- A task without the lock that stays without it. -/
theorem exclusive_enter_outside (hs : s.Exclusive) {task : τ} {phase : TaskPhase κ}
    (hbefore : ¬ Holds (s.phase task)) (hafter : ¬ Holds phase) :
    (s.enter task phase).Exclusive := by
  apply hs.of_task task
  · exact fun other hother => ⟨Function.update_of_ne hother _ _, rfl⟩
  · exact fun other _ h => hs.holds other h
  · intro h
    simp only [enter, Function.update_self] at h
    exact absurd h hafter
  · intro call h
    exact absurd (h.symm.trans (hs.calls_none hbefore)) nofun

theorem exclusive_enter_inside (hs : s.Exclusive) {task : τ} {phase : TaskPhase κ}
    (hbefore : Holds (s.phase task))
    (hcall : ∀ call, s.calls task = some call → ∃ cancelled, phase = .awaiting call.1 cancelled) :
    (s.enter task phase).Exclusive := by
  apply hs.of_task task
  · exact fun other hother => ⟨Function.update_of_ne hother _ _, rfl⟩
  · exact fun other _ h => hs.holds other h
  · exact fun _ => hs.holds task hbefore
  · simpa [enter] using hcall

theorem exclusive_setCall (hs : s.Exclusive) {task : τ} {call : Option (κ × Bool)}
    (hcall : ∀ c, call = some c → ∃ cancelled, s.phase task = .awaiting c.1 cancelled) :
    (s.setCall task call).Exclusive := by
  apply hs.of_task task
  · exact fun other hother => ⟨rfl, Function.update_of_ne hother _ _⟩
  · exact fun other _ h => hs.holds other h
  · exact hs.holds task
  · simpa [setCall] using hcall

theorem Effect.exclusive {event : TaskEvent τ κ} (h : Effect s event t) (hs : s.Exclusive)
    (honce : s.CancelsOnce event) : t.Exclusive := by
  cases h with
  | acquire task hphase hfree =>
    apply hs.of_task task
    · exact fun other hother => ⟨Function.update_of_ne hother _ _, rfl⟩
    · exact fun other _ h => absurd ((hs.holds other h).symm.trans hfree) nofun
    · exact fun _ => rfl
    · intro call hcall
      exact absurd (hcall.symm.trans (hs.calls_none (by simp [hphase, Holds]))) nofun
  | refuse task hphase => exact exclusive_enter_outside hs (by simp [hphase, Holds]) id
  | issue task last call hphase =>
    apply hs.of_task task
    · exact fun other hother =>
        ⟨Function.update_of_ne hother _ _, Function.update_of_ne hother _ _⟩
    · exact fun other _ h => hs.holds other h
    · exact fun _ => hs.holds task (by simp [hphase, Holds])
    · simp [setCall, enter]
  | threadStart task call hcall =>
    apply exclusive_setCall hs
    rintro _ ⟨⟩
    exact hs.awaited task (call, false) hcall
  | threadEnd task => exact exclusive_setCall hs nofun
  | resume task call hphase hcall =>
    exact exclusive_enter_inside hs (by simp [hphase, Holds]) fun c hc =>
      absurd (hc.symm.trans hcall) nofun
  | stop task call hphase hcall => exact exclusive_release hs (by simp [hphase, Holds]) hcall
  | leave task last hphase =>
    apply exclusive_release hs (by simp [hphase, Holds])
    cases hcall : s.calls task with
    | none => rfl
    | some call =>
      obtain ⟨_, hawaiting⟩ := hs.awaited task call hcall
      simp [hphase] at hawaiting
  | cancelWaiting task hphase => exact exclusive_enter_outside hs (by simp [hphase, Holds]) id
  | cancelCall task call hphase =>
    apply exclusive_enter_inside hs (by simp [hphase, Holds])
    intro c hc
    obtain ⟨_, hawaiting⟩ := hs.awaited task c hc
    rw [hphase, TaskPhase.awaiting.injEq] at hawaiting
    exact ⟨true, by rw [hawaiting.1]⟩
  | cancelAgain task call hphase => exact absurd hphase (honce call)

theorem phase_of_update {f : τ → TaskPhase κ} {task other : τ} {before after : TaskPhase κ}
    (h : Function.update f other after task = before) (hne : after ≠ before) : f task = before := by
  by_cases hsame : task = other
  · subst hsame
    rw [Function.update_self] at h
    exact absurd h hne
  · rwa [Function.update_of_ne hsame] at h

/-- A task that still waits although it was cancelled did so before, or is cancelled now. -/
theorem Effect.cancelled {event : TaskEvent τ κ} (heffect : Effect s event t) {task : τ} {call : κ}
    (h : t.phase task = .awaiting call true) :
    s.phase task = .awaiting call true ∨ event = .cancel task := by
  cases heffect with
  | cancelCall other _ _ =>
    by_cases hsame : task = other
    · exact .inr (hsame ▸ rfl)
    · exact .inl ((Function.update_of_ne hsame _ _).symm.trans h)
  | threadStart | threadEnd => exact .inl h
  | issue => exact .inl (phase_of_update h (by simp))
  | _ => exact .inl (phase_of_update h nofun)

def Outside (phase : TaskPhase κ) : Prop := phase = .waiting ∨ phase = .refused

/-- A task outside was outside before, has no call if it had none, and is only refused when the
event refuses it. -/
theorem Effect.outside {event : TaskEvent τ κ} (heffect : Effect s event t) {task : τ}
    (h : Outside (t.phase task)) :
    Outside (s.phase task) ∧ (s.calls task = none → t.calls task = none) ∧
      (t.phase task = .refused → s.phase task = .refused ∨ event = .refuse task) := by
  have hkept : t.phase task = s.phase task → (s.calls task = none → t.calls task = none) →
      Outside (s.phase task) ∧ (s.calls task = none → t.calls task = none) ∧
        (t.phase task = .refused → s.phase task = .refused ∨ event = .refuse task) :=
    fun hphase hcalls => ⟨hphase ▸ h, hcalls, fun hrefused => .inl (hphase ▸ hrefused)⟩
  have hne : ∀ {other phase}, Function.update s.phase other phase task = t.phase task →
      ¬ Outside phase → task ≠ other := by
    rintro other phase hphase houtside rfl
    rw [Function.update_self] at hphase
    exact houtside (hphase ▸ h)
  cases heffect with
  | refuse other hphase =>
    by_cases hsame : task = other
    · subst hsame
      exact ⟨.inl hphase, id, fun _ => .inr rfl⟩
    · exact hkept (Function.update_of_ne hsame _ _) id
  | issue other last call _ =>
    have hother : task ≠ other := hne rfl (by simp [Outside])
    refine hkept (Function.update_of_ne hother _ _) fun hcalls => ?_
    exact (Function.update_of_ne hother _ _).trans hcalls
  | threadStart other call hcall =>
    refine hkept rfl fun hcalls => ?_
    have hother : task ≠ other := by
      rintro rfl
      simp [hcall] at hcalls
    exact (Function.update_of_ne hother _ _).trans hcalls
  | threadEnd other =>
    refine hkept rfl fun hcalls => ?_
    by_cases hsame : task = other
    · subst hsame
      exact Function.update_self _ _ _
    · exact (Function.update_of_ne hsame _ _).trans hcalls
  | _ => exact hkept (Function.update_of_ne (hne rfl (by simp [Outside])) _ _) id

theorem Effect.done {event : TaskEvent τ κ} (heffect : Effect s event t) {task : τ}
    (h : s.phase task = .refused ∨ s.phase task = .finished) : t.phase task = s.phase task := by
  have hne : ∀ {other phase}, s.phase other = phase → phase ≠ .refused → phase ≠ .finished →
      task ≠ other := by
    rintro other phase hphase hrefused hfinished rfl
    rcases h with h | h
    · exact hrefused (hphase.symm.trans h)
    · exact hfinished (hphase.symm.trans h)
  cases heffect with
  | threadStart | threadEnd => rfl
  | acquire other hphase _ => exact Function.update_of_ne (hne hphase nofun nofun) _ _
  | refuse other hphase => exact Function.update_of_ne (hne hphase nofun nofun) _ _
  | issue other last call hphase => exact Function.update_of_ne (hne hphase nofun nofun) _ _
  | resume other call hphase _ => exact Function.update_of_ne (hne hphase nofun nofun) _ _
  | stop other call hphase _ => exact Function.update_of_ne (hne hphase nofun nofun) _ _
  | leave other last hphase => exact Function.update_of_ne (hne hphase nofun nofun) _ _
  | cancelWaiting other hphase => exact Function.update_of_ne (hne hphase nofun nofun) _ _
  | cancelCall other call hphase => exact Function.update_of_ne (hne hphase nofun nofun) _ _
  | cancelAgain other call hphase => exact Function.update_of_ne (hne hphase nofun nofun) _ _

/-- As long as no task is cancelled twice, at most one call has not ended, in every state. -/
theorem exclusive_of_run {events : List (TaskEvent τ κ)} (hrun : Run (Step blocking follows) {} events s)
    (honce : ∀ task, events.countP (·.cancels task) ≤ 1) : s.Exclusive := by
  suffices h : s.Exclusive ∧ ∀ task call, s.phase task = .awaiting call true →
      .cancel task ∈ events from h.1
  induction hrun with
  | nil => exact ⟨⟨nofun, nofun⟩, nofun⟩
  | @snoc events s t event hrun hstep ih =>
    have htotal : ∀ task, events.countP (·.cancels task) + [event].countP (·.cancels task) ≤ 1 :=
      fun task => List.countP_append ▸ honce task
    obtain ⟨hs, hcancelled⟩ := ih fun task => Nat.le_trans (Nat.le_add_right _ _) (htotal task)
    have hcancels : s.CancelsOnce event := by
      cases event with
      | cancel task =>
        intro call hphase
        -- the run would hold a cancellation before this one
        have hfirst : 0 < events.countP (·.cancels task) :=
          List.countP_pos_iff.mpr ⟨_, hcancelled task call hphase, decide_eq_true rfl⟩
        have hlast : [TaskEvent.cancel (κ := κ) task].countP (·.cancels task) = 1 := by
          simp [TaskEvent.cancels]
        have hboth := htotal task
        omega
      | _ => trivial
    refine ⟨(step_effect hstep).exclusive hs hcancels, fun task call h => ?_⟩
    rcases (step_effect hstep).cancelled h with hphase | rfl
    · exact List.mem_append_left _ (hcancelled task call hphase)
    · exact List.mem_append_right _ List.mem_cons_self

end LockedTasks

end Kaskade.Python
