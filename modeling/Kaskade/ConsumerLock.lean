import Kaskade.BlockingCalls

/-!
# The operation lock of a consumer

`ConsumerService.consume` and `aclose` make their blocking calls on the Kafka client under one
lock, through `run_blocking`. Tasks of either kind may run at any time and be cancelled at any of
their awaits.
-/

namespace Kaskade

open Python

inductive ConsumerTask where
  | consume
  | aclose
  deriving DecidableEq

inductive ConsumerCall where
  | start
  | consume
  | recordsFromBatch
  | close
  deriving DecidableEq

/-- Which call follows which, or ends the task: `_consume` starts the consumer unless it is
started, and polls until a page is full or its retries are used up, with each batch that is not
empty converted in a call of its own; any call may raise. -/
def ConsumerTask.follows : ConsumerTask → Option ConsumerCall → Option ConsumerCall → Bool
  | .consume, none, some .start => true
  | .consume, none, some .consume => true
  | .consume, none, none => true
  | .consume, some .start, some .consume => true
  | .consume, some .consume, some .consume => true
  | .consume, some .consume, some .recordsFromBatch => true
  | .consume, some .recordsFromBatch, some .consume => true
  | .consume, some .close, none => false
  | .consume, some _, none => true
  | .aclose, none, some .close => true
  | .aclose, some .close, none => true
  | _, _, _ => false

/-- The tasks of a consumer and the coroutines they run. -/
abbrev ConsumerRun {τ : Type} [DecidableEq τ] (coroutine : τ → ConsumerTask) :=
  Run (LockedTasks.Step true fun task => (coroutine task).follows) ({} : LockedTasks τ ConsumerCall)

/-- As long as no task is cancelled twice, at most one call has been issued and has not ended;
in particular, no other call runs while the client closes. -/
theorem consumer_calls_exclusive {τ : Type} [DecidableEq τ] {coroutine : τ → ConsumerTask}
    {events : List (TaskEvent τ ConsumerCall)} {s : LockedTasks τ ConsumerCall}
    (hrun : ConsumerRun coroutine events s)
    (honce : ∀ task, events.countP (·.cancels task) ≤ 1) :
    (∀ task other, s.calls task ≠ none → s.calls other ≠ none → task = other) ∧
      ∀ closer, s.calls closer = some (.close, true) → ∀ other ≠ closer, s.calls other = none := by
  have hs := LockedTasks.exclusive_of_run hrun honce
  refine ⟨fun task other => hs.calls_unique, fun closer hclose other hother => ?_⟩
  by_contra hcall
  exact hother (hs.calls_unique hcall (by simp [hclose]))

/-- A page is cancelled while its consumer starts; the client closes after the start has ended. -/
theorem close_after_cancelled_start :
    let coroutine : ℕ → ConsumerTask := fun task => if task = 0 then .consume else .aclose
    ∃ s, ConsumerRun coroutine [.acquire 0, .issue 0 .start, .threadStart 0, .cancel 0,
        .threadEnd 0, .resume 0, .acquire 1, .issue 1 .close, .threadStart 1] s ∧
      s.calls 1 = some (.close, true) ∧ ∀ other ≠ 1, s.calls other = none := by
  intro coroutine
  have hrun : ConsumerRun coroutine [.acquire 0, .issue 0 .start, .threadStart 0, .cancel 0,
      .threadEnd 0, .resume 0, .acquire 1, .issue 1 .close, .threadStart 1] _ := .of_foldlM rfl
  refine ⟨_, hrun, rfl, (consumer_calls_exclusive hrun ?_).2 1 rfl⟩
  intro task
  by_cases htask : task = 0
  · subst htask
    decide
  · simp [TaskEvent.cancels, Ne.symm htask]

end Kaskade
