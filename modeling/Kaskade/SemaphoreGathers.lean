import Kaskade.Runs
import Mathlib.Algebra.BigOperators.Group.List.Basic
import Mathlib.Algebra.Order.Ring.Nat
import Mathlib.Data.List.Nodup
import Mathlib.Data.List.Perm.Basic

/-!
# Calls gathered behind a semaphore

Tasks that each make one call while they hold a slot of an `asyncio.Semaphore`, gathered by
`asyncio.gather`. The tasks take their steps in any order, and the calls are answered in any order.
No more calls are under way than there are slots, every task is served, and what is gathered is
what the calls return one after another.
-/

namespace Kaskade

/-- The counter, and who waits in the order they came, each with whether they were woken. -/
structure Semaphore where
  value : ℕ
  waiters : List (ℕ × Bool)

namespace Semaphore

def woken (waiters : List (ℕ × Bool)) : ℕ := waiters.countP (·.2)

/-- `_wake_up_next`, for the first that was not woken yet. -/
def wakeNext : List (ℕ × Bool) → Option (List (ℕ × Bool))
  | [] => none
  | (task, false) :: rest => some ((task, true) :: rest)
  | (task, true) :: rest => (wakeNext rest).map ((task, true) :: ·)

def wakeAll : ℕ → List (ℕ × Bool) → Semaphore
  | 0, waiters => ⟨0, waiters⟩
  | value + 1, waiters =>
    match wakeNext waiters with
    | none => ⟨value + 1, waiters⟩
    | some rest => wakeAll value rest

def locked (s : Semaphore) : Bool := s.value = 0 || !s.waiters.isEmpty

/-- `acquire` of a semaphore that is not locked. -/
def take (s : Semaphore) : Semaphore := { s with value := s.value - 1 }

/-- `acquire` of a locked semaphore, up to where it waits. -/
def enqueue (s : Semaphore) (task : ℕ) : Semaphore :=
  { s with waiters := s.waiters ++ [(task, false)] }

/-- The rest of `acquire`, after the task was woken. -/
def resume (s : Semaphore) (task : ℕ) : Semaphore := wakeAll s.value (s.waiters.erase (task, true))

def release (s : Semaphore) : Semaphore :=
  match wakeNext s.waiters with
  | none => { s with value := s.value + 1 }
  | some waiters => { s with waiters := waiters }

/-- Whoever waits can count on being woken: by a task that was woken before, or by one that holds
a slot. -/
def Lively (s : Semaphore) : Prop :=
  (∃ waiter ∈ s.waiters, waiter.2 = false) → s.value = 0 ∨ 0 < woken s.waiters

theorem wakeNext_woken {waiters rest : List (ℕ × Bool)} (h : wakeNext waiters = some rest) :
    woken rest = woken waiters + 1 := by
  induction waiters generalizing rest with
  | nil => cases h
  | cons waiter waiters ih =>
    obtain ⟨task, _ | _⟩ := waiter
    · obtain rfl := Option.some.inj h
      simp [woken]
    · obtain ⟨later, hlater, rfl⟩ := Option.map_eq_some_iff.mp h
      have hwoken := ih hlater
      simp only [woken, List.countP_cons] at hwoken ⊢
      omega

theorem wakeNext_names {waiters rest : List (ℕ × Bool)} (h : wakeNext waiters = some rest) :
    rest.map Prod.fst = waiters.map Prod.fst := by
  induction waiters generalizing rest with
  | nil => cases h
  | cons waiter waiters ih =>
    obtain ⟨task, _ | _⟩ := waiter
    · obtain rfl := Option.some.inj h
      rfl
    · obtain ⟨later, hlater, rfl⟩ := Option.map_eq_some_iff.mp h
      rw [List.map_cons, List.map_cons, ih hlater]

theorem wakeNext_none {waiters : List (ℕ × Bool)} (h : wakeNext waiters = none) :
    ¬ ∃ waiter ∈ waiters, waiter.2 = false := by
  induction waiters with
  | nil => exact fun hsome => by simp at hsome
  | cons waiter waiters ih =>
    obtain ⟨task, _ | _⟩ := waiter
    · cases h
    · rw [List.exists_mem_cons_iff]
      intro hsome
      refine hsome.elim (fun hfirst => by cases hfirst) (ih ?_)
      exact Option.map_eq_none_iff.mp h

theorem wakeAll_slots (value : ℕ) (waiters : List (ℕ × Bool)) :
    (wakeAll value waiters).value + woken (wakeAll value waiters).waiters =
      value + woken waiters := by
  induction value generalizing waiters with
  | zero => rfl
  | succ value ih =>
    rw [wakeAll]
    cases hwake : wakeNext waiters with
    | none => rfl
    | some rest =>
      dsimp only
      rw [ih, wakeNext_woken hwake]
      omega

theorem wakeAll_names (value : ℕ) (waiters : List (ℕ × Bool)) :
    (wakeAll value waiters).waiters.map Prod.fst = waiters.map Prod.fst := by
  induction value generalizing waiters with
  | zero => rfl
  | succ value ih =>
    rw [wakeAll]
    cases hwake : wakeNext waiters with
    | none => rfl
    | some rest =>
      dsimp only
      rw [ih, wakeNext_names hwake]

theorem wakeAll_lively (value : ℕ) (waiters : List (ℕ × Bool)) : (wakeAll value waiters).Lively := by
  induction value generalizing waiters with
  | zero => exact fun _ => .inl rfl
  | succ value ih =>
    rw [wakeAll]
    cases hwake : wakeNext waiters with
    | none => exact fun hwaits => absurd hwaits (wakeNext_none hwake)
    | some rest => exact ih rest

variable {s : Semaphore} {task : ℕ}

theorem take_slots (h : s.locked = false) :
    s.take.value + woken s.take.waiters + 1 = s.value + woken s.waiters := by
  rw [locked, Bool.or_eq_false_iff, decide_eq_false_iff_not] at h
  have hvalue := h.1
  simp only [take]
  omega

theorem enqueue_woken (s : Semaphore) (task : ℕ) :
    woken (s.enqueue task).waiters = woken s.waiters := by
  simp [enqueue, woken]

theorem resume_slots (h : (task, true) ∈ s.waiters) :
    (s.resume task).value + woken (s.resume task).waiters + 1 = s.value + woken s.waiters := by
  have hperm : woken s.waiters = woken ((task, true) :: s.waiters.erase (task, true)) :=
    (List.perm_cons_erase h).countP_eq _
  rw [resume, wakeAll_slots, hperm]
  simp only [woken, List.countP_cons_of_pos]
  omega

theorem resume_names (h : (task, true) ∈ s.waiters) :
    (s.waiters.map Prod.fst).Perm (task :: (s.resume task).waiters.map Prod.fst) := by
  rw [resume, wakeAll_names]
  exact (List.perm_cons_erase h).map Prod.fst

theorem release_slots (s : Semaphore) :
    s.release.value + woken s.release.waiters = s.value + woken s.waiters + 1 := by
  rw [release]
  cases hwake : wakeNext s.waiters with
  | none =>
    dsimp only
    omega
  | some waiters =>
    dsimp only
    rw [wakeNext_woken hwake, Nat.add_assoc]

theorem release_names (s : Semaphore) : s.release.waiters.map Prod.fst = s.waiters.map Prod.fst := by
  rw [release]
  cases hwake : wakeNext s.waiters with
  | none => rfl
  | some waiters => exact wakeNext_names hwake

theorem take_lively (h : s.locked = false) : s.take.Lively := by
  rw [locked, Bool.or_eq_false_iff, Bool.not_eq_false', List.isEmpty_iff] at h
  intro hwaits
  rw [take, h.2] at hwaits
  simp at hwaits

theorem Lively.enqueue (h : s.Lively) (hlocked : s.locked) (task : ℕ) : (s.enqueue task).Lively := by
  intro _
  rw [enqueue_woken]
  by_cases hwaits : ∃ waiter ∈ s.waiters, waiter.2 = false
  · exact h hwaits
  · rw [locked, Bool.or_eq_true, decide_eq_true_iff] at hlocked
    refine hlocked.imp id fun hwaiters => ?_
    cases hlist : s.waiters with
    | nil => simp [hlist] at hwaiters
    | cons waiter waiters =>
      rw [woken, List.countP_pos_iff]
      refine ⟨waiter, List.mem_cons_self, ?_⟩
      cases hwoken : waiter.2 with
      | true => rfl
      | false => exact absurd ⟨waiter, hlist ▸ List.mem_cons_self, hwoken⟩ hwaits

theorem release_lively (s : Semaphore) : s.release.Lively := by
  rw [release]
  cases hwake : wakeNext s.waiters with
  | none => exact fun hwaits => absurd hwaits (wakeNext_none hwake)
  | some waiters =>
    refine fun _ => .inr ?_
    dsimp only
    rw [wakeNext_woken hwake]
    omega

end Semaphore

/-- Where a task stands: it has not run, waits for a slot, waits for its call, or has ended. -/
inductive GatherTask (β : Type) where
  | created
  | acquiring
  | calling
  | ended (result : β)

namespace GatherTask

variable {ε α : Type}

def isCalling : GatherTask (Except ε α) → Bool
  | calling => true
  | _ => false

def value? : GatherTask (Except ε α) → Option α
  | ended (.ok value) => some value
  | _ => none

def stepsLeft : GatherTask (Except ε α) → ℕ
  | created => 3
  | acquiring => 2
  | calling => 1
  | ended _ => 0

end GatherTask

inductive GatherEvent where
  | enter (task : ℕ)
  | resume (task : ℕ)
  | answer (task : ℕ)

def errorOf {ε α : Type} : Except ε α → Option ε
  | .ok _ => none
  | .error e => some e

/-- The tasks by position, the tasks that have sent their call, in that order, and the first
failure, which `gather` raises at once. -/
structure Gather (ε α : Type) where
  semaphore : Semaphore
  tasks : List (GatherTask (Except ε α))
  sent : List ℕ := []
  raised : Option ε := none

namespace Gather

variable {ε α : Type}

def start (limit tasks : ℕ) : Gather ε α where
  semaphore := ⟨limit, []⟩
  tasks := List.replicate tasks .created

def await (g : Gather ε α) (task : ℕ) : Gather ε α :=
  { g with semaphore := g.semaphore.enqueue task, tasks := g.tasks.set task .acquiring }

/-- The task sends its call, holding a slot of what is now the semaphore. -/
def send (g : Gather ε α) (task : ℕ) (semaphore : Semaphore) : Gather ε α :=
  { g with semaphore := semaphore, tasks := g.tasks.set task .calling, sent := g.sent ++ [task] }

/-- The task leaves the block of the semaphore with the result of its call. -/
def finish (g : Gather ε α) (task : ℕ) (result : Except ε α) : Gather ε α :=
  { g with
    semaphore := g.semaphore.release
    tasks := g.tasks.set task (.ended result)
    raised := g.raised <|> errorOf result }

/-- One step of a task; `calls` has what each call comes to. -/
def step (calls : List (Except ε α)) (g : Gather ε α) : GatherEvent → Option (Gather ε α)
  | .enter task =>
    match g.tasks[task]? with
    | some .created =>
      some (if g.semaphore.locked then g.await task else g.send task g.semaphore.take)
    | _ => none
  | .resume task =>
    if (task, true) ∈ g.semaphore.waiters then some (g.send task (g.semaphore.resume task)) else none
  | .answer task =>
    match g.tasks[task]?, calls[task]? with
    | some .calling, some result => some (g.finish task result)
    | _, _ => none

def Step (calls : List (Except ε α)) (g : Gather ε α) (event : GatherEvent) (t : Gather ε α) : Prop :=
  step calls g event = some t

/-- What the caller of `gather` gets: the first failure, or the values once all tasks returned. -/
def outcome (g : Gather ε α) : Option (Except ε (List α)) :=
  match g.raised with
  | some e => some (.error e)
  | none => (g.tasks.mapM GatherTask.value?).map .ok

def calling (g : Gather ε α) : ℕ := g.tasks.countP GatherTask.isCalling

def stepsLeft (g : Gather ε α) : ℕ := (g.tasks.map GatherTask.stepsLeft).sum

variable {calls : List (Except ε α)} {g t : Gather ε α} {task : ℕ}

theorem step_cases {event : GatherEvent} (h : Step calls g event t) :
    (∃ task, g.tasks[task]? = some .created ∧ g.semaphore.locked ∧ t = g.await task) ∨
    (∃ task, g.tasks[task]? = some .created ∧ g.semaphore.locked = false ∧
      t = g.send task g.semaphore.take) ∨
    (∃ task, (task, true) ∈ g.semaphore.waiters ∧ t = g.send task (g.semaphore.resume task)) ∨
    (∃ task result, g.tasks[task]? = some .calling ∧ calls[task]? = some result ∧
      t = g.finish task result) := by
  cases event with
  | enter task =>
    rw [Step, step] at h
    cases htask : g.tasks[task]? with
    | none => simp [htask] at h
    | some state =>
      cases state with
      | created =>
        simp only [htask, Option.some.injEq] at h
        split_ifs at h with hlocked
        · exact .inl ⟨task, htask, hlocked, h.symm⟩
        · exact .inr (.inl ⟨task, htask, eq_false_of_ne_true hlocked, h.symm⟩)
      | _ => simp [htask] at h
  | resume task =>
    rw [Step, step] at h
    split_ifs at h with hwoken
    exact .inr (.inr (.inl ⟨task, hwoken, (Option.some.inj h).symm⟩))
  | answer task =>
    rw [Step, step] at h
    cases htask : g.tasks[task]? with
    | none => simp [htask] at h
    | some state =>
      cases state with
      | calling =>
        cases hcall : calls[task]? with
        | none => simp [htask, hcall] at h
        | some result =>
          simp only [htask, hcall, Option.some.injEq] at h
          exact .inr (.inr (.inr ⟨task, result, htask, hcall, h.symm⟩))
      | _ => simp [htask] at h

theorem calling_set (later : GatherTask (Except ε α)) {state : GatherTask (Except ε α)}
    (h : g.tasks[task]? = some state) :
    (g.tasks.set task later).countP GatherTask.isCalling + (if state.isCalling then 1 else 0) =
      g.calling + (if later.isCalling then 1 else 0) := by
  obtain ⟨hlt, hstate⟩ := List.getElem?_eq_some_iff.mp h
  have hpos : state.isCalling → 0 < g.tasks.countP GatherTask.isCalling := fun hcalling =>
    List.countP_pos_iff.mpr ⟨state, hstate ▸ List.getElem_mem hlt, hcalling⟩
  rw [List.countP_set hlt, hstate, calling]
  by_cases hcalling : state.isCalling
  · have hcount := hpos hcalling
    rw [if_pos hcalling]
    omega
  · rw [if_neg hcalling]
    omega

theorem sum_map_set {τ : Type} {f : τ → ℕ} {states : List τ} {state later : τ}
    (h : states[task]? = some state) :
    ((states.set task later).map f).sum + f state = (states.map f).sum + f later := by
  induction states generalizing task with
  | nil => simp at h
  | cons first states ih =>
    cases task with
    | zero =>
      rw [List.getElem?_cons_zero] at h
      obtain rfl := Option.some.inj h
      rw [List.set_cons_zero, List.map_cons, List.map_cons, List.sum_cons, List.sum_cons]
      omega
    | succ task =>
      rw [List.getElem?_cons_succ] at h
      rw [List.set_cons_succ, List.map_cons, List.map_cons, List.sum_cons, List.sum_cons]
      have hset := ih h
      omega

/-- The semaphore and the tasks of `calls` agree with each other. -/
structure Bounded (calls : List (Except ε α)) (limit : ℕ) (g : Gather ε α) : Prop where
  length : g.tasks.length = calls.length
  slots : g.semaphore.value + Semaphore.woken g.semaphore.waiters + g.calling = limit
  lively : g.semaphore.Lively
  nodup : (g.semaphore.waiters.map Prod.fst).Nodup
  waits : ∀ task, task ∈ g.semaphore.waiters.map Prod.fst ↔ g.tasks[task]? = some .acquiring
  nodup_sent : g.sent.Nodup
  mem_sent : ∀ task, task ∈ g.sent ↔
    g.tasks[task]? = some .calling ∨ ∃ result : Except ε α, g.tasks[task]? = some (.ended result)
  ended : ∀ (task : ℕ) (result : Except ε α), g.tasks[task]? = some (.ended result) →
    calls[task]? = some result

/-- What the first failure says of the calls that have returned. -/
structure Raises (calls : List (Except ε α)) (g : Gather ε α) : Prop where
  raised : ∀ e, g.raised = some e → .error e ∈ calls
  returned : g.raised = none → ∀ (task : ℕ) (result : Except ε α),
    g.tasks[task]? = some (.ended result) → ∃ value, result = .ok value

theorem getElem?_set_task {later state : GatherTask (Except ε α)} (h : g.tasks[task]? = some state)
    (other : ℕ) :
    (g.tasks.set task later)[other]? = if task = other then some later else g.tasks[other]? := by
  obtain ⟨hlt, -⟩ := List.getElem?_eq_some_iff.mp h
  rw [List.getElem?_set, if_pos hlt]

variable {limit : ℕ}

theorem bounded_start (limit : ℕ) : Bounded calls limit (start limit calls.length) where
  length := List.length_replicate
  slots := by
    have hcalling : (start limit calls.length : Gather ε α).calling = 0 := by
      rw [calling, List.countP_eq_zero]
      intro state hstate
      rw [List.eq_of_mem_replicate hstate]
      exact Bool.false_ne_true
    rw [hcalling]
    rfl
  lively := fun hwaits => by simp [start] at hwaits
  nodup := List.nodup_nil
  waits task := by simp [start, List.getElem?_replicate]
  nodup_sent := List.nodup_nil
  mem_sent task := by simp [start, List.getElem?_replicate]
  ended task result := by simp [start, List.getElem?_replicate]

theorem Bounded.await (h : Bounded calls limit g) (htask : g.tasks[task]? = some .created)
    (hlocked : g.semaphore.locked) : Bounded calls limit (g.await task) where
  length := by rw [← h.length, Gather.await, List.length_set]
  slots := by
    have hcalling : (g.await task).calling = g.calling := calling_set .acquiring htask
    rw [hcalling, ← h.slots, Gather.await, Semaphore.enqueue_woken]
    rfl
  lively := h.lively.enqueue hlocked task
  nodup := by
    have hnew : task ∉ g.semaphore.waiters.map Prod.fst := by
      rw [h.waits, htask]
      simp
    rw [Gather.await, Semaphore.enqueue, List.map_append]
    exact List.nodup_append'.mpr ⟨h.nodup, List.nodup_singleton task, by simpa using hnew⟩
  waits other := by
    rw [Gather.await, getElem?_set_task htask, Semaphore.enqueue, List.map_append, List.mem_append,
      h.waits]
    split_ifs with hother
    · simp [hother]
    · simp [Ne.symm hother]
  nodup_sent := h.nodup_sent
  mem_sent other := by
    rw [Gather.await, getElem?_set_task htask, h.mem_sent]
    split_ifs with hother
    · simp [← hother, htask]
    · rfl
  ended other result := by
    rw [Gather.await, getElem?_set_task htask]
    split_ifs with hother
    · simp
    · exact h.ended other result

/-- A task sends its call once it holds a slot. -/
theorem Bounded.send (h : Bounded calls limit g) {state : GatherTask (Except ε α)}
    (htask : g.tasks[task]? = some state) (hstate : state = .created ∨ state = .acquiring)
    {semaphore : Semaphore} (hlively : semaphore.Lively)
    (hslots : semaphore.value + Semaphore.woken semaphore.waiters + 1 =
      g.semaphore.value + Semaphore.woken g.semaphore.waiters)
    (hnodup : (semaphore.waiters.map Prod.fst).Nodup)
    (hnames : ∀ other, other ∈ semaphore.waiters.map Prod.fst ↔
      other ∈ g.semaphore.waiters.map Prod.fst ∧ other ≠ task) :
    Bounded calls limit (g.send task semaphore) where
  length := by rw [← h.length, Gather.send, List.length_set]
  slots := by
    have hset : (g.send task semaphore).calling + 0 = g.calling + 1 := by
      rcases hstate with rfl | rfl
      · exact calling_set .calling htask
      · exact calling_set .calling htask
    have hbefore := h.slots
    have hsemaphore : (g.send task semaphore).semaphore = semaphore := rfl
    rw [hsemaphore]
    omega
  lively := hlively
  nodup := hnodup
  waits other := by
    rw [Gather.send, getElem?_set_task htask, hnames, h.waits]
    split_ifs with hother
    · simp [hother]
    · simp [Ne.symm hother]
  nodup_sent := by
    have hnew : task ∉ g.sent := by
      rw [h.mem_sent, htask]
      rcases hstate with rfl | rfl
      · simp
      · simp
    exact List.nodup_append'.mpr ⟨h.nodup_sent, List.nodup_singleton task, by simpa using hnew⟩
  mem_sent other := by
    rw [Gather.send, getElem?_set_task htask, List.mem_append, h.mem_sent]
    split_ifs with hother
    · simp [hother]
    · simp [Ne.symm hother]
  ended other result := by
    rw [Gather.send, getElem?_set_task htask]
    split_ifs with hother
    · simp
    · exact h.ended other result

theorem Bounded.take (h : Bounded calls limit g) (htask : g.tasks[task]? = some .created)
    (hlocked : g.semaphore.locked = false) : Bounded calls limit (g.send task g.semaphore.take) := by
  refine h.send htask (.inl rfl) (Semaphore.take_lively hlocked) (Semaphore.take_slots hlocked) h.nodup ?_
  intro other
  rw [Semaphore.take, iff_self_and, h.waits]
  rintro hother rfl
  rw [htask] at hother
  cases hother

theorem Bounded.resume (h : Bounded calls limit g) (hwoken : (task, true) ∈ g.semaphore.waiters) :
    Bounded calls limit (g.send task (g.semaphore.resume task)) := by
  have htask : g.tasks[task]? = some .acquiring :=
    (h.waits task).mp (List.mem_map.mpr ⟨_, hwoken, rfl⟩)
  have hperm := Semaphore.resume_names hwoken
  have hnodup := hperm.nodup_iff.mp h.nodup
  rw [List.nodup_cons] at hnodup
  refine h.send htask (.inr rfl) (Semaphore.wakeAll_lively _ _) (Semaphore.resume_slots hwoken) hnodup.2 ?_
  intro other
  rw [hperm.mem_iff, List.mem_cons]
  constructor
  · intro hother
    exact ⟨.inr hother, fun hsame => hnodup.1 (hsame ▸ hother)⟩
  · rintro ⟨hother, hne⟩
    exact hother.resolve_left hne

/-- A task gives its slot back with what its call returned. -/
theorem Bounded.finish (h : Bounded calls limit g) (htask : g.tasks[task]? = some .calling)
    {result : Except ε α} (hcall : calls[task]? = some result) :
    Bounded calls limit (g.finish task result) where
  length := by rw [← h.length, Gather.finish, List.length_set]
  slots := by
    have hset : (g.finish task result).calling + 1 = g.calling + 0 := calling_set (.ended result) htask
    have hbefore := h.slots
    have hrelease := g.semaphore.release_slots
    have hsemaphore : (g.finish task result).semaphore = g.semaphore.release := rfl
    rw [hsemaphore]
    omega
  lively := g.semaphore.release_lively
  nodup := by
    rw [Gather.finish, Semaphore.release_names]
    exact h.nodup
  waits other := by
    rw [Gather.finish, getElem?_set_task htask, Semaphore.release_names, h.waits]
    split_ifs with hother
    · simp [← hother, htask]
    · rfl
  nodup_sent := h.nodup_sent
  mem_sent other := by
    rw [Gather.finish, getElem?_set_task htask, h.mem_sent]
    split_ifs with hother
    · simp [← hother, htask]
    · rfl
  ended other returned := by
    rw [Gather.finish, getElem?_set_task htask]
    split_ifs with hother
    · subst hother
      intro hreturned
      rw [hcall]
      exact congrArg some (by simpa using hreturned)
    · exact h.ended other returned

theorem Bounded.step {event : GatherEvent} (h : Bounded calls limit g) (hstep : Step calls g event t) :
    Bounded calls limit t := by
  obtain ⟨task, htask, hlocked, rfl⟩ | ⟨task, htask, hlocked, rfl⟩ | ⟨task, hwoken, rfl⟩ |
    ⟨task, result, htask, hcall, rfl⟩ := step_cases hstep
  · exact h.await htask hlocked
  · exact h.take htask hlocked
  · exact h.resume hwoken
  · exact h.finish htask hcall

theorem ended_of_set {later : GatherTask (Except ε α)} (hlater : ∀ result, later ≠ .ended result)
    {other : ℕ} {result : Except ε α} (h : (g.tasks.set task later)[other]? = some (.ended result)) :
    g.tasks[other]? = some (.ended result) := by
  rw [List.getElem?_set] at h
  split_ifs at h
  · exact absurd (Option.some.inj h) (hlater result)
  · exact h

theorem raises_start (limit : ℕ) : Raises calls (start limit calls.length) where
  raised e h := by cases h
  returned _ task result := by simp [start, List.getElem?_replicate]

theorem Raises.step {event : GatherEvent} (h : Raises calls g) (hstep : Step calls g event t) :
    Raises calls t := by
  obtain ⟨task, -, -, rfl⟩ | ⟨task, -, -, rfl⟩ | ⟨task, -, rfl⟩ | ⟨task, result, htask, hcall, rfl⟩ :=
    step_cases hstep
  · exact ⟨h.raised, fun hnone other result hended =>
      h.returned hnone other result (ended_of_set (fun _ => by simp) hended)⟩
  · exact ⟨h.raised, fun hnone other result hended =>
      h.returned hnone other result (ended_of_set (fun _ => by simp) hended)⟩
  · exact ⟨h.raised, fun hnone other result hended =>
      h.returned hnone other result (ended_of_set (fun _ => by simp) hended)⟩
  · constructor
    · intro e hraised
      rw [Gather.finish] at hraised
      cases hbefore : g.raised with
      | some first =>
        rw [hbefore] at hraised
        exact h.raised e (hbefore.trans hraised)
      | none =>
        rw [hbefore] at hraised
        cases result with
        | ok value => cases hraised
        | error raised =>
          obtain rfl := Option.some.inj hraised
          exact List.mem_of_getElem? hcall
    · intro hraised other returned hended
      rw [Gather.finish] at hraised
      rw [Gather.finish, getElem?_set_task htask] at hended
      cases hbefore : g.raised with
      | some first =>
        rw [hbefore] at hraised
        cases hraised
      | none =>
        split_ifs at hended
        · have hsame : result = returned := by simpa using hended
          subst hsame
          cases result with
          | ok value => exact ⟨value, rfl⟩
          | error raised =>
            rw [hbefore] at hraised
            cases hraised
        · exact h.returned hbefore other returned hended

theorem stepsLeft_set (later : GatherTask (Except ε α)) {state : GatherTask (Except ε α)}
    (h : g.tasks[task]? = some state) :
    ((g.tasks.set task later).map GatherTask.stepsLeft).sum + state.stepsLeft =
      g.stepsLeft + later.stepsLeft :=
  sum_map_set h

theorem Bounded.stepsLeft_step {event : GatherEvent} (h : Bounded calls limit g)
    (hstep : Step calls g event t) : t.stepsLeft + 1 ≤ g.stepsLeft := by
  obtain ⟨task, htask, -, rfl⟩ | ⟨task, htask, -, rfl⟩ | ⟨task, hwoken, rfl⟩ |
    ⟨task, result, htask, -, rfl⟩ := step_cases hstep
  · have hset : (g.await task).stepsLeft + 3 = g.stepsLeft + 2 := stepsLeft_set .acquiring htask
    omega
  · have hset : (g.send task g.semaphore.take).stepsLeft + 3 = g.stepsLeft + 1 :=
      stepsLeft_set .calling htask
    omega
  · have htask : g.tasks[task]? = some .acquiring :=
      (h.waits task).mp (List.mem_map.mpr ⟨_, hwoken, rfl⟩)
    have hset : (g.send task (g.semaphore.resume task)).stepsLeft + 2 = g.stepsLeft + 1 :=
      stepsLeft_set .calling htask
    omega
  · have hset : (g.finish task result).stepsLeft + 1 = g.stepsLeft + 0 :=
      stepsLeft_set (.ended result) htask
    omega

theorem Bounded.answers (h : Bounded calls limit g) (htask : g.tasks[task]? = some .calling) :
    ∃ event t, Step calls g event t := by
  obtain ⟨hlt, -⟩ := List.getElem?_eq_some_iff.mp htask
  have hcall := List.getElem?_eq_getElem (h.length ▸ hlt)
  exact ⟨.answer task, _, by rw [Step, Gather.step, htask, hcall]⟩

/-- Some task can take a step, until all have ended. -/
theorem Bounded.progress (h : Bounded calls limit g) (hlimit : 0 < limit) {state : GatherTask (Except ε α)}
    (htask : g.tasks[task]? = some state) (hopen : ∀ result, state ≠ .ended result) :
    ∃ event t, Step calls g event t := by
  cases state with
  | ended result => exact absurd rfl (hopen result)
  | created => exact ⟨.enter task, _, by rw [Step, Gather.step, htask]⟩
  | calling => exact h.answers htask
  | acquiring =>
    by_cases hwoken : ∃ waiter ∈ g.semaphore.waiters, waiter.2 = true
    · obtain ⟨⟨other, _⟩, hother, rfl⟩ := hwoken
      exact ⟨.resume other, _, by rw [Step, Gather.step, if_pos hother]⟩
    · obtain ⟨waiter, hwaiter, -⟩ := List.mem_map.mp ((h.waits task).mpr htask)
      have hzero : Semaphore.woken g.semaphore.waiters = 0 :=
        List.countP_eq_zero.mpr fun other hother hsome => hwoken ⟨other, hother, hsome⟩
      have hpending : waiter.2 = false := eq_false_of_ne_true fun hsome => hwoken ⟨waiter, hwaiter, hsome⟩
      -- nobody was woken, so the slots are all held by calls, of which one can be answered
      have hvalue := (h.lively ⟨waiter, hwaiter, hpending⟩).resolve_right (by omega)
      have hslots := h.slots
      have hcalling : 0 < g.tasks.countP GatherTask.isCalling := by
        rw [calling] at hslots
        omega
      obtain ⟨state, hmem, hstate⟩ := List.countP_pos_iff.mp hcalling
      obtain ⟨other, hother⟩ := List.getElem?_of_mem hmem
      cases state with
      | calling => exact h.answers hother
      | _ => cases hstate

variable {events : List GatherEvent}

theorem bounded_run (h : Run (Step calls) (start limit calls.length) events g) :
    Bounded calls limit g :=
  h.invariant (fun _ _ _ hbefore hstep => hbefore.step hstep) (bounded_start limit)

theorem raises_run (h : Run (Step calls) (start limit calls.length) events g) : Raises calls g :=
  h.invariant (fun _ _ _ hbefore hstep => hbefore.step hstep) (raises_start limit)

theorem calling_le (h : Run (Step calls) (start limit calls.length) events g) : g.calling ≤ limit := by
  have hslots := (bounded_run h).slots
  omega

theorem length_run (h : Run (Step calls) (start limit calls.length) events g) :
    events.length + g.stepsLeft ≤ 3 * calls.length := by
  induction h with
  | nil =>
    have hsum : (start limit calls.length : Gather ε α).stepsLeft = 3 * calls.length := by
      rw [stepsLeft, start, List.map_replicate, List.sum_replicate_nat, Nat.mul_comm]
      rfl
    exact Nat.le_of_eq (by rw [hsum, List.length_nil, Nat.zero_add])
  | snoc hrun hstep ih =>
    have hless := (bounded_run hrun).stepsLeft_step hstep
    rw [List.length_append, List.length_singleton]
    omega

theorem mapM_value? {tasks : List (GatherTask (Except ε α))} {values : List α} :
    tasks.mapM GatherTask.value? = some values ↔ tasks = values.map fun value => .ended (.ok value) := by
  induction tasks generalizing values with
  | nil =>
    rw [List.mapM_nil]
    cases values with
    | nil => exact iff_of_true rfl rfl
    | cons value values => exact iff_of_false (fun h => by cases h) (fun h => by cases h)
  | cons task tasks ih =>
    rw [List.mapM_cons]
    constructor
    · intro h
      obtain ⟨value, hvalue, hrest⟩ := Option.bind_eq_some_iff.mp h
      obtain ⟨rest, htasks, hvalues⟩ := Option.bind_eq_some_iff.mp hrest
      obtain rfl := Option.some.inj hvalues
      rw [List.map_cons, ih.mp htasks]
      congr 1
      unfold GatherTask.value? at hvalue
      split at hvalue
      · rw [Option.some.inj hvalue]
      · cases hvalue
    · intro h
      cases values with
      | nil => cases h
      | cons value values =>
        obtain ⟨rfl, htasks⟩ := List.cons.inj h
        rw [ih.mpr htasks]
        rfl

/-- What the caller gets: a failure of one of the calls, or what they all return. -/
theorem outcome_run (h : Run (Step calls) (start limit calls.length) events g)
    {result : Except ε (List α)} (hresult : g.outcome = some result) :
    (∃ e, result = .error e ∧ .error e ∈ calls) ∨
      ∃ values, result = .ok values ∧ calls = values.map .ok := by
  have hbounded := bounded_run h
  rw [outcome] at hresult
  cases hraised : g.raised with
  | some e =>
    rw [hraised] at hresult
    exact .inl ⟨e, (Option.some.inj hresult).symm, (raises_run h).raised e hraised⟩
  | none =>
    rw [hraised] at hresult
    obtain ⟨values, hvalues, rfl⟩ := Option.map_eq_some_iff.mp hresult
    have htasks := mapM_value?.mp hvalues
    refine .inr ⟨values, rfl, List.ext_getElem? fun task => ?_⟩
    have hlength := hbounded.length
    rw [htasks, List.length_map] at hlength
    rw [List.getElem?_map]
    cases hvalue : values[task]? with
    | none =>
      rw [List.getElem?_eq_none_iff] at hvalue
      rw [Option.map_none, List.getElem?_eq_none_iff]
      omega
    | some value =>
      apply hbounded.ended task (.ok value)
      rw [htasks, List.getElem?_map, hvalue]
      rfl

theorem exists_values {tasks : List (GatherTask (Except ε α))}
    (h : ∀ state ∈ tasks, ∃ value, state = .ended (.ok value)) :
    ∃ values, tasks.mapM GatherTask.value? = some values := by
  induction tasks with
  | nil => exact ⟨[], rfl⟩
  | cons state tasks ih =>
    rw [List.forall_mem_cons] at h
    obtain ⟨value, rfl⟩ := h.1
    obtain ⟨values, hvalues⟩ := ih h.2
    exact ⟨value :: values, by rw [mapM_value?] at hvalues ⊢; rw [hvalues]; rfl⟩

theorem exists_open (hraises : Raises calls g) (h : g.outcome = none) :
    ∃ (task : ℕ) (state : GatherTask (Except ε α)), g.tasks[task]? = some state ∧
      ∀ result, state ≠ .ended result := by
  rw [outcome] at h
  cases hraised : g.raised with
  | some e =>
    rw [hraised] at h
    cases h
  | none =>
    rw [hraised, Option.map_eq_none_iff] at h
    by_contra hended
    have hvalues : ∀ state ∈ g.tasks, ∃ value, state = .ended (.ok value) := by
      intro state hstate
      obtain ⟨task, htask⟩ := List.getElem?_of_mem hstate
      by_contra hopen
      refine hended ⟨task, state, htask, fun result hresult => hopen ?_⟩
      subst hresult
      obtain ⟨value, rfl⟩ := hraises.returned hraised task result htask
      exact ⟨value, rfl⟩
    obtain ⟨values, hsome⟩ := exists_values hvalues
    rw [h] at hsome
    cases hsome

theorem exists_outcome (hlimit : 0 < limit)
    (h : Run (Step calls) (start limit calls.length) events g) :
    ∃ later t, Run (Step calls) g later t ∧ t.outcome.isSome := by
  induction hsteps : g.stepsLeft using Nat.strongRecOn generalizing g events with
  | ind steps ih =>
    cases houtcome : g.outcome with
    | some result => exact ⟨[], g, .nil, by rw [houtcome]; rfl⟩
    | none =>
      obtain ⟨task, state, htask, hopen⟩ := exists_open (raises_run h) houtcome
      obtain ⟨event, u, hstep⟩ := (bounded_run h).progress hlimit htask hopen
      have hless := (bounded_run h).stepsLeft_step hstep
      obtain ⟨later, t, hlater, ht⟩ := ih u.stepsLeft (by omega) (h.snoc hstep) rfl
      exact ⟨event :: later, t, .cons hstep hlater, ht⟩

end Gather

end Kaskade
