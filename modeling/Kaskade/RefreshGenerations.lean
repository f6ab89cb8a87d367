import Kaskade.RefreshCoordination
import Mathlib.Data.List.Nodup
import Mathlib.Data.List.Range
import Mathlib.Logic.Function.Basic

/-!
# Generations of a refresh

Any sequence of `RefreshCoordinator` operations, interleaved with the workers that the issued
generations start. A worker publishes what it loaded after each of its three awaits, unless its
generation is no longer current; a completed generation never is again.
-/

namespace Kaskade

/-- The await at which a worker of `refresh_topics` stands. -/
inductive RefreshStage where
  | metadata
  | offsets
  | groups
  /-- `_cancel_stage_tasks`. -/
  | closing
  deriving DecidableEq

def RefreshStage.next : RefreshStage → RefreshStage
  | .metadata => .offsets
  | .offsets => .groups
  | .groups => .closing
  | .closing => .closing

/-- A coordinator, the workers that have not finished, and the generations that it issued, that
completed and that published, oldest first. -/
structure RefreshSystem where
  coordinator : RefreshCoordinator := {}
  awaits : ℕ → Option RefreshStage := fun _ => none
  issued : List ℕ := []
  completed : List ℕ := []
  published : List ℕ := []

inductive RefreshEvent where
  | request (reason : RefreshReason)
  | complete (generation : ℕ)
  | takePending
  | beginMutation
  | endMutation
  | discardPending
  /-- What the worker awaits has returned. -/
  | resume (generation : ℕ)
  /-- What the worker awaits has raised, or the worker is cancelled there. -/
  | fail (generation : ℕ)

namespace RefreshSystem

/-- `request`, and the start of a worker for the generation it issues. -/
def request (s : RefreshSystem) (reason : RefreshReason) : RefreshSystem :=
  match s.coordinator.request reason with
  | (coordinator, none) => { s with coordinator := coordinator }
  | (coordinator, some generation) =>
    { s with
      coordinator := coordinator
      awaits := Function.update s.awaits generation (some .metadata)
      issued := s.issued ++ [generation] }

def complete (s : RefreshSystem) (generation : ℕ) : RefreshSystem :=
  let (coordinator, completed) := s.coordinator.complete generation
  { s with
    coordinator := coordinator
    completed := if completed then s.completed ++ [generation] else s.completed }

/-- The worker of a generation moves on to another await, or finishes. -/
def moveTo (s : RefreshSystem) (generation : ℕ) (stage : Option RefreshStage) : RefreshSystem :=
  { s with awaits := Function.update s.awaits generation stage }

/-- `if not is_current(generation): return` and the publication after it. -/
def publish (s : RefreshSystem) (generation : ℕ) (stage : RefreshStage) : RefreshSystem :=
  if s.coordinator.isCurrent generation then
    { s with published := s.published ++ [generation] }.moveTo generation (some stage.next)
  else s.moveTo generation (some .closing)

def step (s : RefreshSystem) : RefreshEvent → Option RefreshSystem
  | .request reason => some (s.request reason)
  | .complete generation => some (s.complete generation)
  | .takePending => some { s with coordinator := s.coordinator.takePending.1 }
  | .beginMutation => some { s with coordinator := s.coordinator.beginMutation }
  | .endMutation => some { s with coordinator := s.coordinator.endMutation }
  | .discardPending => some { s with coordinator := s.coordinator.discardPending }
  | .resume generation =>
    match s.awaits generation with
    | none => none
    | some .closing => some ((s.complete generation).moveTo generation none)
    | some stage => some (s.publish generation stage)
  | .fail generation =>
    match s.awaits generation with
    | none => none
    | some .closing => some (s.moveTo generation none)
    | some _ => some (s.moveTo generation (some .closing))

def Step (s : RefreshSystem) (event : RefreshEvent) (t : RefreshSystem) : Prop :=
  s.step event = some t

/-- The effect of an event on the coordinator and on the histories. -/
inductive Effect (s t : RefreshSystem) : Prop where
  | silent :
      t.coordinator.generation = s.coordinator.generation →
      t.coordinator.active = s.coordinator.active →
      t.issued = s.issued → t.completed = s.completed → t.published = s.published → Effect s t
  | issue :
      s.coordinator.active = false → s.coordinator.mutationActive = false →
      t.coordinator.generation = s.coordinator.generation + 1 → t.coordinator.active = true →
      t.issued = s.issued ++ [s.coordinator.generation + 1] → t.completed = s.completed →
      t.published = s.published → Effect s t
  | complete (generation : ℕ) :
      s.coordinator.isCurrent generation →
      t.coordinator.generation = s.coordinator.generation → t.coordinator.active = false →
      t.issued = s.issued → t.completed = s.completed ++ [generation] →
      t.published = s.published → Effect s t
  | publish (generation : ℕ) :
      s.coordinator.isCurrent generation → t.coordinator = s.coordinator →
      t.issued = s.issued → t.completed = s.completed →
      t.published = s.published ++ [generation] → Effect s t

theorem effect_request (s : RefreshSystem) (reason : RefreshReason) : Effect s (s.request reason) := by
  unfold request RefreshCoordinator.request
  split_ifs with hbusy hperiodic
  · exact .silent rfl rfl rfl rfl rfl
  · exact .silent rfl rfl rfl rfl rfl
  · rw [Bool.or_eq_true, not_or, Bool.not_eq_true, Bool.not_eq_true] at hbusy
    exact .issue hbusy.1 hbusy.2 rfl rfl rfl rfl rfl

theorem effect_complete (s : RefreshSystem) (generation : ℕ) : Effect s (s.complete generation) := by
  unfold complete RefreshCoordinator.complete
  by_cases hcurrent : s.coordinator.isCurrent generation
  · simp only [hcurrent]
    exact .complete generation hcurrent rfl rfl rfl rfl rfl
  · simp only [hcurrent]
    exact .silent rfl rfl rfl rfl rfl

theorem effect_publish (s : RefreshSystem) (generation : ℕ) (stage : RefreshStage) :
    Effect s (s.publish generation stage) := by
  unfold publish
  split_ifs with hcurrent
  · exact .publish generation hcurrent rfl rfl rfl rfl
  · exact .silent rfl rfl rfl rfl rfl

theorem Effect.moveTo {s t : RefreshSystem} (h : Effect s t) (generation : ℕ)
    (stage : Option RefreshStage) : Effect s (t.moveTo generation stage) := by
  cases h with
  | silent h₁ h₂ h₃ h₄ h₅ => exact .silent h₁ h₂ h₃ h₄ h₅
  | issue h₁ h₂ h₃ h₄ h₅ h₆ h₇ => exact .issue h₁ h₂ h₃ h₄ h₅ h₆ h₇
  | complete g h₁ h₂ h₃ h₄ h₅ h₆ => exact .complete g h₁ h₂ h₃ h₄ h₅ h₆
  | publish g h₁ h₂ h₃ h₄ h₅ => exact .publish g h₁ h₂ h₃ h₄ h₅

theorem step_effect {s t : RefreshSystem} {event : RefreshEvent} (h : s.Step event t) :
    Effect s t := by
  have hself : Effect s s := .silent rfl rfl rfl rfl rfl
  rw [Step] at h
  cases event with
  | request reason => exact Option.some.inj h ▸ effect_request s reason
  | complete generation => exact Option.some.inj h ▸ effect_complete s generation
  | takePending =>
    obtain rfl := Option.some.inj h
    unfold RefreshCoordinator.takePending
    split_ifs <;> exact .silent rfl rfl rfl rfl rfl
  | beginMutation => exact Option.some.inj h ▸ .silent rfl rfl rfl rfl rfl
  | endMutation => exact Option.some.inj h ▸ .silent rfl rfl rfl rfl rfl
  | discardPending => exact Option.some.inj h ▸ .silent rfl rfl rfl rfl rfl
  | resume generation =>
    rw [step] at h
    split at h
    · cases h
    · exact Option.some.inj h ▸ (effect_complete s generation).moveTo generation none
    · exact Option.some.inj h ▸ effect_publish s generation _
  | fail generation =>
    rw [step] at h
    split at h
    · cases h
    · exact Option.some.inj h ▸ hself.moveTo generation none
    · exact Option.some.inj h ▸ hself.moveTo generation _

/-- How the flag and the counter relate to the histories. -/
structure Consistent (s : RefreshSystem) : Prop where
  issued_eq : s.issued = List.range' 1 s.coordinator.generation
  current_pos : s.coordinator.active = true → 0 < s.coordinator.generation
  current_incomplete : s.coordinator.active = true → s.coordinator.generation ∉ s.completed
  completed_nodup : s.completed.Nodup
  completed_issued : ∀ g ∈ s.completed, g ∈ s.issued
  published_issued : ∀ g ∈ s.published, g ∈ s.issued
  published_sorted : s.published.Pairwise (· ≤ ·)

theorem isCurrent_iff {c : RefreshCoordinator} {generation : ℕ} :
    c.isCurrent generation ↔ c.active = true ∧ generation = c.generation := by
  simp [RefreshCoordinator.isCurrent]

section Consistency

variable {s t : RefreshSystem} {event : RefreshEvent}

theorem Consistent.mem_issued (hs : s.Consistent) {g : ℕ} :
    g ∈ s.issued ↔ 0 < g ∧ g ≤ s.coordinator.generation := by
  rw [hs.issued_eq, List.mem_range'_1]
  omega

theorem Consistent.current_issued (hs : s.Consistent) {g : ℕ} (hg : s.coordinator.isCurrent g) :
    g ∈ s.issued := by
  obtain ⟨hactive, rfl⟩ := isCurrent_iff.mp hg
  exact hs.mem_issued.mpr ⟨hs.current_pos hactive, Nat.le_refl _⟩

theorem Consistent.completed_stale (hs : s.Consistent) {g : ℕ} (hg : g ∈ s.completed) :
    s.coordinator.isCurrent g = false := by
  rw [← Bool.not_eq_true, isCurrent_iff]
  rintro ⟨hactive, rfl⟩
  exact hs.current_incomplete hactive hg

theorem Effect.consistent (h : Effect s t) (hs : s.Consistent) : t.Consistent := by
  cases h with
  | silent hgeneration hactive hissued hcompleted hpublished =>
    constructor <;> simp only [hgeneration, hactive, hissued, hcompleted, hpublished]
    · exact hs.issued_eq
    · exact hs.current_pos
    · exact hs.current_incomplete
    · exact hs.completed_nodup
    · exact hs.completed_issued
    · exact hs.published_issued
    · exact hs.published_sorted
  | issue _ _ hgeneration _ hissued hcompleted hpublished =>
    have hkept : ∀ g ∈ s.issued, g ∈ t.issued := by
      rw [hissued]
      exact fun g hg => List.mem_append_left _ hg
    constructor
    · rw [hissued, hs.issued_eq, hgeneration, List.range'_1_concat, Nat.add_comm 1]
    · omega
    · rw [hgeneration, hcompleted]
      intro _ hmem
      have hle := (hs.mem_issued.mp (hs.completed_issued _ hmem)).2
      omega
    · exact hcompleted ▸ hs.completed_nodup
    · rw [hcompleted]
      exact fun g hg => hkept g (hs.completed_issued g hg)
    · rw [hpublished]
      exact fun g hg => hkept g (hs.published_issued g hg)
    · exact hpublished ▸ hs.published_sorted
  | complete g hcurrent hgeneration hactive hissued hcompleted hpublished =>
    obtain ⟨hwas, rfl⟩ := isCurrent_iff.mp hcurrent
    constructor
    · rw [hissued, hgeneration]
      exact hs.issued_eq
    · simp [hactive]
    · simp [hactive]
    · rw [hcompleted, List.nodup_append_comm]
      exact List.nodup_cons.mpr ⟨hs.current_incomplete hwas, hs.completed_nodup⟩
    · rw [hcompleted, hissued]
      intro g hg
      rcases List.mem_append.mp hg with hold | hnew
      · exact hs.completed_issued g hold
      · obtain rfl := List.mem_singleton.mp hnew
        exact hs.current_issued hcurrent
    · rw [hpublished, hissued]
      exact hs.published_issued
    · exact hpublished ▸ hs.published_sorted
  | publish g hcurrent hcoordinator hissued hcompleted hpublished =>
    constructor
    · rw [hissued, hcoordinator]
      exact hs.issued_eq
    · exact hcoordinator ▸ hs.current_pos
    · rw [hcoordinator, hcompleted]
      exact hs.current_incomplete
    · exact hcompleted ▸ hs.completed_nodup
    · rw [hcompleted, hissued]
      exact hs.completed_issued
    · rw [hpublished, hissued]
      intro g' hg'
      rcases List.mem_append.mp hg' with hold | hnew
      · exact hs.published_issued g' hold
      · obtain rfl := List.mem_singleton.mp hnew
        exact hs.current_issued hcurrent
    · rw [hpublished, List.pairwise_append]
      refine ⟨hs.published_sorted, List.pairwise_singleton _ _, ?_⟩
      intro g' hg' _ hnew
      obtain rfl := List.mem_singleton.mp hnew
      rw [(isCurrent_iff.mp hcurrent).2]
      exact (hs.mem_issued.mp (hs.published_issued g' hg')).2

theorem Effect.completed_subset (h : Effect s t) : s.completed ⊆ t.completed := by
  cases h with
  | silent _ _ _ hcompleted _ => exact hcompleted ▸ List.Subset.refl _
  | issue _ _ _ _ _ hcompleted _ => exact hcompleted ▸ List.Subset.refl _
  | complete g _ _ _ _ hcompleted _ => exact hcompleted ▸ List.subset_append_left _ _
  | publish g _ _ _ hcompleted _ => exact hcompleted ▸ List.Subset.refl _

end Consistency

/-- A run of the operations and workers from the initial state. -/
abbrev RefreshRun := Run Step ({} : RefreshSystem)

theorem consistent_of_run {events : List RefreshEvent} {s : RefreshSystem}
    (hrun : RefreshRun events s) : s.Consistent := by
  refine hrun.invariant (fun _ _ _ hs hstep => (step_effect hstep).consistent hs) ?_
  constructor <;> simp

/-- Issuing, completing and publishing in one step: each only at its time. -/
structure Timely (s t : RefreshSystem) : Prop where
  issues : ∀ g, t.issued = s.issued ++ [g] →
    s.coordinator.active = false ∧ s.coordinator.mutationActive = false
  completes : ∀ g, t.completed = s.completed ++ [g] → s.coordinator.isCurrent g
  publishes : ∀ g, t.published = s.published ++ [g] → s.coordinator.isCurrent g

theorem Effect.timely {s t : RefreshSystem} (h : Effect s t) : Timely s t := by
  have hself : ∀ (xs : List ℕ) g, xs ≠ xs ++ [g] := by simp
  have hlast : ∀ (xs : List ℕ) g g', xs ++ [g] = xs ++ [g'] → g = g' := by simp
  cases h with
  | silent _ _ hissued hcompleted hpublished =>
    constructor
    · exact fun g hg => absurd (hissued.symm.trans hg) (hself _ g)
    · exact fun g hg => absurd (hcompleted.symm.trans hg) (hself _ g)
    · exact fun g hg => absurd (hpublished.symm.trans hg) (hself _ g)
  | issue hactive hmutation _ _ _ hcompleted hpublished =>
    constructor
    · exact fun _ _ => ⟨hactive, hmutation⟩
    · exact fun g hg => absurd (hcompleted.symm.trans hg) (hself _ g)
    · exact fun g hg => absurd (hpublished.symm.trans hg) (hself _ g)
  | complete g hcurrent _ _ hissued hcompleted hpublished =>
    constructor
    · exact fun g hg => absurd (hissued.symm.trans hg) (hself _ g)
    · exact fun g' hg => hlast _ g g' (hcompleted.symm.trans hg) ▸ hcurrent
    · exact fun g hg => absurd (hpublished.symm.trans hg) (hself _ g)
  | publish g hcurrent _ hissued hcompleted hpublished =>
    constructor
    · exact fun g hg => absurd (hissued.symm.trans hg) (hself _ g)
    · exact fun g hg => absurd (hcompleted.symm.trans hg) (hself _ g)
    · exact fun g' hg => hlast _ g g' (hpublished.symm.trans hg) ▸ hcurrent

/-- Generations are issued in order, one at a time and never beside a mutation; each completes at
most once, while it is current, and then never is again. Publications are of the current
generation, so those of one refresh all come before those of the next. -/
theorem refreshes_serialized {events : List RefreshEvent} {s : RefreshSystem}
    (hrun : RefreshRun events s) :
    s.issued = List.range' 1 s.issued.length ∧
      (∀ g g', s.coordinator.isCurrent g → s.coordinator.isCurrent g' → g = g') ∧
      s.completed.Nodup ∧ s.completed ⊆ s.issued ∧
      (∀ later t, Run Step s later t → ∀ g ∈ s.completed, t.coordinator.isCurrent g = false) ∧
      (∀ event t, s.Step event t → Timely s t) ∧
      s.published.Pairwise (· ≤ ·) := by
  have hs := consistent_of_run hrun
  refine ⟨?_, ?_, hs.completed_nodup, hs.completed_issued, ?_, ?_, hs.published_sorted⟩
  · rw [hs.issued_eq, List.length_range']
  · intro g g' hg hg'
    rw [(isCurrent_iff.mp hg).2, (isCurrent_iff.mp hg').2]
  · intro later t hlater g hg
    have ht : t.Consistent ∧ g ∈ t.completed := by
      refine hlater.invariant (I := fun t => t.Consistent ∧ g ∈ t.completed) ?_ ⟨hs, hg⟩
      intro _ _ _ ht hstep
      exact ⟨(step_effect hstep).consistent ht.1, (step_effect hstep).completed_subset ht.2⟩
    exact ht.1.completed_stale ht.2
  · exact fun event t hstep => (step_effect hstep).timely

/-- The second generation, issued after the first one completed from outside its worker. -/
theorem second_refresh_serialized :
    ∃ s, RefreshRun [.request .initial, .resume 1, .complete 1, .request .manual, .resume 1,
        .resume 2] s ∧
      s.published = [1, 2] ∧ s.coordinator.isCurrent 2 ∧ s.issued = List.range' 1 s.issued.length ∧
      s.completed.Nodup ∧ s.published.Pairwise (· ≤ ·) := by
  have hrun : RefreshRun [.request .initial, .resume 1, .complete 1, .request .manual, .resume 1,
      .resume 2] _ := .of_foldlM rfl
  have h := refreshes_serialized hrun
  exact ⟨_, hrun, rfl, rfl, h.1, h.2.2.1, h.2.2.2.2.2.2⟩

end RefreshSystem

end Kaskade
