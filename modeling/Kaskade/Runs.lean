import Mathlib.Data.List.Induction
import Mathlib.Logic.Basic

/-!
# Runs

Finite runs of a labelled step relation, and the invariants of the states they reach.
-/

namespace Kaskade

variable {σ ε : Type}

/-- The events of a run, in order, and the state they lead to. -/
inductive Run (step : σ → ε → σ → Prop) (start : σ) : List ε → σ → Prop where
  | nil : Run step start [] start
  | snoc {events : List ε} {s s' : σ} {event : ε} :
      Run step start events s → step s event s' → Run step start (events ++ [event]) s'

namespace Run

variable {step : σ → ε → σ → Prop} {start s : σ} {events : List ε}

/-- What holds at the start and is kept by every step holds after every run. -/
theorem invariant {I : σ → Prop} (hstep : ∀ s event s', I s → step s event s' → I s')
    (hrun : Run step start events s) (hstart : I start) : I s := by
  induction hrun with
  | nil => exact hstart
  | snoc _ hlast ih => exact hstep _ _ _ ih hlast

theorem append {later : List ε} {t : σ} (hrun : Run step start events s)
    (hlater : Run step s later t) : Run step start (events ++ later) t := by
  induction hlater with
  | nil => rwa [List.append_nil]
  | snoc _ hlast ih =>
    rw [← List.append_assoc]
    exact .snoc ih hlast

theorem cons {event : ε} {t : σ} (hstep : step start event t) (hrun : Run step t events s) :
    Run step start (event :: events) s :=
  (Run.nil.snoc hstep).append hrun

theorem of_nil (h : Run step start [] s) : s = start := by
  generalize hlist : [] = list at h
  cases h with
  | nil => rfl
  | snoc => simp at hlist

theorem of_concat {event : ε} (h : Run step start (events ++ [event]) s) :
    ∃ t, Run step start events t ∧ step t event s := by
  generalize hlist : events ++ [event] = list at h
  cases h with
  | nil => simp at hlist
  | snoc hrun hlast =>
    obtain ⟨rfl, hevent⟩ := List.append_inj' hlist rfl
    obtain rfl := List.singleton_inj.mp hevent
    exact ⟨_, hrun, hlast⟩

/-- The states between two parts of a run. -/
theorem of_append {later : List ε} (h : Run step start (events ++ later) s) :
    ∃ t, Run step start events t ∧ Run step t later s := by
  induction later using List.reverseRecOn generalizing s with
  | nil => exact ⟨s, List.append_nil events ▸ h, .nil⟩
  | append_singleton later event ih =>
    rw [← List.append_assoc] at h
    obtain ⟨t, hrun, hlast⟩ := of_concat h
    obtain ⟨u, hfirst, hlater⟩ := ih hrun
    exact ⟨u, hfirst, hlater.snoc hlast⟩

theorem split {event : ε} {later : List ε} (h : Run step start (events ++ event :: later) s) :
    ∃ t u, Run step start events t ∧ step t event u ∧ Run step u later s := by
  rw [List.append_cons] at h
  obtain ⟨u, hfirst, hlater⟩ := of_append h
  obtain ⟨t, hbefore, hevent⟩ := of_concat hfirst
  exact ⟨t, u, hbefore, hevent, hlater⟩

theorem of_cons {event : ε} (h : Run step start (event :: events) s) :
    ∃ t, step start event t ∧ Run step t events s := by
  rw [← List.nil_append (event :: events)] at h
  obtain ⟨t, u, hnil, hstep, hrun⟩ := split h
  exact ⟨u, of_nil hnil ▸ hstep, hrun⟩

/-- A run whose events meet a condition in the states that they can reach. -/
theorem restrict {C : σ → ε → Prop} (hrun : Run step start events s)
    (h : ∀ before s, Run step start before s → before ⊆ events → ∀ event ∈ events, C s event) :
    Run (fun s event t => step s event t ∧ C s event) start events s := by
  induction hrun with
  | nil => exact .nil
  | @snoc earlier t t' last hearlier hlast ih =>
    have hsub : earlier ⊆ earlier ++ [last] := List.subset_append_left _ _
    refine .snoc (ih fun before s hbefore hmem event hevent => ?_) ⟨hlast, ?_⟩
    · exact h before s hbefore (fun _ hb => hsub (hmem hb)) event (hsub hevent)
    · exact h earlier t hearlier hsub last (List.mem_append_right _ List.mem_cons_self)

theorem of_foldlM {next : σ → ε → Option σ} (h : events.foldlM next start = some s) :
    Run (fun s event t => next s event = some t) start events s := by
  suffices hfrom : ∀ before mid, Run (fun s event t => next s event = some t) start before mid →
      events.foldlM next mid = some s →
      Run (fun s event t => next s event = some t) start (before ++ events) s from
    hfrom [] start .nil h
  clear h
  induction events with
  | nil =>
    intro before mid hbefore h
    obtain rfl := Option.some.inj h
    rwa [List.append_nil]
  | cons event events ih =>
    intro before mid hbefore h
    rw [List.foldlM_cons] at h
    cases hnext : next mid event with
    | none => simp [hnext] at h
    | some t =>
      rw [hnext] at h
      rw [List.append_cons]
      exact ih _ t (.snoc hbefore hnext) h

end Run

end Kaskade
