import Kaskade.BoundedSteps
import Mathlib.Logic.Relation

/-!
# Loops that follow steps

A loop replaces its state by the next one until there is none. With finitely many states it comes to
an end exactly if it is not led into a circle.
-/

namespace Kaskade

namespace Repeated

variable {S : Type} (step : S → Option S)

def Turns (s t : S) : Prop := step s = some t

def Ends (s r : S) : Prop := Relation.ReflTransGen (Turns step) s r ∧ step r = none

def Circular (s : S) : Prop :=
  ∃ c, Relation.ReflTransGen (Turns step) s c ∧ Relation.TransGen (Turns step) c c

def run : ℕ → S → Option S
  | 0, _ => none
  | fuel + 1, s =>
    match step s with
    | some t => run fuel t
    | none => some s

variable {step} {s t r r' : S} {fuel : ℕ}

theorem Turns.eq {t' : S} (h : Turns step s t) (h' : Turns step s t') : t = t' :=
  Option.some.inj (h.symm.trans h')

theorem run_turn (h : Turns step s t) : run step (fuel + 1) s = run step fuel t := by
  rw [run, h]

theorem run_stop (h : step s = none) : run step (fuel + 1) s = some s := by
  rw [run, h]

theorem run_succ (h : run step fuel s = some r) : run step (fuel + 1) s = some r := by
  induction fuel generalizing s with
  | zero => cases h
  | succ fuel ih =>
    cases hstep : step s with
    | none => rwa [run_stop hstep] at h ⊢
    | some t =>
      rw [run_turn hstep] at h ⊢
      exact ih h

theorem Ends.of_turn (hstep : Turns step s t) (h : Ends step t r) : Ends step s r :=
  ⟨.head hstep h.1, h.2⟩

theorem Ends.turn (hstep : Turns step s t) (h : Ends step s r) : Ends step t r := by
  obtain ⟨hchain, hnone⟩ := h
  rcases hchain.cases_head with rfl | ⟨t', hstep', hchain⟩
  · cases hnone.symm.trans hstep
  · exact ⟨hstep.eq hstep' ▸ hchain, hnone⟩

theorem ends_of_run (h : run step fuel s = some r) : Ends step s r := by
  induction fuel generalizing s with
  | zero => cases h
  | succ fuel ih =>
    cases hstep : step s with
    | none =>
      rw [run_stop hstep] at h
      obtain rfl := Option.some.inj h
      exact ⟨.refl, hstep⟩
    | some t =>
      rw [run_turn hstep] at h
      exact (ih h).of_turn hstep

theorem Ends.exists_run (h : Ends step s r) : ∃ fuel, run step fuel s = some r := by
  obtain ⟨hchain, hnone⟩ := h
  induction hchain using Relation.ReflTransGen.head_induction_on with
  | refl => exact ⟨1, run_stop hnone⟩
  | head hstep _ ih =>
    obtain ⟨fuel, hfuel⟩ := ih
    exact ⟨fuel + 1, (run_turn hstep).trans hfuel⟩

theorem Ends.unique (h : Ends step s r) (h' : Ends step s r') : r = r' := by
  obtain ⟨hchain, hnone⟩ := h
  induction hchain using Relation.ReflTransGen.head_induction_on with
  | refl =>
    rcases h'.1.cases_head with rfl | ⟨t, hstep, -⟩
    · rfl
    · cases hnone.symm.trans hstep
  | head hstep _ ih => exact ih (h'.turn hstep)

theorem not_circular_of_stop (h : step s = none) : ¬ Circular step s := by
  rintro ⟨c, hchain, hcycle⟩
  rcases hchain.cases_head with rfl | ⟨t, hstep, -⟩
  · obtain ⟨t, hstep, -⟩ := Relation.TransGen.head'_iff.mp hcycle
    cases h.symm.trans hstep
  · cases h.symm.trans hstep

/-- A circle that a turn leads to, or leads out of, is the same circle. -/
theorem circular_turn (hstep : Turns step s t) : Circular step s ↔ Circular step t := by
  constructor
  · rintro ⟨c, hchain, hcycle⟩
    rcases hchain.cases_head with rfl | ⟨t', hstep', hchain⟩
    · obtain ⟨t', hstep', hback⟩ := Relation.TransGen.head'_iff.mp hcycle
      obtain rfl := hstep.eq hstep'
      exact ⟨s, hback, hcycle⟩
    · exact ⟨c, hstep.eq hstep' ▸ hchain, hcycle⟩
  · rintro ⟨c, hchain, hcycle⟩
    exact ⟨c, .head hstep hchain, hcycle⟩

theorem Ends.not_circular (h : Ends step s r) : ¬ Circular step s := by
  obtain ⟨hchain, hnone⟩ := h
  induction hchain using Relation.ReflTransGen.head_induction_on with
  | refl => exact not_circular_of_stop hnone
  | head hstep _ ih => exact (circular_turn hstep).not.mpr ih

/-- Among finitely many states, a loop that gets into no circle comes to an end. -/
theorem exists_ends {states : List S} (hclosed : ∀ s ∈ states, ∀ t, Turns step s t → t ∈ states)
    (hs : s ∈ states) (h : ¬ Circular step s) : ∃ r, Ends step s r := by
  classical
  suffices hchain : ∀ n (visited : List S) s, s ∈ states →
      (∀ v ∈ visited, Relation.TransGen (Turns step) v s) → ¬ Circular step s →
      outside states.toFinset visited ≤ n → ∃ r, Ends step s r from
    hchain _ [] s hs (fun v hv => absurd hv List.not_mem_nil) h (Nat.le_refl _)
  intro n
  induction n with
  | zero =>
    intro visited s hs hvisited hcircular hn
    have hnew : s ∉ visited := fun hmem => hcircular ⟨s, .refl, hvisited s hmem⟩
    have hless := outside_lt (List.mem_toFinset.mpr hs) hnew
    omega
  | succ n ih =>
    intro visited s hs hvisited hcircular hn
    have hnew : s ∉ visited := fun hmem => hcircular ⟨s, .refl, hvisited s hmem⟩
    have hless := outside_lt (List.mem_toFinset.mpr hs) hnew
    cases hstep : step s with
    | none => exact ⟨s, .refl, hstep⟩
    | some t =>
      have hvisited' : ∀ v ∈ visited ++ [s], Relation.TransGen (Turns step) v t := by
        intro v hv
        rcases List.mem_append.mp hv with hv | hv
        · exact (hvisited v hv).tail hstep
        · exact List.mem_singleton.mp hv ▸ .single hstep
      obtain ⟨r, hr⟩ := ih (visited ++ [s]) t (hclosed s hs t hstep) hvisited'
        ((circular_turn hstep).not.mp hcircular) (by omega)
      exact ⟨r, hr.of_turn hstep⟩

end Repeated

end Kaskade
