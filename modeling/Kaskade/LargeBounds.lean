import Kaskade.BoundedSteps
import Kaskade.RepeatedSteps
import Mathlib.Order.Filter.AtTopBot.Basic
import Mathlib.Order.Filter.Finite

/-!
# Bounds that are large enough

A computation whose result does not change with larger bounds has it with all bounds from some bound
on. Finitely many such computations share a bound.
-/

namespace Kaskade

open Filter

theorem eventually_forall_mem {α : Type} {P : ℕ → α → Prop} {items : List α}
    (h : ∀ a ∈ items, ∀ᶠ n in atTop, P n a) : ∀ᶠ n in atTop, ∀ a ∈ items, P n a :=
  (eventually_all_finite items.finite_toSet).mpr h

namespace Repeated

variable {S : Type} {step : S → Option S} {s r : S}

theorem run_mono {m n : ℕ} (hmn : m ≤ n) (h : run step m s = some r) : run step n s = some r := by
  induction hmn with
  | refl => exact h
  | step _ ih => exact run_succ ih

/-- With every bound that is large enough, the loop gives the state that it ends with. -/
theorem Ends.eventually_run (h : Ends step s r) : ∀ᶠ fuel in atTop, run step fuel s = some r := by
  obtain ⟨n, hn⟩ := h.exists_run
  exact eventually_atTop.mpr ⟨n, fun m hm => run_mono hm hn⟩

end Repeated

namespace Steps

variable {ε α β : Type} {x : ℕ → Steps ε α}

/-- A traversal ends if each item does that it comes to. -/
theorem eventually_mapM {f : ℕ → α → Steps ε β} {items : List α}
    (h : ∀ before a after, items = before ++ a :: after →
      (∀ b ∈ before, ∃ fuel result, (f fuel b).run = some (.ok result)) →
        ∀ᶠ fuel in atTop, (f fuel a).run.isSome) :
    ∀ᶠ fuel in atTop, (items.mapM (f fuel)).run.isSome := by
  induction items with
  | nil => exact Eventually.of_forall fun _ => rfl
  | cons a items ih =>
    have hfirst := h [] a items rfl (by simp)
    have hrest : (∃ fuel result, (f fuel a).run = some (.ok result)) →
        ∀ᶠ fuel in atTop, (items.mapM (f fuel)).run.isSome := by
      intro hreturns
      refine ih fun before b after hsplit hbefore => ?_
      exact h (a :: before) b after (by rw [hsplit, List.cons_append])
        (List.forall_mem_cons.mpr ⟨hreturns, hbefore⟩)
    have hnext : ∀ᶠ fuel in atTop, (∃ result, (f fuel a).run = some (.ok result)) →
        (items.mapM (f fuel)).run.isSome := by
      by_cases hreturns : ∃ fuel result, (f fuel a).run = some (.ok result)
      · exact (hrest hreturns).mono fun _ h _ => h
      · exact Eventually.of_forall fun fuel ⟨result, hresult⟩ => absurd ⟨fuel, result, hresult⟩ hreturns
    filter_upwards [hfirst, hnext] with fuel hends hnext
    obtain ⟨r, hr⟩ := Option.isSome_iff_exists.mp hends
    rw [List.mapM_cons, run_bind, hr]
    cases r with
    | error e => rfl
    | ok b =>
      obtain ⟨r, hr⟩ := Option.isSome_iff_exists.mp (hnext ⟨b, hr⟩)
      simp only [run_bind, hr]
      cases r <;> rfl

end Steps

end Kaskade
