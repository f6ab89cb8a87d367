import Mathlib.Data.List.Nodup
import Mathlib.Logic.Relation

/-!
# Dependency orders

Items are done one after the other, each after those it depends on and each once. What can be done
in this way is exactly what leads to no cycle of dependencies.
-/

namespace Kaskade

namespace Dependencies

variable {K : Type} {deps : K → List K}

def Depends (deps : K → List K) (k d : K) : Prop := d ∈ deps k

def Leads (deps : K → List K) (targets : List K) (k : K) : Prop :=
  ∃ t ∈ targets, Relation.ReflTransGen (Depends deps) t k

/-- Nothing that some items lead to depends on itself. -/
def Acyclic (deps : K → List K) (targets : List K) : Prop :=
  ∀ k, Leads deps targets k → ¬ Relation.TransGen (Depends deps) k k

/-- With some items done, all targets are done, each after those it depends on. -/
inductive Builds (deps : K → List K) : List K → List K → List K → Prop where
  | nil {done : List K} : Builds deps [] done done
  | skip {k : K} {ks done done' : List K} : k ∈ done → Builds deps ks done done' →
      Builds deps (k :: ks) done done'
  | build {k : K} {ks done mid done' : List K} : Builds deps (deps k) done mid → k ∉ mid →
      Builds deps ks (mid ++ [k]) done' → Builds deps (k :: ks) done done'

def InOrder (deps : K → List K) (order : List K) : Prop :=
  ∀ pre k post, order = pre ++ k :: post → ∀ d ∈ deps k, d ∈ pre

theorem Leads.trans {targets : List K} {k d : K} (h : Leads deps targets k)
    (hd : Relation.ReflTransGen (Depends deps) k d) : Leads deps targets d := by
  obtain ⟨t, ht, hchain⟩ := h
  exact ⟨t, ht, hchain.trans hd⟩

theorem leads_of_mem {targets : List K} {k : K} (h : k ∈ targets) : Leads deps targets k :=
  ⟨k, h, .refl⟩

section Builds

variable {ks done done' : List K}

theorem Builds.subset (h : Builds deps ks done done') : ∀ k ∈ done, k ∈ done' := by
  induction h with
  | nil => exact fun _ hk => hk
  | skip _ _ ih => exact ih
  | build _ _ _ ihmid ihrest => exact fun k hk => ihrest k (List.mem_append_left _ (ihmid k hk))

theorem Builds.targets_done (h : Builds deps ks done done') : ∀ k ∈ ks, k ∈ done' := by
  induction h with
  | nil => exact fun _ hk => absurd hk List.not_mem_nil
  | skip hk hrest ih =>
    intro k' hk'
    rcases List.mem_cons.mp hk' with rfl | hk'
    · exact hrest.subset _ hk
    · exact ih k' hk'
  | build _ _ hrest _ ih =>
    intro k' hk'
    rcases List.mem_cons.mp hk' with rfl | hk'
    · exact hrest.subset _ (by simp)
    · exact ih k' hk'

theorem Builds.nodup (h : Builds deps ks done done') (hdone : done.Nodup) : done'.Nodup := by
  induction h with
  | nil => exact hdone
  | skip _ _ ih => exact ih hdone
  | build _ hk _ ihmid ihrest =>
    refine ihrest (List.nodup_append.mpr ⟨ihmid hdone, List.nodup_singleton _, ?_⟩)
    intro a ha b hb hab
    obtain rfl := List.mem_singleton.mp hb
    exact hk (hab ▸ ha)

theorem InOrder.snoc {order : List K} {k : K} (h : InOrder deps order)
    (hk : ∀ d ∈ deps k, d ∈ order) : InOrder deps (order ++ [k]) := by
  intro pre k' post hsplit d hd
  -- The split is at the new key, or it is one of the old order.
  rcases List.eq_nil_or_concat post with rfl | ⟨post, last, rfl⟩
  · obtain ⟨rfl, hkey⟩ := List.append_inj' hsplit rfl
    obtain rfl := List.singleton_inj.mp hkey
    exact hk d hd
  · rw [List.concat_eq_append, ← List.cons_append, ← List.append_assoc] at hsplit
    exact h pre k' post (List.append_inj_left' hsplit rfl) d hd

theorem Builds.inOrder (h : Builds deps ks done done') (hdone : InOrder deps done) :
    InOrder deps done' := by
  induction h with
  | nil => exact hdone
  | skip _ _ ih => exact ih hdone
  | build hmid _ _ ihmid ihrest => exact ihrest ((ihmid hdone).snoc hmid.targets_done)

theorem Builds.leads {targets : List K} (h : Builds deps ks done done')
    (hks : ∀ k ∈ ks, Leads deps targets k) (hdone : ∀ k ∈ done, Leads deps targets k) :
    ∀ k ∈ done', Leads deps targets k := by
  induction h with
  | nil => exact hdone
  | skip _ _ ih => exact ih (fun k hk => hks k (List.mem_cons_of_mem _ hk)) hdone
  | build _ _ _ ihmid ihrest =>
    have hk := hks _ List.mem_cons_self
    have hmid := ihmid (fun d hd => hk.trans (.single hd)) hdone
    refine ihrest (fun k' hk' => hks k' (List.mem_cons_of_mem _ hk')) fun k' hk' => ?_
    rcases List.mem_append.mp hk' with hk' | hk'
    · exact hmid k' hk'
    · exact List.mem_singleton.mp hk' ▸ hk

/-- What is done on the way to some targets is what they lead to. -/
theorem Builds.new_leads (h : Builds deps ks done done') :
    ∀ k ∈ done', k ∈ done ∨ Leads deps ks k := by
  induction h with
  | nil => exact fun k hk => .inl hk
  | skip _ _ ih =>
    intro k hk
    exact (ih k hk).imp_right fun ⟨t, ht, hchain⟩ => ⟨t, List.mem_cons_of_mem _ ht, hchain⟩
  | @build k' ks done mid done' _ _ _ ihmid ihrest =>
    intro k hk
    rcases ihrest k hk with hmem | ⟨t, ht, hchain⟩
    · rcases List.mem_append.mp hmem with hmem | hmem
      · refine (ihmid k hmem).imp_right fun ⟨t, ht, hchain⟩ => ?_
        exact ⟨k', List.mem_cons_self, .head ht hchain⟩
      · exact .inr ⟨k', List.mem_cons_self, List.mem_singleton.mp hmem ▸ .refl⟩
    · exact .inr ⟨t, List.mem_cons_of_mem _ ht, hchain⟩

theorem Builds.cons {k : K} {mid : List K} (h : Builds deps [k] done mid)
    (hrest : Builds deps ks mid done') : Builds deps (k :: ks) done done' := by
  cases h with
  | skip hk hnil =>
    cases hnil
    exact .skip hk hrest
  | build hmid hk hnil =>
    cases hnil
    exact .build hmid hk hrest

/-- Only the dependencies of what is done on the way count. -/
theorem Builds.congr {deps' : K → List K} (h : Builds deps ks done done')
    (hsame : ∀ k ∈ done', k ∉ done → deps k = deps' k) : Builds deps' ks done done' := by
  induction h with
  | nil => exact .nil
  | skip hk _ ih => exact .skip hk (ih hsame)
  | @build k ks done mid done' hmid hk hrest ihmid ihrest =>
    have hdone : k ∈ done' := hrest.subset k (by simp)
    have hnew : k ∉ done := fun hmem => hk (hmid.subset k hmem)
    have hbefore : ∀ d ∈ mid, d ∈ done' := fun d hd => hrest.subset d (List.mem_append_left _ hd)
    refine .build ?_ hk (ihrest fun d hd hnot => hsame d hd fun hmem => hnot ?_)
    · rw [← hsame k hdone hnew]
      exact ihmid fun d hd hnot => hsame d (hbefore d hd) hnot
    · exact List.mem_append_left _ (hmid.subset d hmem)

end Builds

theorem InOrder.before {pre post : List K} {k d : K} (h : InOrder deps (pre ++ k :: post))
    (hd : Relation.TransGen (Depends deps) k d) : d ∈ pre := by
  induction hd with
  | single hd => exact h pre k post rfl _ hd
  | tail _ hd ih =>
    obtain ⟨pre₁, pre₂, rfl⟩ := List.append_of_mem ih
    have hmem := h pre₁ _ (pre₂ ++ k :: post) (by simp) _ hd
    exact List.mem_append_left _ hmem

/-- Nothing in an order without repetitions depends on itself. -/
theorem InOrder.acyclic {order : List K} (h : InOrder deps order) (hnodup : order.Nodup) {k : K}
    (hk : k ∈ order) : ¬ Relation.TransGen (Depends deps) k k := by
  intro hcycle
  obtain ⟨pre, post, rfl⟩ := List.append_of_mem hk
  have hmem := h.before hcycle
  exact (List.nodup_append.mp hnodup).2.2 k hmem k List.mem_cons_self rfl

theorem InOrder.leads_mem {order targets : List K} (h : InOrder deps order)
    (htargets : ∀ k ∈ targets, k ∈ order) {k : K} (hk : Leads deps targets k) : k ∈ order := by
  obtain ⟨t, ht, hchain⟩ := hk
  induction hchain with
  | refl => exact htargets t ht
  | tail _ hd ih =>
    obtain ⟨pre, post, rfl⟩ := List.append_of_mem ih
    exact List.mem_append_left _ (h pre _ post rfl _ hd)

/-- What was built from nothing: exactly what the targets lead to, once each, in order, and without
cycles. -/
theorem Builds.complete {targets order : List K} (h : Builds deps targets [] order) :
    order.Nodup ∧ InOrder deps order ∧ (∀ k, k ∈ order ↔ Leads deps targets k) ∧
      Acyclic deps targets := by
  have hnodup : order.Nodup := h.nodup List.nodup_nil
  have hempty : InOrder deps [] := by
    intro pre k post hsplit
    simp at hsplit
  have horder : InOrder deps order := h.inOrder hempty
  have hmem : ∀ k, k ∈ order ↔ Leads deps targets k := by
    intro k
    constructor
    · exact h.leads (fun _ => leads_of_mem) (by simp) k
    · exact horder.leads_mem h.targets_done
  exact ⟨hnodup, horder, hmem, fun k hk => horder.acyclic hnodup ((hmem k).mpr hk)⟩

end Dependencies

end Kaskade
