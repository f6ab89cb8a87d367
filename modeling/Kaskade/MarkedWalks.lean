import Kaskade.BoundedSteps
import Mathlib.Data.Finset.Card
import Mathlib.Logic.Relation

/-!
# Walks with marks

A depth-first walk of a graph whose nodes are fetched along edges. Every edge has a key; the
walk looks at the key first, passes over the edge where the key is marked, and otherwise marks
it, walks the node behind the edge and leaves the edge. Other edges may have the same key. The
walk comes to an end on every finite graph, cycles or not, and reaches every key once; on a graph
without cycles the edges are left in the order of a dependency order.
-/

namespace Kaskade

/-- A walk over nodes `N` along edges `E` with keys `κ`. The marks are part of a state `σ`, which
changes where an edge is entered and where it is left; every step may raise an exception. -/
structure MarkedWalk (N E κ σ ε : Type) where
  edges : N → List E
  key : E → Except ε κ
  fetch : E → Except ε N
  marked : σ → κ → Bool
  enter : E → N → σ → Except ε σ
  leave : E → N → σ → Except ε σ
  marked_enter : ∀ {e n k s t}, key e = .ok k → enter e n s = .ok t →
    ∀ k', marked t k' = true ↔ marked s k' = true ∨ k' = k
  marked_leave : ∀ {e n s t}, leave e n s = .ok t → ∀ k, marked t k = marked s k

namespace MarkedWalk

variable {N E κ σ ε : Type} (w : MarkedWalk N E κ σ ε)

/-- Follows edges one after the other, with a walk of the node behind an edge. -/
def follow (visit : N → σ → Steps ε σ) : List E → σ → Steps ε σ
  | [], s => pure s
  | e :: es, s => do
    let k ← w.key e
    if w.marked s k then follow visit es s
    else
      let n ← w.fetch e
      let t ← w.enter e n s
      let u ← visit n t
      let v ← w.leave e n u
      follow visit es v

def walk : ℕ → N → σ → Steps ε σ
  | 0, _, _ => .cutOff
  | depth + 1, n, s => w.follow (walk depth) (w.edges n) s

/-- The edges that can be met from some edges on. -/
inductive Meets (roots : List E) : E → Prop where
  | root {e : E} : e ∈ roots → Meets roots e
  | next {e e' : E} {n : N} : Meets roots e → w.fetch e = .ok n → e' ∈ w.edges n → Meets roots e'

/-- The node behind an edge with the first key has an edge with the second one. -/
def Uses (roots : List E) (k k' : κ) : Prop :=
  ∃ e n e', w.Meets roots e ∧ w.key e = .ok k ∧ w.fetch e = .ok n ∧ e' ∈ w.edges n ∧
    w.key e' = .ok k'

def Acyclic (roots : List E) : Prop := ∀ k, ¬ Relation.TransGen (w.Uses roots) k k

/-- Edges with the same key lead to the same node. -/
def KeyDetermines (roots : List E) : Prop :=
  ∀ e e', w.Meets roots e → w.Meets roots e' → w.key e = w.key e' → w.fetch e = w.fetch e'

/-- A completed walk along edges, with the edges that it entered, in the order in which it left
them. -/
inductive Walked : List E → σ → List E → σ → Prop where
  | nil {s : σ} : Walked [] s [] s
  | skip {e : E} {es left : List E} {s t : σ} {k : κ} : w.key e = .ok k → w.marked s k = true →
      Walked es s left t → Walked (e :: es) s left t
  | enter {e : E} {es below after : List E} {s t u v z : σ} {k : κ} {n : N} : w.key e = .ok k →
      w.marked s k = false → w.fetch e = .ok n → w.enter e n s = .ok t →
      Walked (w.edges n) t below u → w.leave e n u = .ok v → Walked es v after z →
      Walked (e :: es) s (below ++ e :: after) z

variable {w}

theorem walked_of_follow {visit : N → σ → Steps ε σ}
    (hvisit : ∀ n s t, (visit n s).run = some (.ok t) → ∃ left, w.Walked (w.edges n) s left t)
    {es : List E} {s z : σ} (h : (w.follow visit es s).run = some (.ok z)) :
    ∃ left, w.Walked es s left z := by
  induction es generalizing s with
  | nil =>
    cases h
    exact ⟨[], .nil⟩
  | cons e es ih =>
    rw [follow] at h
    obtain ⟨k, hk, h⟩ := Steps.run_bind_eq_ok.mp h
    have hkey : w.key e = .ok k := Option.some.inj hk
    cases hmarked : w.marked s k with
    | true =>
      simp only [hmarked, if_true] at h
      obtain ⟨left, hwalked⟩ := ih h
      exact ⟨left, .skip hkey hmarked hwalked⟩
    | false =>
      simp only [hmarked, Bool.false_eq_true, if_false] at h
      obtain ⟨n, hn, h⟩ := Steps.run_bind_eq_ok.mp h
      obtain ⟨t, ht, h⟩ := Steps.run_bind_eq_ok.mp h
      obtain ⟨u, hu, h⟩ := Steps.run_bind_eq_ok.mp h
      obtain ⟨v, hv, h⟩ := Steps.run_bind_eq_ok.mp h
      obtain ⟨below, hbelow⟩ := hvisit n t u hu
      obtain ⟨after, hafter⟩ := ih h
      exact ⟨_, .enter hkey hmarked (Option.some.inj hn) (Option.some.inj ht) hbelow
        (Option.some.inj hv) hafter⟩

theorem walked_of_walk {depth : ℕ} {n : N} {s z : σ}
    (h : (w.walk depth n s).run = some (.ok z)) : ∃ left, w.Walked (w.edges n) s left z := by
  induction depth generalizing n s z with
  | zero => cases h
  | succ depth ih => exact walked_of_follow (fun _ _ _ => ih) h

section Walked

variable {es left : List E} {s z : σ}

/-- The marks of a completed walk: the old ones, and the keys of the edges it entered. -/
theorem Walked.marked_iff (h : w.Walked es s left z) (k : κ) :
    w.marked z k = true ↔ w.marked s k = true ∨ ∃ e ∈ left, w.key e = .ok k := by
  induction h with
  | nil => simp
  | skip _ _ _ ih => exact ih
  | @enter e es below after s t u v z k' n hkey _ _ henter _ hleave _ ihbelow ihafter =>
    rw [ihafter, w.marked_leave hleave, ihbelow, w.marked_enter hkey henter]
    have hsame : w.key e = .ok k ↔ k = k' := by
      rw [hkey]
      constructor
      · intro he
        exact (Except.ok.inj he).symm
      · intro he
        rw [he]
    constructor
    · rintro (((hs | rfl) | ⟨b, hb, hbk⟩) | ⟨a, ha, hak⟩)
      · exact .inl hs
      · exact .inr ⟨e, by simp, hkey⟩
      · exact .inr ⟨b, by simp [hb], hbk⟩
      · exact .inr ⟨a, by simp [ha], hak⟩
    · rintro (hs | ⟨b, hb, hbk⟩)
      · exact .inl (.inl (.inl hs))
      · rcases List.mem_append.mp hb with hb | hb
        · exact .inl (.inr ⟨b, hb, hbk⟩)
        · rcases List.mem_cons.mp hb with rfl | hb
          · exact .inl (.inl (.inr (hsame.mp hbk)))
          · exact .inr ⟨b, hb, hbk⟩

theorem Walked.marked_mono (h : w.Walked es s left z) {k : κ} (hk : w.marked s k = true) :
    w.marked z k = true :=
  (h.marked_iff k).mpr (.inl hk)

/-- Every edge of the list has a key, which is marked in the end. -/
theorem Walked.marked_of_mem (h : w.Walked es s left z) {e : E} (he : e ∈ es) :
    ∃ k, w.key e = .ok k ∧ w.marked z k = true := by
  induction h with
  | nil => cases he
  | skip hkey hmarked hwalked ih =>
    rcases List.mem_cons.mp he with rfl | he
    · exact ⟨_, hkey, hwalked.marked_mono hmarked⟩
    · exact ih he
  | enter hkey _ _ henter hbelow hleave hafter _ ihafter =>
    rcases List.mem_cons.mp he with rfl | he
    · refine ⟨_, hkey, hafter.marked_mono ?_⟩
      rw [w.marked_leave hleave]
      exact hbelow.marked_mono ((w.marked_enter hkey henter _).mpr (.inr rfl))
    · exact ihafter he

/-- An entered edge was fetched, its key was not marked, and all its node's edges are marked in
the end. -/
theorem Walked.closed (h : w.Walked es s left z) {e : E} (he : e ∈ left) :
    ∃ k n, w.key e = .ok k ∧ w.marked s k = false ∧ w.fetch e = .ok n ∧
      ∀ e' ∈ w.edges n, ∃ k', w.key e' = .ok k' ∧ w.marked z k' = true := by
  induction h with
  | nil => cases he
  | skip _ _ _ ih => exact ih he
  | @enter e₀ es below after s t u v z k₀ n₀ hkey hmarked hfetch henter hbelow hleave hafter
      ihbelow ihafter =>
    have hkeep : ∀ k, w.marked u k = true → w.marked z k = true := by
      intro k hk
      apply hafter.marked_mono
      rwa [w.marked_leave hleave]
    have hnew : ∀ k, w.marked t k = false → w.marked s k = false := by
      intro k hk
      by_contra hs
      have ht := (w.marked_enter hkey henter k).mpr (.inl (by simpa using hs))
      exact absurd ht (by simp [hk])
    rcases List.mem_append.mp he with hb | hb
    · obtain ⟨k, n, hk, hs, hn, hall⟩ := ihbelow hb
      refine ⟨k, n, hk, hnew k hs, hn, fun e' he' => ?_⟩
      obtain ⟨k', hk', hmarked'⟩ := hall e' he'
      exact ⟨k', hk', hkeep k' hmarked'⟩
    · rcases List.mem_cons.mp hb with rfl | hb
      · refine ⟨k₀, n₀, hkey, hmarked, hfetch, fun e' he' => ?_⟩
        obtain ⟨k', hk', hmarked'⟩ := hbelow.marked_of_mem he'
        exact ⟨k', hk', hkeep k' hmarked'⟩
      · obtain ⟨k, n, hk, hs, hn, hall⟩ := ihafter hb
        refine ⟨k, n, hk, ?_, hn, hall⟩
        apply hnew
        by_contra ht
        have hv : w.marked v k = true := by
          rw [w.marked_leave hleave]
          exact hbelow.marked_mono (by simpa using ht)
        exact absurd hv (by simp [hs])

theorem Walked.nodup (h : w.Walked es s left z) : (left.map w.key).Nodup := by
  induction h with
  | nil => exact List.nodup_nil
  | skip _ _ _ ih => exact ih
  | @enter e es below after s t u v z k n hkey _ _ henter hbelow hleave hafter ihbelow ihafter =>
    have hu : w.marked u k = true :=
      hbelow.marked_mono ((w.marked_enter hkey henter k).mpr (.inr rfl))
    -- the key is marked from here on, and the keys entered later were not marked
    have hlater : ∀ b ∈ after, ∀ k', w.key b = .ok k' → w.marked u k' = false := by
      intro b hb k' hk'
      obtain ⟨k'', n', hk'', hmarked, -⟩ := hafter.closed hb
      rw [hk'] at hk''
      rw [← w.marked_leave hleave]
      exact Except.ok.inj hk'' ▸ hmarked
    have hbefore : ∀ b ∈ below, ∀ k', w.key b = .ok k' → w.marked u k' = true :=
      fun b hb k' hk' => (hbelow.marked_iff k').mpr (.inr ⟨b, hb, hk'⟩)
    have hkeys : ∀ b ∈ below, ∃ k', w.key b = .ok k' ∧ w.marked t k' = false := by
      intro b hb
      obtain ⟨k', _, hk', hmarked, -⟩ := hbelow.closed hb
      exact ⟨k', hk', hmarked⟩
    rw [List.map_append, List.map_cons, List.nodup_append, List.nodup_cons]
    refine ⟨ihbelow, ⟨?_, ihafter⟩, ?_⟩
    · intro hmem
      obtain ⟨b, hb, hbk⟩ := List.mem_map.mp hmem
      exact absurd hu (by simp [hlater b hb k (hbk.trans hkey)])
    · intro x hx y hy hxy
      obtain ⟨b, hb, rfl⟩ := List.mem_map.mp hx
      obtain ⟨k', hk', hmarked⟩ := hkeys b hb
      rcases List.mem_cons.mp hy with rfl | hy
      · have ht := (w.marked_enter hkey henter k').mpr
          (.inr (Except.ok.inj (hk'.symm.trans (hxy.trans hkey))))
        exact absurd ht (by simp [hmarked])
      · obtain ⟨a, ha, hak⟩ := List.mem_map.mp hy
        have hak' : w.key a = .ok k' := hak.trans (hxy.symm.trans hk')
        exact absurd (hbefore b hb k' hk') (by simp [hlater a ha k' hak'])

/-- Only edges that can be met are entered. -/
theorem Walked.meets {roots : List E} (h : w.Walked es s left z)
    (hes : ∀ e ∈ es, w.Meets roots e) : ∀ e ∈ left, w.Meets roots e := by
  induction h with
  | nil => exact nofun
  | skip _ _ _ ih => exact ih fun e he => hes e (List.mem_cons_of_mem _ he)
  | @enter e es below after s t u v z k n _ _ hfetch _ _ _ _ ihbelow ihafter =>
    have he : w.Meets roots e := hes e List.mem_cons_self
    intro b hb
    rcases List.mem_append.mp hb with hb | hb
    · exact ihbelow (fun e' he' => .next he hfetch he') b hb
    · rcases List.mem_cons.mp hb with rfl | hb
      · exact he
      · exact ihafter (fun e' he' => hes e' (List.mem_cons_of_mem _ he')) b hb

/-- From no marks on, a completed walk enters an edge of every key that can be met. -/
theorem Walked.covers (h : w.Walked es s left z) (hs : ∀ k, w.marked s k = false)
    (hkeys : w.KeyDetermines es) {e : E} (he : w.Meets es e) :
    ∃ k, w.key e = .ok k ∧ ∃ e' ∈ left, w.key e' = .ok k := by
  have hentered : ∀ {k}, w.marked z k = true → ∃ e' ∈ left, w.key e' = .ok k := by
    intro k hk
    refine ((h.marked_iff k).mp hk).resolve_left ?_
    simp [hs k]
  induction he with
  | root he =>
    obtain ⟨k, hk, hmarked⟩ := h.marked_of_mem he
    exact ⟨k, hk, hentered hmarked⟩
  | @next e e' n he hfetch hmem ih =>
    obtain ⟨k, hk, e₀, he₀, hk₀⟩ := ih
    obtain ⟨_, n₀, -, -, hn₀, hall⟩ := h.closed he₀
    have hsame : w.fetch e = w.fetch e₀ :=
      hkeys e e₀ he (h.meets (fun _ => .root) e₀ he₀) (hk.trans hk₀.symm)
    obtain rfl : n = n₀ := Except.ok.inj (hfetch.symm.trans (hsame.trans hn₀))
    obtain ⟨k', hk', hmarked⟩ := hall e' hmem
    exact ⟨k', hk', hentered hmarked⟩

end Walked

variable (w) in
def InOrder : (κ → Prop) → List E → Prop
  | _, [] => True
  | done, e :: es =>
    (∀ n, w.fetch e = .ok n → ∀ e' ∈ w.edges n, ∀ k, w.key e' = .ok k → done k) ∧
      InOrder (fun k => done k ∨ w.key e = .ok k) es

theorem InOrder.append {done : κ → Prop} {es es' : List E} (h : w.InOrder done es)
    (h' : w.InOrder (fun k => done k ∨ ∃ e ∈ es, w.key e = .ok k) es') :
    w.InOrder done (es ++ es') := by
  induction es generalizing done with
  | nil => simpa using h'
  | cons e es ih =>
    refine ⟨h.1, ih h.2 ?_⟩
    simpa [or_assoc] using h'

theorem InOrder.before {done : κ → Prop} {before after : List E} {e e' : E} {n : N} {k : κ}
    (h : w.InOrder done (before ++ e :: after)) (hfetch : w.fetch e = .ok n)
    (he' : e' ∈ w.edges n) (hk : w.key e' = .ok k) :
    done k ∨ ∃ b ∈ before, w.key b = .ok k := by
  induction before generalizing done with
  | nil => exact .inl (h.1 n hfetch e' he' k hk)
  | cons b before ih =>
    rcases ih h.2 with (hdone | hb) | ⟨b', hb', hk'⟩
    · exact .inl hdone
    · exact .inr ⟨b, List.mem_cons_self, hb⟩
    · exact .inr ⟨b', List.mem_cons_of_mem _ hb', hk'⟩

/-- Without cycles the edges are left in a dependency order: a marked key is done, or belongs to
an edge that the walk is still inside of, which leads to every edge from here on. -/
theorem Walked.inOrder {roots es left : List E} {s z : σ} (hacyclic : w.Acyclic roots)
    (h : w.Walked es s left z) (hes : ∀ e ∈ es, w.Meets roots e) {done : κ → Prop}
    (hopen : ∀ k, w.marked s k = true →
      done k ∨ ∀ e ∈ es, ∀ k', w.key e = .ok k' → Relation.TransGen (w.Uses roots) k k') :
    w.InOrder done left := by
  induction h generalizing done with
  | nil => trivial
  | skip _ _ _ ih =>
    refine ih (fun e he => hes e (List.mem_cons_of_mem _ he)) fun k hk => ?_
    exact (hopen k hk).imp_right fun hlead e he => hlead e (List.mem_cons_of_mem _ he)
  | @enter e es below after s t u v z k n hkey _ hfetch henter hbelow hleave _ ihbelow ihafter =>
    have he : w.Meets roots e := hes e List.mem_cons_self
    have huses : ∀ e' ∈ w.edges n, ∀ k', w.key e' = .ok k' → w.Uses roots k k' :=
      fun e' he' k' hk' => ⟨e, n, e', he, hkey, hfetch, he', hk'⟩
    have hinside : w.InOrder done below := by
      refine ihbelow (fun e' he' => .next he hfetch he') fun k₀ hk₀ => ?_
      rcases (w.marked_enter hkey henter k₀).mp hk₀ with hs | rfl
      · refine (hopen k₀ hs).imp_right fun hlead e' he' k' hk' => ?_
        exact (hlead e List.mem_cons_self k hkey).tail (huses e' he' k' hk')
      · exact .inr fun e' he' k' hk' => .single (huses e' he' k' hk')
    refine hinside.append ⟨?_, ?_⟩
    · intro n' hn' e' he' k' hk'
      obtain rfl : n = n' := Except.ok.inj (hfetch.symm.trans hn')
      obtain ⟨k'', hk'', hmarked⟩ := hbelow.marked_of_mem he'
      obtain rfl : k' = k'' := Except.ok.inj (hk'.symm.trans hk'')
      rcases (hbelow.marked_iff k').mp hmarked with ht | hb
      · rcases (w.marked_enter hkey henter k').mp ht with hs | rfl
        · refine .inl ((hopen k' hs).resolve_right fun hlead => ?_)
          exact hacyclic k' ((hlead e List.mem_cons_self k hkey).tail (huses e' he' k' hk'))
        · exact absurd (.single (huses e' he' k' hk')) (hacyclic k')
      · exact .inr hb
    · refine ihafter (fun e' he' => hes e' (List.mem_cons_of_mem _ he')) fun k' hk' => ?_
      rw [w.marked_leave hleave] at hk'
      rcases (hbelow.marked_iff k').mp hk' with ht | hb
      · rcases (w.marked_enter hkey henter k').mp ht with hs | rfl
        · refine (hopen k' hs).imp (fun hdone => .inl (.inl hdone)) fun hlead e' he' => ?_
          exact hlead e' (List.mem_cons_of_mem _ he')
        · exact .inl (.inr hkey)
      · exact .inl (.inl (.inr hb))

/-- One edge of every key that can be met, each behind those of its node. -/
structure DependencyOrder (w : MarkedWalk N E κ σ ε) (roots order : List E) : Prop where
  meets : ∀ e ∈ order, w.Meets roots e
  nodup : (order.map w.key).Nodup
  covers : ∀ e, w.Meets roots e → ∃ e' ∈ order, w.key e' = w.key e
  before : ∀ {pre post e n e'}, order = pre ++ e :: post → w.fetch e = .ok n → e' ∈ w.edges n →
    ∃ b ∈ pre, w.key b = w.key e'

/-- A completed walk from no marks on leaves the edges in a dependency order. -/
theorem Walked.dependencyOrder {roots left : List E} {s z : σ} (h : w.Walked roots s left z)
    (hs : ∀ k, w.marked s k = false) (hkeys : w.KeyDetermines roots) (hacyclic : w.Acyclic roots) :
    w.DependencyOrder roots left where
  meets := h.meets fun _ => .root
  nodup := h.nodup
  covers := by
    intro e he
    obtain ⟨k, hk, e', he', hk'⟩ := h.covers hs hkeys he
    exact ⟨e', he', hk'.trans hk.symm⟩
  before := by
    intro pre post e n e' hsplit hfetch he'
    have hordered : w.InOrder (fun _ => False) left :=
      h.inOrder hacyclic (fun _ => .root) (by simp [hs])
    have he : e ∈ left := by simp [hsplit]
    obtain ⟨_, n', -, -, hn', hall⟩ := h.closed he
    obtain rfl : n = n' := Except.ok.inj (hfetch.symm.trans hn')
    obtain ⟨k, hk, -⟩ := hall e' he'
    rw [hsplit] at hordered
    obtain ⟨b, hb, hbk⟩ := (hordered.before hfetch he' hk).resolve_left id
    exact ⟨b, hb, hbk.trans hk.symm⟩

theorem DependencyOrder.reached {roots order pre post : List E} {e e' : E} {n : N}
    (h : w.DependencyOrder roots order) (hkeys : w.KeyDetermines roots)
    (hsplit : order = pre ++ e :: post) (hfetch : w.fetch e = .ok n)
    (he' : w.Meets (w.edges n) e') : ∃ b ∈ pre, w.key b = w.key e' := by
  have he : w.Meets roots e := h.meets e (by simp [hsplit])
  have hmeets : ∀ {d}, w.Meets (w.edges n) d → w.Meets roots d := by
    intro d hd
    induction hd with
    | root hd => exact .next he hfetch hd
    | next _ hfetch' hd ih => exact .next ih hfetch' hd
  induction he' with
  | root hmem => exact h.before hsplit hfetch hmem
  | @next d d' n' hd hfetch' hmem ih =>
    obtain ⟨b, hb, hkey⟩ := ih
    obtain ⟨pre₁, pre₂, rfl⟩ := List.append_of_mem hb
    have hmem_b : b ∈ order := by simp [hsplit]
    have hsame : w.fetch b = .ok n' :=
      (hkeys b d (h.meets b hmem_b) (hmeets hd) hkey).trans hfetch'
    have hsplit' : order = pre₁ ++ b :: (pre₂ ++ e :: post) := by simp [hsplit]
    obtain ⟨c, hc, hkey'⟩ := h.before hsplit' hsame hmem
    exact ⟨c, List.mem_append_left _ hc, hkey'⟩

section States

variable {roots es left : List E} {s z : σ}

/-- What the steps of the entered edges keep, a completed walk keeps. -/
theorem Walked.invariant {I : σ → Prop} (h : w.Walked es s left z)
    (henter : ∀ {e n s t}, e ∈ left → w.fetch e = .ok n → w.enter e n s = .ok t → I s → I t)
    (hleave : ∀ {e n s t}, e ∈ left → w.fetch e = .ok n → w.leave e n s = .ok t → I s → I t)
    (hs : I s) : I z := by
  induction h with
  | nil => exact hs
  | skip _ _ _ ih => exact ih henter hleave hs
  | @enter e es below after s t u v z k n _ _ hfetch hin _ hout _ ihbelow ihafter =>
    have he : e ∈ below ++ e :: after := List.mem_append_right _ List.mem_cons_self
    have hu : I u := ihbelow (fun he' => henter (List.mem_append_left _ he'))
      (fun he' => hleave (List.mem_append_left _ he')) (henter he hfetch hin hs)
    exact ihafter (fun he' => henter (List.mem_append_right _ (List.mem_cons_of_mem _ he')))
      (fun he' => hleave (List.mem_append_right _ (List.mem_cons_of_mem _ he')))
      (hleave he hfetch hout hu)

/-- What an edge establishes where it is entered or where it is left, and the steps of the entered
edges keep, holds in the end of every edge that was entered. -/
theorem Walked.records {P : E → σ → Prop} (h : w.Walked es s left z)
    (hset : (∀ {e n s t}, e ∈ left → w.fetch e = .ok n → w.enter e n s = .ok t → P e t) ∨
      ∀ {e n s t}, e ∈ left → w.fetch e = .ok n → w.leave e n s = .ok t → P e t)
    (henter : ∀ {e e' n s t}, e ∈ left → e' ∈ left → w.fetch e' = .ok n →
      w.enter e' n s = .ok t → P e s → P e t)
    (hleave : ∀ {e e' n s t}, e ∈ left → e' ∈ left → w.fetch e' = .ok n →
      w.leave e' n s = .ok t → P e s → P e t) : ∀ e ∈ left, P e z := by
  induction h with
  | nil => simp
  | skip _ _ _ ih => exact ih hset henter hleave
  | @enter e es below after s t u v z k n _ _ hfetch hin hbelow hout hafter ihbelow ihafter =>
    have he : e ∈ below ++ e :: after := List.mem_append_right _ List.mem_cons_self
    have hin_of : ∀ {b}, b ∈ below → b ∈ below ++ e :: after := List.mem_append_left _
    have hout_of : ∀ {b}, b ∈ after → b ∈ below ++ e :: after := fun hb =>
      List.mem_append_right _ (List.mem_cons_of_mem _ hb)
    have hkeep : ∀ {b}, b ∈ below ++ e :: after → P b v → P b z := fun hb =>
      hafter.invariant (fun he' => henter hb (hout_of he')) fun he' => hleave hb (hout_of he')
    intro b hb
    rcases List.mem_append.mp hb with hbelow' | hafter'
    · refine hkeep hb (hleave hb he hfetch hout ?_)
      refine ihbelow ?_ (fun hb he' => henter (hin_of hb) (hin_of he'))
        (fun hb he' => hleave (hin_of hb) (hin_of he')) b hbelow'
      rcases hset with hset | hset
      · exact .inl fun he' => hset (hin_of he')
      · exact .inr fun he' => hset (hin_of he')
    · rcases List.mem_cons.mp hafter' with rfl | hafter'
      · refine hkeep hb ?_
        rcases hset with hset | hset
        · refine hleave hb hb hfetch hout ?_
          exact hbelow.invariant (fun he' => henter hb (hin_of he'))
            (fun he' => hleave hb (hin_of he')) (hset hb hfetch hin)
        · exact hset hb hfetch hout
      · refine ihafter ?_ (fun hb he' => henter (hout_of hb) (hout_of he'))
          (fun hb he' => hleave (hout_of hb) (hout_of he')) b hafter'
        rcases hset with hset | hset
        · exact .inl fun he' => hset (hout_of he')
        · exact .inr fun he' => hset (hout_of he')

/-- A list that grows by one item where an edge is left has an item for every edge that was
entered. -/
theorem Walked.emits {β : Type} (out : σ → List β) (emit : E → β) (h : w.Walked es s left z)
    (hes : ∀ e ∈ es, w.Meets roots e)
    (henter : ∀ {e n s t}, w.enter e n s = .ok t → out t = out s)
    (hleave : ∀ {e n s t}, w.Meets roots e → w.fetch e = .ok n → w.leave e n s = .ok t →
      out t = out s ++ [emit e]) : out z = out s ++ left.map emit := by
  induction h with
  | nil => simp
  | skip _ _ _ ih => exact ih fun e he => hes e (List.mem_cons_of_mem _ he)
  | @enter e es below after s t u v z k n _ _ hfetch hin _ hout _ ihbelow ihafter =>
    have he : w.Meets roots e := hes e List.mem_cons_self
    rw [ihafter fun e' he' => hes e' (List.mem_cons_of_mem _ he'), hleave he hfetch hout,
      ihbelow fun e' he' => .next he hfetch he', henter hin]
    simp

end States

section Ends

variable {roots : List E}

def unmarked (w : MarkedWalk N E κ σ ε) (K : Finset κ) (s : σ) : ℕ :=
  (K.filter fun k => w.marked s k = false).card

theorem unmarked_subset {K : Finset κ} {s t : σ}
    (h : ∀ k, w.marked s k = true → w.marked t k = true) :
    K.filter (fun k => w.marked t k = false) ⊆ K.filter fun k => w.marked s k = false := by
  intro k hk
  rw [Finset.mem_filter] at hk ⊢
  refine ⟨hk.1, ?_⟩
  by_contra hs
  exact absurd (h k (by simpa using hs)) (by simp [hk.2])

theorem unmarked_le {K : Finset κ} {s t : σ} (h : ∀ k, w.marked s k = true → w.marked t k = true) :
    w.unmarked K t ≤ w.unmarked K s := Finset.card_le_card (unmarked_subset h)

theorem unmarked_lt {K : Finset κ} {s t : σ} (h : ∀ k, w.marked s k = true → w.marked t k = true)
    {k : κ} (hk : k ∈ K) (hs : w.marked s k = false) (ht : w.marked t k = true) :
    w.unmarked K t < w.unmarked K s := by
  apply Finset.card_lt_card
  refine (Finset.ssubset_iff_of_subset (unmarked_subset h)).mpr ⟨k, ?_, ?_⟩
  · exact Finset.mem_filter.mpr ⟨hk, hs⟩
  · simp [ht]

/-- Where finitely many keys can be met, a walk as deep as there are keys comes to an end. -/
theorem walk_ends {K : Finset κ} (hK : ∀ e k, w.Meets roots e → w.key e = .ok k → k ∈ K)
    {depth : ℕ} {n : N} {s : σ} (hn : ∀ e ∈ w.edges n, w.Meets roots e)
    (hdepth : w.unmarked K s < depth) : (w.walk depth n s).run ≠ none := by
  induction depth generalizing n s with
  | zero => exact absurd hdepth (Nat.not_lt_zero _)
  | succ depth ih =>
    suffices hfollow : ∀ (es : List E) (s : σ), (∀ e ∈ es, w.Meets roots e) →
        w.unmarked K s ≤ depth → (w.follow (w.walk depth) es s).run ≠ none from
      hfollow _ s hn (Nat.le_of_lt_succ hdepth)
    intro es
    induction es with
    | nil => exact fun s _ _ => nofun
    | cons e es ihes =>
      intro s hes hs hnone
      have he : w.Meets roots e := hes e List.mem_cons_self
      have hrest : ∀ e' ∈ es, w.Meets roots e' := fun e' he' => hes e' (List.mem_cons_of_mem _ he')
      rw [follow] at hnone
      rcases Steps.run_bind_eq_none.mp hnone with hlift | ⟨k, hk, hnone⟩
      · cases hlift
      have hkey : w.key e = .ok k := Option.some.inj hk
      cases hmarked : w.marked s k with
      | true =>
        simp only [hmarked, if_true] at hnone
        exact ihes s hrest hs hnone
      | false =>
        simp only [hmarked, Bool.false_eq_true, if_false] at hnone
        rcases Steps.run_bind_eq_none.mp hnone with hlift | ⟨n', hn', hnone⟩
        · cases hlift
        rcases Steps.run_bind_eq_none.mp hnone with hlift | ⟨t, ht, hnone⟩
        · cases hlift
        have hfetch : w.fetch e = .ok n' := Option.some.inj hn'
        have hmarks := w.marked_enter hkey (Option.some.inj ht)
        have hless : w.unmarked K t < w.unmarked K s :=
          unmarked_lt (fun k' hk' => (hmarks k').mpr (.inl hk')) (hK e k he hkey) hmarked
            ((hmarks k).mpr (.inr rfl))
        rcases Steps.run_bind_eq_none.mp hnone with hvisit | ⟨u, hu, hnone⟩
        · exact ih (fun e' he' => .next he hfetch he') (Nat.lt_of_lt_of_le hless hs) hvisit
        rcases Steps.run_bind_eq_none.mp hnone with hlift | ⟨v, hv, hnone⟩
        · cases hlift
        obtain ⟨left, hwalked⟩ := walked_of_walk hu
        refine ihes v hrest (Nat.le_trans (unmarked_le fun k' hk' => ?_) hs) hnone
        rw [w.marked_leave (Option.some.inj hv)]
        exact hwalked.marked_mono ((hmarks k').mpr (.inl hk'))

variable (w) in
def Fails (e : E) (x : ε) : Prop :=
  w.key e = .error x ∨ w.fetch e = .error x ∨
    ∃ n s, w.fetch e = .ok n ∧ (w.enter e n s = .error x ∨ w.leave e n s = .error x)

theorem walk_error (roots : List E) {depth : ℕ} {n : N} {s : σ} {x : ε} (hn : ∀ e ∈ w.edges n, w.Meets roots e)
    (h : (w.walk depth n s).run = some (.error x)) : ∃ e, w.Meets roots e ∧ w.Fails e x := by
  induction depth generalizing n s with
  | zero => cases h
  | succ depth ih =>
    suffices hfollow : ∀ (es : List E) (s : σ), (∀ e ∈ es, w.Meets roots e) →
        (w.follow (w.walk depth) es s).run = some (.error x) →
        ∃ e, w.Meets roots e ∧ w.Fails e x from hfollow _ s hn h
    intro es
    induction es with
    | nil => exact fun s _ h => nomatch h
    | cons e es ihes =>
      intro s hes h
      have he : w.Meets roots e := hes e List.mem_cons_self
      have hrest : ∀ e' ∈ es, w.Meets roots e' := fun e' he' => hes e' (List.mem_cons_of_mem _ he')
      rw [follow] at h
      rcases Steps.run_bind_eq_error.mp h with hlift | ⟨k, -, h⟩
      · exact ⟨e, he, .inl (Option.some.inj hlift)⟩
      cases hmarked : w.marked s k with
      | true =>
        simp only [hmarked, if_true] at h
        exact ihes s hrest h
      | false =>
        simp only [hmarked, Bool.false_eq_true, if_false] at h
        rcases Steps.run_bind_eq_error.mp h with hlift | ⟨n', hn', h⟩
        · exact ⟨e, he, .inr (.inl (Option.some.inj hlift))⟩
        have hfetch : w.fetch e = .ok n' := Option.some.inj hn'
        rcases Steps.run_bind_eq_error.mp h with hlift | ⟨t, -, h⟩
        · exact ⟨e, he, .inr (.inr ⟨n', s, hfetch, .inl (Option.some.inj hlift)⟩)⟩
        rcases Steps.run_bind_eq_error.mp h with hvisit | ⟨u, -, h⟩
        · exact ih (fun e' he' => .next he hfetch he') hvisit
        rcases Steps.run_bind_eq_error.mp h with hlift | ⟨v, -, h⟩
        · exact ⟨e, he, .inr (.inr ⟨n', u, hfetch, .inr (Option.some.inj hlift)⟩)⟩
        exact ihes v hrest h

end Ends

end MarkedWalk

end Kaskade
