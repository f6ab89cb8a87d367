import Kaskade.BoundedSteps
import Mathlib.Logic.Function.Basic
import Mathlib.Logic.Relation

/-!
# Loading on demand

A source is processed with what is known so far until it is done or fails, or until it wants another
source. That one is loaded first, what it supplies is then known, and the process starts again.
Sources are loaded once, and a source that wants one of those it is loaded for is refused. The
process need not end: a source may be asked for again after all that it supplies is known.
-/

namespace Kaskade

inductive Demand (K M ε : Type) where
  | done (m : M)
  | wants (k : K)
  | fails (x : ε)

/-- Sources `Q` with keys `K`, which supply knowledge `M`, and their documents `D`. -/
structure Loader (K Q M D ε : Type) where
  demand : Q → M → Demand K M ε
  source : K → Except ε Q
  empty : M
  update : M → M → M
  document : Q → List (K × D) → D
  /-- A source wants one of those it is loaded for. -/
  cyclic : Q → K → ε

namespace Loader

variable {K Q M D ε : Type} (l : Loader K Q M D ε)

abbrev Loaded (K M D : Type) := K → Option (D × M)

/-- The process of a source, with so many steps at most below each other. -/
def resolve [DecidableEq K] : ℕ → Q → M → List (K × D) → Loaded K M D → List K →
    Steps ε ((D × M) × Loaded K M D)
  | 0, _, _, _, _, _ => .cutOff
  | fuel + 1, q, m, references, loaded, visiting =>
    match l.demand q m with
    | .done m' => pure ((l.document q references, m'), loaded)
    | .fails x => throw x
    | .wants k =>
      if k ∈ visiting then throw (l.cyclic q k)
      else
        match loaded k with
        | some (d, s) =>
          resolve fuel q (l.update m s) (references ++ [(k, d)]) loaded visiting
        | none => do
          let q' ← l.source k
          let ((d, s), loaded) ← resolve fuel q' l.empty [] loaded (visiting ++ [k])
          resolve fuel q (l.update m s) (references ++ [(k, d)])
            (Function.update loaded k (some (d, s))) visiting

/-- What is known in the end, where every source that is wanted supplies what it has in its end. -/
inductive Supplies : Q → M → M → Prop where
  | done {q : Q} {m r : M} : l.demand q m = .done r → Supplies q m r
  | next {q q' : Q} {k : K} {m s r : M} : l.demand q m = .wants k → l.source k = .ok q' →
      Supplies q' l.empty s → Supplies q (l.update m s) r → Supplies q m r

/-- A source that is reached fails or is missing in a way that is not allowed, or is wanted again
after all that it supplies is known. -/
inductive GoesWrong (allowed : ε → Prop) : Q → M → Prop where
  | fails {q : Q} {m : M} {x : ε} : l.demand q m = .fails x → ¬ allowed x → GoesWrong allowed q m
  | missing {q : Q} {m : M} {k : K} {x : ε} : l.demand q m = .wants k → l.source k = .error x →
      ¬ allowed x → GoesWrong allowed q m
  | again {q q' : Q} {m s : M} {k : K} : l.demand q m = .wants k → l.source k = .ok q' →
      l.Supplies q' l.empty s → l.demand q (l.update m s) = .wants k → GoesWrong allowed q m
  | inside {q q' : Q} {m : M} {k : K} : l.demand q m = .wants k → l.source k = .ok q' →
      GoesWrong allowed q' l.empty → GoesWrong allowed q m
  | next {q q' : Q} {m s : M} {k : K} : l.demand q m = .wants k → l.source k = .ok q' →
      l.Supplies q' l.empty s → GoesWrong allowed q (l.update m s) → GoesWrong allowed q m

/-- What is known is a set of keys, to which a source adds; a source wants the first of its needs
that is not known. -/
structure Lawful (l : Loader K Q M D ε) where
  knows : M → K → Bool
  needs : Q → List K
  update_update : ∀ m s, l.update (l.update m s) s = l.update m s
  knows_update : ∀ m s k, knows m k = true → knows (l.update m s) k = true
  wants_first : ∀ {q m k}, l.demand q m = .wants k → (needs q).find? (fun k => !knows m k) = some k

variable {l} {allowed : ε → Prop} {q q' : Q} {m s r : M} {k : K}

theorem Supplies.of_wants (h : l.Supplies q m r) (hdemand : l.demand q m = .wants k) :
    ∃ q' s, l.source k = .ok q' ∧ l.Supplies q' l.empty s ∧ l.Supplies q (l.update m s) r := by
  cases h with
  | done hdone => cases hdone.symm.trans hdemand
  | next hwants hsource hinside hnext =>
    obtain rfl := Demand.wants.inj (hwants.symm.trans hdemand)
    exact ⟨_, _, hsource, hinside, hnext⟩

theorem Supplies.not_fails (h : l.Supplies q m r) {x : ε} : l.demand q m ≠ .fails x := by
  intro hfails
  cases h with
  | done hdone => cases hdone.symm.trans hfails
  | next hwants => cases hwants.symm.trans hfails

theorem Supplies.unique {r' : M} (h : l.Supplies q m r) (h' : l.Supplies q m r') : r = r' := by
  induction h generalizing r' with
  | done hdone =>
    cases h' with
    | done hdone' => exact Demand.done.inj (hdone.symm.trans hdone')
    | next hwants => cases hdone.symm.trans hwants
  | next hwants hsource _ _ ihinside ihnext =>
    obtain ⟨q', s, hsource', hinside', hnext'⟩ := h'.of_wants hwants
    obtain rfl := Except.ok.inj (hsource.symm.trans hsource')
    obtain rfl := ihinside hinside'
    exact ihnext hnext'

/-- What a source supplies that wants another one, of which it is known what it supplies. -/
theorem Supplies.next_of (h : l.Supplies q m r) (hwants : l.demand q m = .wants k)
    (hsource : l.source k = .ok q') (hinside : l.Supplies q' l.empty s) :
    l.Supplies q (l.update m s) r := by
  obtain ⟨q₁, s₁, hsource₁, hinside₁, hnext⟩ := h.of_wants hwants
  obtain rfl := Except.ok.inj (hsource.symm.trans hsource₁)
  obtain rfl := hinside.unique hinside₁
  exact hnext

/-- A source that wants what is known already supplies nothing. -/
theorem not_supplies_of_again (hwants : l.demand q m = .wants k) (hsource : l.source k = .ok q')
    (hinside : l.Supplies q' l.empty s) (hknown : l.update m s = m) : ¬ l.Supplies q m r := by
  intro h
  induction h with
  | done hdone => cases hdone.symm.trans hwants
  | next hwants' hsource' hinside' _ _ ih =>
    obtain rfl := Demand.wants.inj (hwants.symm.trans hwants')
    obtain rfl := Except.ok.inj (hsource.symm.trans hsource')
    obtain rfl := hinside.unique hinside'
    rw [hknown] at ih
    exact ih hwants hknown

theorem GoesWrong.not_supplies (lawful : l.Lawful) (h : l.GoesWrong allowed q m) :
    ¬ l.Supplies q m r := by
  intro hsupplies
  induction h generalizing r with
  | fails hfails => exact hsupplies.not_fails hfails
  | missing hwants hsource =>
    obtain ⟨_, _, hsource', -⟩ := hsupplies.of_wants hwants
    cases hsource.symm.trans hsource'
  | again hwants hsource hinside hagain =>
    exact not_supplies_of_again hagain hsource hinside (lawful.update_update _ _)
      (hsupplies.next_of hwants hsource hinside)
  | inside hwants hsource _ ih =>
    obtain ⟨_, _, hsource', hinside, -⟩ := hsupplies.of_wants hwants
    obtain rfl := Except.ok.inj (hsource.symm.trans hsource')
    exact ih hinside
  | next hwants hsource hinside _ ih => exact ih (hsupplies.next_of hwants hsource hinside)

theorem GoesWrong.of_wants (h : l.GoesWrong allowed q m) (hwants : l.demand q m = .wants k) :
    (∃ x, l.source k = .error x ∧ ¬ allowed x) ∨
      ∃ q', l.source k = .ok q' ∧
        (l.GoesWrong allowed q' l.empty ∨ ∃ s, l.Supplies q' l.empty s) := by
  cases h with
  | fails hfails => cases hwants.symm.trans hfails
  | missing hwants' hsource hx =>
    obtain rfl := Demand.wants.inj (hwants.symm.trans hwants')
    exact .inl ⟨_, hsource, hx⟩
  | again hwants' hsource hinside =>
    obtain rfl := Demand.wants.inj (hwants.symm.trans hwants')
    exact .inr ⟨_, hsource, .inr ⟨_, hinside⟩⟩
  | inside hwants' hsource hwrong =>
    obtain rfl := Demand.wants.inj (hwants.symm.trans hwants')
    exact .inr ⟨_, hsource, .inl hwrong⟩
  | next hwants' hsource hinside =>
    obtain rfl := Demand.wants.inj (hwants.symm.trans hwants')
    exact .inr ⟨_, hsource, .inr ⟨_, hinside⟩⟩

theorem GoesWrong.next_of (lawful : l.Lawful) (h : l.GoesWrong allowed q m)
    (hwants : l.demand q m = .wants k) (hsource : l.source k = .ok q')
    (hinside : l.Supplies q' l.empty s) : l.GoesWrong allowed q (l.update m s) := by
  cases h with
  | fails hfails => cases hwants.symm.trans hfails
  | missing hwants' hsource' =>
    obtain rfl := Demand.wants.inj (hwants.symm.trans hwants')
    cases hsource.symm.trans hsource'
  | again hwants' hsource' hinside' hagain =>
    obtain rfl := Demand.wants.inj (hwants.symm.trans hwants')
    obtain rfl := Except.ok.inj (hsource.symm.trans hsource')
    obtain rfl := hinside.unique hinside'
    exact .again hagain hsource hinside (by rw [lawful.update_update, hagain])
  | inside hwants' hsource' hwrong =>
    obtain rfl := Demand.wants.inj (hwants.symm.trans hwants')
    obtain rfl := Except.ok.inj (hsource.symm.trans hsource')
    exact absurd hinside (hwrong.not_supplies lawful)
  | next hwants' hsource' hinside' hwrong =>
    obtain rfl := Demand.wants.inj (hwants.symm.trans hwants')
    obtain rfl := Except.ok.inj (hsource.symm.trans hsource')
    obtain rfl := hinside.unique hinside'
    exact hwrong

variable (l) in
/-- What is known in the process of a source, from some point on. -/
inductive Knows (q : Q) : M → M → Prop where
  | here {m : M} : Knows q m m
  | next {q' : Q} {m s m' : M} {k : K} : l.demand q m = .wants k → l.source k = .ok q' →
      l.Supplies q' l.empty s → Knows q (l.update m s) m' → Knows q m m'

theorem Knows.snoc {m m' : M} (h : l.Knows q m m') (hwants : l.demand q m' = .wants k)
    (hsource : l.source k = .ok q') (hinside : l.Supplies q' l.empty s) :
    l.Knows q m (l.update m' s) := by
  induction h with
  | here => exact .next hwants hsource hinside .here
  | next hwants' hsource' hinside' _ ih => exact .next hwants' hsource' hinside' (ih hwants)

variable (l) in
/-- The first source is loaded in the process of the second one. -/
def Below (q' q : Q) : Prop :=
  ∃ m k, l.Knows q l.empty m ∧ l.demand q m = .wants k ∧ l.source k = .ok q'

variable (l) in
/-- Everything that a source wants from some point on is below nothing that leads back to it. -/
def Grounded (q : Q) (m : M) : Prop :=
  ∀ m' k q', l.Knows q m m' → l.demand q m' = .wants k → l.source k = .ok q' → Acc l.Below q'

theorem Grounded.acc (h : l.Grounded q l.empty) : Acc l.Below q := by
  refine ⟨_, fun q' hbelow => ?_⟩
  obtain ⟨m, k, hknows, hwants, hsource⟩ := hbelow
  exact h m k q' hknows hwants hsource

/-- A source is grounded where it wants one that is, and goes on grounded if that one supplies
something. -/
theorem grounded_of_wants (hwants : l.demand q m = .wants k)
    (hinside : ∀ q', l.source k = .ok q' → Acc l.Below q')
    (hnext : ∀ q' s, l.source k = .ok q' → l.Supplies q' l.empty s → l.Grounded q (l.update m s)) :
    l.Grounded q m := by
  intro m' k' q' hknows hwants' hsource'
  cases hknows with
  | here =>
    obtain rfl := Demand.wants.inj (hwants.symm.trans hwants')
    exact hinside q' hsource'
  | next hwants₁ hsource₁ hinside₁ hknows =>
    obtain rfl := Demand.wants.inj (hwants.symm.trans hwants₁)
    exact hnext _ _ hsource₁ hinside₁ _ _ _ hknows hwants' hsource'

theorem grounded_of_not_wants (h : ∀ k, l.demand q m ≠ .wants k) : l.Grounded q m := by
  intro m' k q' hknows hwants hsource
  cases hknows with
  | here => exact absurd hwants (h k)
  | next hwants' => exact absurd hwants' (h _)

theorem Supplies.grounded (h : l.Supplies q m r) : l.Grounded q m := by
  induction h with
  | done hdone =>
    apply grounded_of_not_wants
    simp [hdone]
  | next hwants hsource hinside _ ihinside ihnext =>
    refine grounded_of_wants hwants (fun q' hsource' => ?_) fun q' s hsource' hinside' => ?_
    · obtain rfl := Except.ok.inj (hsource.symm.trans hsource')
      exact ihinside.acc
    · obtain rfl := Except.ok.inj (hsource.symm.trans hsource')
      obtain rfl := hinside.unique hinside'
      exact ihnext

/-- A source that wants what is known already goes on with what it knows. -/
theorem Knows.eq_of_again {m' : M} (h : l.Knows q m m') (hwants : l.demand q m = .wants k)
    (hsource : l.source k = .ok q') (hinside : l.Supplies q' l.empty s)
    (hknown : l.update m s = m) : m' = m := by
  induction h with
  | here => rfl
  | next hwants' hsource' hinside' _ ih =>
    obtain rfl := Demand.wants.inj (hwants.symm.trans hwants')
    obtain rfl := Except.ok.inj (hsource.symm.trans hsource')
    obtain rfl := hinside.unique hinside'
    rw [hknown] at ih
    exact ih hwants hknown

theorem GoesWrong.grounded (lawful : l.Lawful) (h : l.GoesWrong allowed q m) : l.Grounded q m := by
  induction h with
  | fails hfails =>
    apply grounded_of_not_wants
    simp [hfails]
  | missing hwants hsource =>
    refine grounded_of_wants hwants (fun q' hsource' => ?_) fun q' s hsource' => ?_
    · cases hsource.symm.trans hsource'
    · cases hsource.symm.trans hsource'
  | again hwants hsource hinside hagain =>
    refine grounded_of_wants hwants (fun q' hsource' => ?_) fun q' s hsource' hinside' => ?_
    · obtain rfl := Except.ok.inj (hsource.symm.trans hsource')
      exact hinside.grounded.acc
    · obtain rfl := Except.ok.inj (hsource.symm.trans hsource')
      obtain rfl := hinside.unique hinside'
      intro m' k' q₁ hknows hwants' hsource₁
      rw [hknows.eq_of_again hagain hsource hinside (lawful.update_update _ _)] at hwants'
      obtain rfl := Demand.wants.inj (hagain.symm.trans hwants')
      obtain rfl := Except.ok.inj (hsource.symm.trans hsource₁)
      exact hinside.grounded.acc
  | inside hwants hsource hwrong ih =>
    refine grounded_of_wants hwants (fun q' hsource' => ?_) fun q' s hsource' hinside' => ?_
    · obtain rfl := Except.ok.inj (hsource.symm.trans hsource')
      exact ih.acc
    · obtain rfl := Except.ok.inj (hsource.symm.trans hsource')
      exact absurd hinside' (hwrong.not_supplies lawful)
  | next hwants hsource hinside _ ih =>
    refine grounded_of_wants hwants (fun q' hsource' => ?_) fun q' s hsource' hinside' => ?_
    · obtain rfl := Except.ok.inj (hsource.symm.trans hsource')
      exact hinside.grounded.acc
    · obtain rfl := Except.ok.inj (hsource.symm.trans hsource')
      obtain rfl := hinside.unique hinside'
      exact ih

theorem not_self_of_acc {α : Type} {r : α → α → Prop} {a : α} (h : Acc r a) : ¬ r a a := by
  induction h with
  | intro a _ ih => exact fun haa => ih a haa haa

theorem Grounded.not_cyclic (h : l.Grounded q m) (hknows : l.Knows q l.empty m)
    (hwants : l.demand q m = .wants k) (hsource : l.source k = .ok q') :
    ¬ Relation.ReflTransGen l.Below q q' := by
  intro hchain
  have hbelow : l.Below q' q := ⟨m, k, hknows, hwants, hsource⟩
  have hloop : Relation.TransGen l.Below q' q' := .head' hbelow hchain
  exact not_self_of_acc (h m k q' .here hwants hsource).transGen hloop

section Runs

variable {references : List (K × D)} {loaded loaded' : Loaded K M D} {visiting : List K} {fuel : ℕ}
  {d : D} {x : ε}

def Sound (l : Loader K Q M D ε) (loaded : Loaded K M D) : Prop :=
  ∀ k d s, loaded k = some (d, s) → ∃ q, l.source k = .ok q ∧ l.Supplies q l.empty s

theorem sound_empty : l.Sound fun _ => none := by
  intro k d s h
  cases h

/-- The sources that the process of a source is inside of are loaded for each other. -/
structure Inside (l : Loader K Q M D ε) (q : Q) (m : M) (visiting : List K) : Prop where
  knows : l.Knows q l.empty m
  chain : ∀ v ∈ visiting, ∃ q', l.source v = .ok q' ∧ Relation.ReflTransGen l.Below q q'

theorem Inside.next (h : l.Inside q m visiting) (hwants : l.demand q m = .wants k)
    (hsource : l.source k = .ok q') (hinside : l.Supplies q' l.empty s) :
    l.Inside q (l.update m s) visiting :=
  ⟨h.knows.snoc hwants hsource hinside, h.chain⟩

theorem Inside.below (h : l.Inside q m visiting) (hwants : l.demand q m = .wants k)
    (hsource : l.source k = .ok q') : l.Inside q' l.empty (visiting ++ [k]) where
  knows := .here
  chain := by
    intro v hv
    rcases List.mem_append.mp hv with hv | hv
    · obtain ⟨q₁, hq₁, hchain⟩ := h.chain v hv
      exact ⟨q₁, hq₁, .head ⟨m, k, h.knows, hwants, hsource⟩ hchain⟩
    · obtain rfl := List.mem_singleton.mp hv
      exact ⟨q', hsource, .refl⟩

theorem Inside.not_mem (h : l.Inside q m visiting) (hgrounded : l.Grounded q m)
    (hwants : l.demand q m = .wants k) : k ∉ visiting := by
  intro hk
  obtain ⟨q', hsource, hchain⟩ := h.chain k hk
  exact hgrounded.not_cyclic h.knows hwants hsource hchain

/-- A source that wants another one, and then not the same one again, has come to know it. -/
theorem knows_of_wants {k' : K} (lawful : l.Lawful) (hwants : l.demand q m = .wants k)
    (hwants' : l.demand q (l.update m s) = .wants k') (hne : k' ≠ k) :
    lawful.knows (l.update m s) k = true := by
  by_contra hnot
  obtain ⟨_, pre, post, hneeds, hpre⟩ :=
    List.find?_eq_some_iff_append.mp (lawful.wants_first hwants)
  have hfirst : (lawful.needs q).find? (fun k => !lawful.knows (l.update m s) k) = some k := by
    refine List.find?_eq_some_iff_append.mpr ⟨by simpa using hnot, pre, post, hneeds, ?_⟩
    intro a ha
    have hknown : lawful.knows m a = true := by simpa using hpre a ha
    simp [lawful.knows_update m s a hknown]
  exact hne (Option.some.inj ((lawful.wants_first hwants').symm.trans hfirst))

variable [DecidableEq K]

theorem Sound.update (h : l.Sound loaded) (hsource : l.source k = .ok q)
    (hsupplies : l.Supplies q l.empty s) : l.Sound (Function.update loaded k (some (d, s))) := by
  intro k' d' s' hloaded
  by_cases hk : k' = k
  · subst hk
    rw [Function.update_self] at hloaded
    cases hloaded
    exact ⟨q, hsource, hsupplies⟩
  · rw [Function.update_of_ne hk] at hloaded
    exact h k' d' s' hloaded

theorem resolve_ok (hloaded : l.Sound loaded)
    (h : (l.resolve fuel q m references loaded visiting).run = some (.ok ((d, r), loaded'))) :
    l.Supplies q m r ∧ l.Sound loaded' := by
  induction fuel generalizing q m references loaded visiting d r loaded' with
  | zero => cases h
  | succ fuel ih =>
    rw [resolve] at h
    cases hdemand : l.demand q m with
    | done m' =>
      simp only [hdemand] at h
      cases h
      exact ⟨.done hdemand, hloaded⟩
    | fails x =>
      simp only [hdemand] at h
      cases h
    | wants k =>
      simp only [hdemand] at h
      split at h
      · cases h
      · split at h
        next d' s hk =>
          obtain ⟨q', hsource, hinside⟩ := hloaded k d' s hk
          obtain ⟨hnext, hloaded'⟩ := ih hloaded h
          exact ⟨.next hdemand hsource hinside hnext, hloaded'⟩
        next hk =>
          obtain ⟨q', hsource, h⟩ := Steps.run_bind_eq_ok.mp h
          have hsource' : l.source k = .ok q' := Option.some.inj hsource
          obtain ⟨⟨⟨d', s⟩, between⟩, hrun, h⟩ := Steps.run_bind_eq_ok.mp h
          obtain ⟨hinside, hbetween⟩ := ih hloaded hrun
          obtain ⟨hnext, hloaded'⟩ := ih (hbetween.update hsource' hinside) h
          exact ⟨.next hdemand hsource' hinside hnext, hloaded'⟩

/-- A process that raises something supplies nothing, and goes wrong if that is not allowed. -/
theorem resolve_error (lawful : l.Lawful) (hcyclic : ∀ q k, allowed (l.cyclic q k))
    (hloaded : l.Sound loaded) (hinside : l.Inside q m visiting)
    (h : (l.resolve fuel q m references loaded visiting).run = some (.error x)) :
    (∀ r, ¬ l.Supplies q m r) ∧ (l.GoesWrong allowed q m ↔ ¬ allowed x) := by
  induction fuel generalizing q m references loaded visiting with
  | zero => cases h
  | succ fuel ih =>
    rw [resolve] at h
    cases hdemand : l.demand q m with
    | done m' =>
      simp only [hdemand] at h
      cases h
    | fails x' =>
      simp only [hdemand] at h
      cases h
      refine ⟨fun r hsupplies => hsupplies.not_fails hdemand, fun hwrong => ?_, .fails hdemand⟩
      cases hwrong with
      | fails hfails hx =>
        obtain rfl := Demand.fails.inj (hdemand.symm.trans hfails)
        exact hx
      | missing hwants => cases hdemand.symm.trans hwants
      | again hwants => cases hdemand.symm.trans hwants
      | inside hwants => cases hdemand.symm.trans hwants
      | next hwants => cases hdemand.symm.trans hwants
    | wants k =>
      -- what is left to do once it is known what the wanted source supplies
      have hrest : ∀ {q' s references loaded}, l.source k = .ok q' → l.Supplies q' l.empty s →
          l.Sound loaded →
          (l.resolve fuel q (l.update m s) references loaded visiting).run = some (.error x) →
          (∀ r, ¬ l.Supplies q m r) ∧ (l.GoesWrong allowed q m ↔ ¬ allowed x) := by
        intro q' s references loaded hsource hsupplied hloaded hrun
        obtain ⟨hnone, hwrong⟩ := ih hloaded (hinside.next hdemand hsource hsupplied) hrun
        refine ⟨fun r hsupplies => hnone r (hsupplies.next_of hdemand hsource hsupplied), ?_⟩
        rw [← hwrong]
        exact ⟨fun h => h.next_of lawful hdemand hsource hsupplied, .next hdemand hsource hsupplied⟩
      simp only [hdemand] at h
      split at h
      next hk =>
        cases h
        refine ⟨fun r hsupplies => hinside.not_mem hsupplies.grounded hdemand hk, fun hwrong => ?_,
          fun hx => absurd (hcyclic q k) hx⟩
        exact absurd hk (hinside.not_mem (hwrong.grounded lawful) hdemand)
      next =>
        split at h
        next d' s hk =>
          obtain ⟨q', hsource, hsupplied⟩ := hloaded k d' s hk
          exact hrest hsource hsupplied hloaded h
        next =>
          rcases Steps.run_bind_eq_error.mp h with hsource | ⟨q', hsource, h⟩
          · have hsource' : l.source k = .error x := Option.some.inj hsource
            refine ⟨fun r hsupplies => ?_, fun hwrong => ?_, .missing hdemand hsource'⟩
            · obtain ⟨_, _, hok, -⟩ := hsupplies.of_wants hdemand
              cases hsource'.symm.trans hok
            · rcases hwrong.of_wants hdemand with ⟨x', hx', hnot⟩ | ⟨_, hok, -⟩
              · obtain rfl := Except.error.inj (hsource'.symm.trans hx')
                exact hnot
              · cases hsource'.symm.trans hok
          have hsource' : l.source k = .ok q' := Option.some.inj hsource
          rcases Steps.run_bind_eq_error.mp h with hrun | ⟨⟨⟨d', s⟩, between⟩, hrun, h⟩
          · obtain ⟨hnone, hwrong⟩ := ih hloaded (hinside.below hdemand hsource') hrun
            refine ⟨fun r hsupplies => ?_, ?_⟩
            · obtain ⟨_, s, hok, hsupplied, -⟩ := hsupplies.of_wants hdemand
              obtain rfl := Except.ok.inj (hsource'.symm.trans hok)
              exact hnone s hsupplied
            · rw [← hwrong]
              refine ⟨fun hwrong' => ?_, .inside hdemand hsource'⟩
              rcases hwrong'.of_wants hdemand with ⟨_, hx', -⟩ | ⟨_, hok, hinside' | ⟨s, hs⟩⟩
              · cases hsource'.symm.trans hx'
              · obtain rfl := Except.ok.inj (hsource'.symm.trans hok)
                exact hinside'
              · obtain rfl := Except.ok.inj (hsource'.symm.trans hok)
                exact absurd hs (hnone s)
          · obtain ⟨hsupplied, hbetween⟩ := resolve_ok hloaded hrun
            exact hrest hsource' hsupplied (hbetween.update hsource' hsupplied) h

theorem resolve_loaded {s : M} (hwants : l.demand q m = .wants k) (hk : k ∉ visiting)
    (hloaded : loaded k = some (d, s)) :
    l.resolve (fuel + 1) q m references loaded visiting =
      l.resolve fuel q (l.update m s) (references ++ [(k, d)]) loaded visiting := by
  rw [resolve]
  simp only [hwants, if_neg hk, hloaded]

theorem resolve_source (hwants : l.demand q m = .wants k) (hk : k ∉ visiting)
    (hloaded : loaded k = none) :
    l.resolve (fuel + 1) q m references loaded visiting = (do
      let q' ← l.source k
      let ((d, s), loaded) ← l.resolve fuel q' l.empty [] loaded (visiting ++ [k])
      l.resolve fuel q (l.update m s) (references ++ [(k, d)])
        (Function.update loaded k (some (d, s))) visiting) := by
  rw [resolve]
  simp only [hwants, if_neg hk, hloaded]

theorem resolve_within (fuel : ℕ) (q : Q) (m : M) (references : List (K × D))
    (loaded : Loaded K M D) (visiting : List K) :
    (l.resolve fuel q m references loaded visiting).Within
      (l.resolve (fuel + 1) q m references loaded visiting) := by
  induction fuel generalizing q m references loaded visiting with
  | zero => exact .cutOff _
  | succ fuel ih =>
    cases hdemand : l.demand q m with
    | done m' =>
      rw [resolve, resolve]
      simp only [hdemand]
      exact .refl _
    | fails x =>
      rw [resolve, resolve]
      simp only [hdemand]
      exact .refl _
    | wants k =>
      by_cases hk : k ∈ visiting
      · rw [resolve, resolve]
        simp only [hdemand, if_pos hk]
        exact .refl _
      · cases hloaded : loaded k with
        | some p =>
          rw [resolve_loaded hdemand hk hloaded, resolve_loaded hdemand hk hloaded]
          exact ih _ _ _ _ _
        | none =>
          rw [resolve_source hdemand hk hloaded, resolve_source hdemand hk hloaded]
          exact .bind (.refl _) fun q' => .bind (ih _ _ _ _ _) fun p => ih _ _ _ _ _

theorem resolve_within_of_le {fuel fuel' : ℕ} (h : fuel ≤ fuel') (q : Q) (m : M)
    (references : List (K × D)) (loaded : Loaded K M D) (visiting : List K) :
    (l.resolve fuel q m references loaded visiting).Within
      (l.resolve fuel' q m references loaded visiting) := by
  induction h with
  | refl => exact .refl _
  | step _ ih => exact ih.trans (resolve_within _ _ _ _ _ _)

def unknown (lawful : l.Lawful) (q : Q) (m : M) : ℕ :=
  ((lawful.needs q).toFinset.filter fun k => lawful.knows m k = false).card

theorem unknown_lt (lawful : l.Lawful) (hwants : l.demand q m = .wants k)
    (hknown : lawful.knows (l.update m s) k = true) :
    unknown lawful q (l.update m s) < unknown lawful q m := by
  have hfind := lawful.wants_first hwants
  have hsubset : ((lawful.needs q).toFinset.filter fun k => lawful.knows (l.update m s) k = false) ⊆
      (lawful.needs q).toFinset.filter fun k => lawful.knows m k = false := by
    intro k' hk'
    rw [Finset.mem_filter] at hk' ⊢
    refine ⟨hk'.1, ?_⟩
    by_contra hnot
    have hstill := lawful.knows_update m s k' (by simpa using hnot)
    exact absurd hk'.2 (by simp [hstill])
  apply Finset.card_lt_card
  refine (Finset.ssubset_iff_of_subset hsubset).mpr ⟨k, ?_, ?_⟩
  · refine Finset.mem_filter.mpr ⟨List.mem_toFinset.mpr (List.mem_of_find?_eq_some hfind), ?_⟩
    simpa using List.find?_some hfind
  · simp [hknown]

/-- With finitely many sources, a process that does not go wrong comes to an end. -/
theorem exists_run (lawful : l.Lawful) {keys : Finset K}
    (hkeys : ∀ k q, l.source k = .ok q → k ∈ keys) (references : List (K × D))
    (visiting : List K) (hloaded : l.Sound loaded) (hwrong : ¬ l.GoesWrong allowed q m) :
    ∃ fuel result, (l.resolve fuel q m references loaded visiting).run = some result := by
  induction hout : outside keys visiting using Nat.strong_induction_on
    generalizing q m references loaded visiting with
  | _ out ihout =>
    induction hunknown : unknown lawful q m using Nat.strong_induction_on
      generalizing m references loaded with
    | _ j ihunknown =>
      cases hdemand : l.demand q m with
      | done m' => exact ⟨1, .ok ((l.document q references, m'), loaded), by simp [resolve, hdemand]⟩
      | fails x => exact ⟨1, .error x, by simp [resolve, hdemand]⟩
      | wants k =>
        by_cases hk : k ∈ visiting
        · exact ⟨1, .error (l.cyclic q k), by simp [resolve, hdemand, hk]⟩
        -- the process after the wanted source: it wants another one, or none
        have hrest : ∀ references {q' s loaded}, l.source k = .ok q' → l.Supplies q' l.empty s →
            l.Sound loaded → ∃ fuel result,
              (l.resolve fuel q (l.update m s) references loaded visiting).run = some result := by
          intro references q' s loaded hsource hsupplied hloaded
          have hnext : ¬ l.GoesWrong allowed q (l.update m s) := fun h =>
            hwrong (.next hdemand hsource hsupplied h)
          cases hagain : l.demand q (l.update m s) with
          | done m' =>
            exact ⟨1, .ok ((l.document q references, m'), loaded), by simp [resolve, hagain]⟩
          | fails x => exact ⟨1, .error x, by simp [resolve, hagain]⟩
          | wants k' =>
            have hne : k' ≠ k := by
              rintro rfl
              exact hwrong (.again hdemand hsource hsupplied hagain)
            have hless := unknown_lt lawful hdemand (knows_of_wants lawful hdemand hagain hne)
            exact ihunknown _ (hunknown ▸ hless) references hloaded hnext rfl
        cases hk' : loaded k with
        | some p =>
          obtain ⟨q', hsource, hsupplied⟩ := hloaded k p.1 p.2 hk'
          obtain ⟨fuel, result, hrun⟩ := hrest _ hsource hsupplied hloaded
          exact ⟨fuel + 1, result, by rwa [resolve_loaded hdemand hk hk']⟩
        | none =>
          cases hsource : l.source k with
          | error x =>
            refine ⟨1, .error x, ?_⟩
            rw [resolve_source hdemand hk hk', hsource]
            rfl
          | ok q' =>
            have hless := outside_lt (hkeys k q' hsource) hk
            obtain ⟨fuel, result, hrun⟩ := ihout _ (hout ▸ hless) [] (visiting ++ [k]) hloaded
              (fun h => hwrong (.inside hdemand hsource h)) rfl
            cases result with
            | error x =>
              refine ⟨fuel + 1, .error x, ?_⟩
              rw [resolve_source hdemand hk hk', hsource]
              exact Steps.run_bind_eq_error.mpr (.inr ⟨q', rfl, Steps.run_bind_eq_error.mpr
                (.inl hrun)⟩)
            | ok p =>
              obtain ⟨⟨d, s⟩, between⟩ := p
              obtain ⟨hsupplied, hbetween⟩ := resolve_ok hloaded hrun
              obtain ⟨fuel', result, hrest⟩ := hrest (references ++ [(k, d)]) hsource
                hsupplied (hbetween.update (d := d) hsource hsupplied)
              refine ⟨max fuel fuel' + 1, result, ?_⟩
              rw [resolve_source hdemand hk hk', hsource]
              have hrun' := resolve_within_of_le (Nat.le_max_left fuel fuel') _ _ _ _ _ _ hrun
              have hrest' := resolve_within_of_le (Nat.le_max_right fuel fuel') _ _ _ _ _ _ hrest
              simp only [Steps.run_bind, Steps.run_lift, hrun', hrest']

/-- A process of finitely many sources comes to an end, with what it supplies or an exception that
is allowed, if and only if it does not go wrong. -/
theorem ends_iff (allowed : ε → Prop) (lawful : l.Lawful) {keys : Finset K}
    (hkeys : ∀ k q, l.source k = .ok q → k ∈ keys) (hcyclic : ∀ q k, allowed (l.cyclic q k)) :
    (∃ fuel result, (l.resolve fuel q l.empty [] (fun _ => none) []).run = some result ∧
      ∀ x, result = .error x → allowed x) ↔ ¬ l.GoesWrong allowed q l.empty := by
  have hinside : l.Inside q l.empty [] := ⟨.here, by simp⟩
  constructor
  · rintro ⟨fuel, result, hrun, hallowed⟩ hwrong
    cases result with
    | ok p =>
      obtain ⟨⟨d, s⟩, loaded⟩ := p
      exact hwrong.not_supplies lawful (resolve_ok sound_empty hrun).1
    | error x =>
      exact ((resolve_error lawful hcyclic sound_empty hinside hrun).2.mp hwrong) (hallowed x rfl)
  · intro hwrong
    obtain ⟨fuel, result, hrun⟩ := exists_run lawful hkeys [] [] sound_empty hwrong
    refine ⟨fuel, result, hrun, ?_⟩
    rintro x rfl
    by_contra hx
    exact hwrong ((resolve_error lawful hcyclic sound_empty hinside hrun).2.mpr hx)

end Runs

end Loader

end Kaskade
