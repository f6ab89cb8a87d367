import Mathlib.Data.Finset.Card

/-!
# Computations of bounded depth

A recursion that need not end is followed to a bounded depth. The result is a value or an
exception, or nothing where the bound was too small; a larger bound changes no result.
-/

namespace Kaskade

section Results

variable {ε α β : Type} {x : Except ε α} {f : α → Except ε β}

theorem bind_eq_ok {b : β} : x >>= f = .ok b ↔ ∃ a, x = .ok a ∧ f a = .ok b := by
  cases x with
  | error e => simp [bind, Except.bind]
  | ok a => simp [bind, Except.bind]

theorem bind_eq_error {e : ε} :
    x >>= f = .error e ↔ x = .error e ∨ ∃ a, x = .ok a ∧ f a = .error e := by
  cases x with
  | error e => simp [bind, Except.bind]
  | ok a => simp [bind, Except.bind]

end Results

/-- A computation that returns or raises, or that the bound cut off. -/
abbrev Steps (ε α : Type) := ExceptT ε Option α

namespace Steps

variable {ε α β : Type}

def cutOff : Steps ε α := ExceptT.mk none

@[simp] theorem run_lift (r : Except ε α) : (liftM r : Steps ε α).run = some r := rfl

/-- What a search finds, which the bound may cut off. -/
@[simp] theorem run_option (o : Option α) : (liftM o : Steps ε α).run = o.map .ok := by
  cases o <;> rfl

@[simp] theorem run_pure (a : α) : (pure a : Steps ε α).run = some (.ok a) := rfl

theorem run_bind (x : Steps ε α) (f : α → Steps ε β) :
    (x >>= f).run = match x.run with
      | none => none
      | some (.error e) => some (.error e)
      | some (.ok a) => (f a).run := by
  rw [ExceptT.run_bind]
  cases x.run with
  | none => rfl
  | some r => cases r <;> rfl

theorem run_bind_eq_ok {x : Steps ε α} {f : α → Steps ε β} {b : β} :
    (x >>= f).run = some (.ok b) ↔ ∃ a, x.run = some (.ok a) ∧ (f a).run = some (.ok b) := by
  rw [run_bind]
  cases x.run with
  | none => simp
  | some r => cases r <;> simp

theorem run_bind_eq_error {x : Steps ε α} {f : α → Steps ε β} {e : ε} :
    (x >>= f).run = some (.error e) ↔
      x.run = some (.error e) ∨ ∃ a, x.run = some (.ok a) ∧ (f a).run = some (.error e) := by
  rw [run_bind]
  cases x.run with
  | none => simp
  | some r => cases r <;> simp

theorem run_bind_eq_none {x : Steps ε α} {f : α → Steps ε β} :
    (x >>= f).run = none ↔ x.run = none ∨ ∃ a, x.run = some (.ok a) ∧ (f a).run = none := by
  rw [run_bind]
  cases x.run with
  | none => simp
  | some r => cases r <;> simp

theorem run_bind_pure_eq_ok {x : Steps ε α} {g : α → β} (hg : Function.Injective g) {a : α} :
    (x >>= fun a => pure (g a)).run = some (.ok (g a)) ↔ x.run = some (.ok a) := by
  rw [run_bind_eq_ok]
  constructor
  · rintro ⟨a', hx, h⟩
    rw [← hg (Except.ok.inj (Option.some.inj h)), hx]
  · exact fun hx => ⟨a, hx, rfl⟩

section Loops

variable {σ κ : Type} {f : σ → κ → Steps ε σ} {I : σ → Prop} {ks : List κ} {s s' : σ}

theorem run_foldlM_ok {R : List κ → σ → σ → Prop} (hnil : ∀ s, I s → R [] s s)
    (hcons : ∀ k ks s s₁ s', R [k] s s₁ → R ks s₁ s' → R (k :: ks) s s')
    (hkeep : ∀ k ∈ ks, ∀ s s', I s → (f s k).run = some (.ok s') → I s' ∧ R [k] s s')
    (hs : I s) (h : (ks.foldlM f s).run = some (.ok s')) : R ks s s' := by
  induction ks generalizing s with
  | nil =>
    rw [List.foldlM_nil, run_pure] at h
    obtain rfl := Except.ok.inj (Option.some.inj h)
    exact hnil _ hs
  | cons k ks ih =>
    rw [List.foldlM_cons] at h
    obtain ⟨s₁, hpass, hrest⟩ := run_bind_eq_ok.mp h
    obtain ⟨hs₁, hfirst⟩ := hkeep k List.mem_cons_self s s₁ hs hpass
    exact hcons k ks s s₁ s' hfirst
      (ih (fun k hk => hkeep k (List.mem_cons_of_mem _ hk)) hs₁ hrest)

theorem run_foldlM_stops {r : Option (Except ε σ)} (hr : ∀ s', r ≠ some (.ok s'))
    (hkeep : ∀ k ∈ ks, ∀ s s', I s → (f s k).run = some (.ok s') → I s')
    (hs : I s) (h : (ks.foldlM f s).run = r) : ∃ k ∈ ks, ∃ s, I s ∧ (f s k).run = r := by
  induction ks generalizing s with
  | nil => exact absurd h.symm (hr s)
  | cons k ks ih =>
    rw [List.foldlM_cons, run_bind] at h
    split at h
    next hnone => exact ⟨k, List.mem_cons_self, s, hs, hnone.trans h⟩
    next e herror => exact ⟨k, List.mem_cons_self, s, hs, herror.trans h⟩
    next s₁ hpass =>
      obtain ⟨k', hk', hstops⟩ := ih (fun k hk => hkeep k (List.mem_cons_of_mem _ hk))
        (hkeep k List.mem_cons_self s s₁ hs hpass) h
      exact ⟨k', List.mem_cons_of_mem _ hk', hstops⟩

end Loops

/-- Whatever the first computation gives, the second one gives too. -/
def Within (x y : Steps ε α) : Prop := ∀ r, x.run = some r → y.run = some r

theorem Within.refl (x : Steps ε α) : x.Within x := fun _ => id

theorem Within.trans {x y z : Steps ε α} (h : x.Within y) (h' : y.Within z) : x.Within z :=
  fun r hr => h' r (h r hr)

theorem Within.cutOff (y : Steps ε α) : (Steps.cutOff : Steps ε α).Within y := nofun

theorem Within.bind {x y : Steps ε α} {f g : α → Steps ε β} (h : x.Within y)
    (hfg : ∀ a, (f a).Within (g a)) : (x >>= f).Within (y >>= g) := by
  intro r hr
  cases r with
  | error e =>
    rcases run_bind_eq_error.mp hr with hx | ⟨a, hx, hf⟩
    · exact run_bind_eq_error.mpr (.inl (h _ hx))
    · exact run_bind_eq_error.mpr (.inr ⟨a, h _ hx, hfg a _ hf⟩)
  | ok b =>
    obtain ⟨a, hx, hf⟩ := run_bind_eq_ok.mp hr
    exact run_bind_eq_ok.mpr ⟨a, h _ hx, hfg a _ hf⟩

theorem Within.option {o o' : Option α} (h : ∀ a, o = some a → o' = some a) :
    (liftM o : Steps ε α).Within (liftM o') := by
  intro r hr
  rw [run_option, Option.map_eq_some_iff] at hr ⊢
  obtain ⟨a, ha, rfl⟩ := hr
  exact ⟨a, h a ha, rfl⟩

section Traversals

variable {f g : α → Steps ε β} {items : List α} {results : List β}

theorem Within.mapM (h : ∀ a, (f a).Within (g a)) : (items.mapM f).Within (items.mapM g) := by
  induction items with
  | nil => exact .refl _
  | cons a items ih =>
    rw [List.mapM_cons, List.mapM_cons]
    exact (h a).bind fun b => ih.bind fun bs => .refl _

/-- A traversal returns what the items give, one after another. -/
theorem run_mapM_eq_ok : (items.mapM f).run = some (.ok results) ↔
    List.Forall₂ (fun a b => (f a).run = some (.ok b)) items results := by
  induction items generalizing results with
  | nil =>
    rw [List.mapM_nil, run_pure, List.forall₂_nil_left_iff, Option.some.injEq, Except.ok.injEq, eq_comm]
  | cons a items ih =>
    rw [List.mapM_cons, run_bind_eq_ok, List.forall₂_cons_left_iff]
    constructor
    · rintro ⟨b, hb, h⟩
      obtain ⟨bs, hbs, h⟩ := run_bind_eq_ok.mp h
      rw [run_pure, Option.some.injEq, Except.ok.injEq] at h
      exact ⟨b, bs, hb, ih.mp hbs, h.symm⟩
    · rintro ⟨b, bs, hb, hbs, rfl⟩
      exact ⟨b, hb, run_bind_eq_ok.mpr ⟨bs, ih.mpr hbs, run_pure _⟩⟩

/-- A traversal of changed items gives back the items if each of them comes back. -/
theorem run_mapM_map_self {f : β → Steps ε α} {g : α → β} :
    ((items.map g).mapM f).run = some (.ok items) ↔ ∀ a ∈ items, (f (g a)).run = some (.ok a) := by
  rw [run_mapM_eq_ok, List.forall₂_map_left_iff, List.forall₂_same]

theorem run_mapM_returns_iff : (∃ results, (items.mapM f).run = some (.ok results)) ↔
    ∀ a ∈ items, ∃ b, (f a).run = some (.ok b) := by
  simp only [run_mapM_eq_ok]
  induction items with
  | nil => simp
  | cons a items ih =>
    rw [List.forall_mem_cons, ← ih]
    simp only [List.forall₂_cons_left_iff]
    constructor
    · rintro ⟨_, b, bs, hb, hbs, rfl⟩
      exact ⟨⟨b, hb⟩, bs, hbs⟩
    · rintro ⟨⟨b, hb⟩, bs, hbs⟩
      exact ⟨b :: bs, b, bs, hb, hbs, rfl⟩

/-- A traversal that ends has ended for each item that it came to. -/
theorem run_mapM_reached {before after : List α} {a : α}
    (hbefore : ∀ b ∈ before, ∀ r, (f b).run = some r → ∃ result, r = .ok result)
    (h : ((before ++ a :: after).mapM f).run.isSome) : (f a).run.isSome := by
  induction before with
  | nil =>
    rw [List.nil_append, List.mapM_cons, run_bind] at h
    cases hrun : (f a).run with
    | none => simp [hrun] at h
    | some r => rfl
  | cons b before ih =>
    rw [List.cons_append, List.mapM_cons, run_bind] at h
    cases hrun : (f b).run with
    | none => simp [hrun] at h
    | some r =>
      obtain ⟨result, rfl⟩ := hbefore b List.mem_cons_self r hrun
      simp only [hrun] at h
      refine ih (fun b' hb' => hbefore b' (List.mem_cons_of_mem _ hb')) ?_
      rw [run_bind] at h
      cases hrest : ((before ++ a :: after).mapM f).run with
      | none =>
        rw [hrest] at h
        cases h
      | some r => rfl

end Traversals

def ending (x : Steps ε α) : Option (Except ε Unit) := x.run.map fun r => r.map fun _ => ()

section Endings

variable {x : Steps ε α} {f : α → Steps ε β}

theorem isSome_ending : x.ending.isSome = x.run.isSome := Option.isSome_map

theorem ending_eq_ok : x.ending = some (.ok ()) ↔ ∃ a, x.run = some (.ok a) := by
  rw [ending]
  cases x.run with
  | none => simp
  | some r => cases r <;> simp [Except.map]

theorem ending_bind_pure (x : Steps ε α) (g : α → β) : ending (x >>= fun a => pure (g a)) = x.ending := by
  rw [ending, ending, run_bind]
  cases x.run with
  | none => rfl
  | some r => cases r <;> rfl

theorem ending_bind_congr {γ : Type} {g : α → Steps ε γ} (h : ∀ a, (f a).ending = (g a).ending) :
    ending (x >>= f) = ending (x >>= g) := by
  rw [ending, ending, run_bind, run_bind]
  cases x.run with
  | none => rfl
  | some r =>
    cases r with
    | error e => rfl
    | ok a => exact h a

end Endings

end Steps

section Outside

variable {K : Type} [DecidableEq K]

/-- How many keys a chain does not contain: a bound of how much longer it can get. -/
def outside (keys : Finset K) (chain : List K) : ℕ := (keys.filter fun k => k ∉ chain).card

theorem outside_lt {keys : Finset K} {chain : List K} {k : K} (hmem : k ∈ keys) (hk : k ∉ chain) :
    outside keys (chain ++ [k]) < outside keys chain := by
  apply Finset.card_lt_card
  refine (Finset.ssubset_iff_of_subset ?_).mpr ⟨k, ?_, ?_⟩
  · intro k' hk'
    rw [Finset.mem_filter] at hk' ⊢
    exact ⟨hk'.1, fun h => hk'.2 (List.mem_append_left _ h)⟩
  · exact Finset.mem_filter.mpr ⟨hmem, hk⟩
  · simp

end Outside

end Kaskade
