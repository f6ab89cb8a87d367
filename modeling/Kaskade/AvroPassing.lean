import Kaskade.AvroConversion

/-!
# Values that pass

A value passes a schema if its conversion returns, whatever it returns: no schema that it is led to goes
round in a circle, and no literal of octets raises an exception that the conversion lets through.
-/

namespace Kaskade.Avro

open Python Repeated

variable {F O : Type}

/-- The parts of a value that are converted under a schema that applies, with their schemas. -/
def parts (schema : Schema) (value : Value F O) : List (Schema × Value F O) :=
  match schema, value with
  | .record _ _ fields, .dict items =>
    items.filterMap fun kv => (fieldType fields kv.1).map fun type => (type, kv.2)
  | .array _ items, .list values => values.map fun w => (items, w)
  | .map _ values, .dict items => items.map fun kv => (values, kv.2)
  | _, _ => []

theorem parts_of_scalar {schema : Schema} {value : Value F O} (h : schema.looksInto value = false) :
    parts schema value = [] := by
  cases schema <;> cases value <;> first | rfl | cases h

section Parts

variable {py : Interpreter F O} {readers : TextReaders O}
  {convert : Schema → Value F O → Steps PyException (Value F O)} {resolve : Schema → Option Schema}
  {schema : Schema} {value : Value F O}

/-- The conversion of a container ends as that of its parts does, one after another. -/
theorem ending_convertResolved (hunion : ∀ branches, schema ≠ .union branches)
    (h : schema.looksInto value = true) :
    (convertResolved py readers convert resolve schema value).ending =
      Steps.ending ((parts schema value).mapM fun p => convert p.1 p.2) := by
  rw [convertResolved_container hunion h]
  rcases Schema.looksInto_cases hunion h with ⟨l, isError, fields, items, rfl, rfl⟩ |
    ⟨l, itemType, values, rfl, rfl⟩ | ⟨l, valueType, items, rfl, rfl⟩
  · refine (Steps.ending_bind_pure _ _).trans ?_
    simp only [parts]
    clear h hunion
    induction items with
    | nil => rfl
    | cons kv items ih =>
      rw [List.mapM_cons, List.filterMap_cons, convertField]
      cases htype : fieldType fields kv.1 with
      | none =>
        simp only [Option.map_none]
        rw [pure_bind, Steps.ending_bind_pure, ih]
      | some type =>
        simp only [Option.map_some, List.mapM_cons, bind_assoc, pure_bind]
        refine Steps.ending_bind_congr fun y => ?_
        rw [Steps.ending_bind_pure, Steps.ending_bind_pure, ih]
  · refine (Steps.ending_bind_pure _ _).trans ?_
    simp only [parts]
    clear h hunion
    induction values with
    | nil => rfl
    | cons v values ih =>
      rw [List.mapM_cons, List.map_cons, List.mapM_cons]
      refine Steps.ending_bind_congr fun y => ?_
      rw [Steps.ending_bind_pure, Steps.ending_bind_pure, ih]
  · refine (Steps.ending_bind_pure _ _).trans ?_
    simp only [parts]
    clear h hunion
    induction items with
    | nil => rfl
    | cons kv items ih =>
      simp only [List.mapM_cons, List.map_cons, bind_assoc, pure_bind]
      refine Steps.ending_bind_congr fun y => ?_
      rw [Steps.ending_bind_pure, Steps.ending_bind_pure, ih]

theorem convertResolved_returns_iff (hunion : ∀ branches, schema ≠ .union branches)
    (h : schema.looksInto value = true) :
    (∃ y, (convertResolved py readers convert resolve schema value).run = some (.ok y)) ↔
      ∀ p ∈ parts schema value, ∃ y, (convert p.1 p.2).run = some (.ok y) := by
  rw [← Steps.ending_eq_ok, ending_convertResolved hunion h, Steps.ending_eq_ok,
    Steps.run_mapM_returns_iff]

end Parts

section Branches

variable (py : Interpreter F O) (readers : TextReaders O) (named : List (Text × Schema))

def Accepts (branch : Schema) (value : Value F O) : Prop :=
  ∃ resolved, Ends (resolveStep named) branch resolved ∧ admits py readers resolved value = true

/-- A branch of a union that does not take a value. -/
def Declines (branch : Schema) (value : Value F O) : Prop :=
  ∃ resolved, Ends (resolveStep named) branch resolved ∧ admits py readers resolved value = false

def Reads (schema : Schema) (value : Value F O) : Prop :=
  readObject? py readers schema value = none → ∃ octets, readOctets readers schema value = .ok octets

/-- A value that passes a schema: so do the parts that it has there, and of the branches of a union the
first one that accepts it and those before. -/
inductive Passes : Schema → Value F O → Prop where
  | parts {s r v} : Ends (resolveStep named) s r → (∀ branches, r ≠ .union branches) →
      Reads py readers r v → (∀ p ∈ parts r v, Passes p.1 p.2) → Passes s v
  | branch {s b before after v} : Ends (resolveStep named) s (.union (before ++ b :: after)) →
      (∀ b' ∈ before, Passes b' v) → (∀ b' ∈ before, Declines py readers named b' v) →
      Passes b v → Accepts py readers named b v → Passes s v
  | noBranch {s branches v} : Ends (resolveStep named) s (.union branches) →
      (∀ b ∈ branches, Passes b v) → (∀ b ∈ branches, Declines py readers named b v) → Passes s v

variable {py readers named} {convert : Schema → Value F O → Steps PyException (Value F O)}
  {resolve : Schema → Option Schema} {value y : Value F O}

theorem reads_iff {schema : Schema} :
    Reads py readers schema value ↔ ∃ y, readScalar py readers schema value = .ok y := by
  rw [Reads, readScalar]
  cases readObject? py readers schema value with
  | some o => simp
  | none => cases readOctets readers schema value <;> simp [Except.map]

def PassedOver (convert : Schema → Value F O → Steps PyException (Value F O))
    (resolve : Schema → Option Schema) (value : Value F O) (b : Schema) : Prop :=
  ∃ candidate resolved, (convert b value).run = some (.ok candidate) ∧
    resolve b = some resolved ∧ fits resolved candidate = false

/-- A union converts by its first branch that fits, or leaves the value. -/
theorem convertUnion_eq_ok {branches : List Schema} :
    (convertUnion convert resolve branches value).run = some (.ok y) ↔
      ((∀ b ∈ branches, PassedOver convert resolve value b) ∧ y = value) ∨
        ∃ before branch after, branches = before ++ branch :: after ∧
          (∀ b ∈ before, PassedOver convert resolve value b) ∧
          (convert branch value).run = some (.ok y) ∧
          ∃ resolved, resolve branch = some resolved ∧ fits resolved y = true := by
  induction branches with
  | nil =>
    constructor
    · intro h
      exact .inl ⟨nofun, (Except.ok.inj (Option.some.inj h)).symm⟩
    · rintro (⟨-, rfl⟩ | ⟨before, branch, after, hnil, -⟩)
      · rfl
      · cases before <;> cases hnil
  | cons b branches ih =>
    constructor
    · intro h
      obtain ⟨candidate, hcandidate, h⟩ := Steps.run_bind_eq_ok.mp h
      obtain ⟨resolved, hresolved, h⟩ := Steps.run_bind_eq_ok.mp h
      rw [Steps.run_option, Option.map_eq_some_iff] at hresolved
      obtain ⟨_, hresolved, heq⟩ := hresolved
      obtain rfl := Except.ok.inj heq
      split_ifs at h with hfits
      · obtain rfl := Except.ok.inj (Option.some.inj h)
        exact .inr ⟨[], b, branches, rfl, nofun, hcandidate, _, hresolved, hfits⟩
      · have hb : PassedOver convert resolve value b :=
          ⟨candidate, _, hcandidate, hresolved, by simpa using hfits⟩
        rcases ih.mp h with ⟨hall, hy⟩ | ⟨before, branch, after, rfl, hbefore, hbranch⟩
        · exact .inl ⟨List.forall_mem_cons.mpr ⟨hb, hall⟩, hy⟩
        · exact .inr ⟨b :: before, branch, after, rfl,
            List.forall_mem_cons.mpr ⟨hb, hbefore⟩, hbranch⟩
    · have hnext : ∀ {candidate resolved}, (convert b value).run = some (.ok candidate) →
          resolve b = some resolved →
          (convertUnion convert resolve (b :: branches) value).run =
            (if fits resolved candidate then (pure candidate : Steps PyException (Value F O))
              else convertUnion convert resolve branches value).run := by
        intro candidate resolved hcandidate hresolved
        rw [convertUnion, Steps.run_bind, hcandidate]
        simp only [Steps.run_bind, Steps.run_option, hresolved, Option.map_some]
      rintro (⟨hall, rfl⟩ | ⟨before, branch, after, hbranches, hbefore, hy, resolved, hresolved,
        hfits⟩)
      · obtain ⟨⟨candidate, resolved, hcandidate, hresolved, hfits⟩, hall⟩ :=
          List.forall_mem_cons.mp hall
        rw [hnext hcandidate hresolved, hfits, if_neg Bool.false_ne_true]
        exact ih.mpr (.inl ⟨hall, rfl⟩)
      · cases before with
        | nil =>
          obtain ⟨rfl, rfl⟩ := List.cons.inj hbranches
          rw [hnext hy hresolved, if_pos hfits]
          rfl
        | cons p before =>
          obtain ⟨rfl, rfl⟩ := List.cons.inj hbranches
          obtain ⟨⟨candidate, resolved', hcandidate, hresolved', hfits'⟩, hbefore⟩ :=
            List.forall_mem_cons.mp hbefore
          rw [hnext hcandidate hresolved', hfits', if_neg Bool.false_ne_true]
          exact ih.mpr (.inr ⟨before, branch, after, rfl, hbefore, hy, resolved, hresolved, hfits⟩)

end Branches

section Passing

open Filter

variable {py : Interpreter F O} {readers : TextReaders O} {named : List (Text × Schema)}
  {s b : Schema} {v : Value F O}

theorem declines_of_passedOver {fuel : ℕ}
    (h : PassedOver (convert py readers named fuel) (resolve named fuel) v b) :
    Declines py readers named b v := by
  obtain ⟨candidate, resolved, hcandidate, hresolved, hfits⟩ := h
  have hends := ends_of_run hresolved
  exact ⟨resolved, hends, (fits_convert py readers hends hcandidate).symm.trans hfits⟩

/-- A branch that declines is passed over once it is converted. -/
theorem eventually_passedOver (h : Declines py readers named b v)
    (hconvert : ∀ᶠ fuel in atTop, ∃ y, (convert py readers named fuel b v).run = some (.ok y)) :
    ∀ᶠ fuel in atTop, PassedOver (convert py readers named fuel) (resolve named fuel) v b := by
  obtain ⟨resolved, hends, hadmits⟩ := h
  filter_upwards [hconvert, hends.eventually_run] with fuel ⟨y, hy⟩ hrun
  exact ⟨y, resolved, hy, hrun, (fits_convert py readers hends hy).trans hadmits⟩

theorem eventually_accepted (h : Accepts py readers named b v) :
    ∀ᶠ fuel in atTop, ∀ y, (convert py readers named fuel b v).run = some (.ok y) →
      ∃ resolved, resolve named fuel b = some resolved ∧ fits resolved y = true := by
  obtain ⟨resolved, hends, hadmits⟩ := h
  filter_upwards [hends.eventually_run] with fuel hrun y hy
  exact ⟨resolved, hrun, (fits_convert py readers hends hy).trans hadmits⟩

theorem Passes.eventually (h : Passes py readers named s v) :
    ∀ᶠ fuel in atTop, ∃ y, (convert py readers named fuel s v).run = some (.ok y) := by
  induction h with
  | @parts s r v hends hunion hreads _ ih =>
    refine eventually_convert (P := fun r => ∃ y, r = some (.ok y)) hends ?_
    cases hlook : r.looksInto v with
    | false =>
      obtain ⟨y, hy⟩ := reads_iff.mp hreads
      refine Eventually.of_forall fun fuel => ⟨y, ?_⟩
      rw [convertResolved_scalar hlook, Steps.run_lift, hy]
    | true =>
      exact (eventually_forall_mem ih).mono fun fuel hfuel =>
        (convertResolved_returns_iff hunion hlook).mpr hfuel
  | @branch s b before after v hends _ hdeclines _ haccepts ihbefore ihbranch =>
    refine eventually_convert (P := fun r => ∃ y, r = some (.ok y)) hends ?_
    have hpassed := eventually_forall_mem fun b' hb' =>
      eventually_passedOver (hdeclines b' hb') (ihbefore b' hb')
    filter_upwards [hpassed, ihbranch, eventually_accepted haccepts] with fuel hpassed ⟨y, hy⟩ hfits
    exact ⟨y, convertUnion_eq_ok.mpr (.inr ⟨before, b, after, rfl, hpassed, hy, hfits y hy⟩)⟩
  | @noBranch s branches v hends _ hdeclines ih =>
    refine eventually_convert (P := fun r => ∃ y, r = some (.ok y)) hends ?_
    have hpassed := eventually_forall_mem fun b hb => eventually_passedOver (hdeclines b hb) (ih b hb)
    exact hpassed.mono fun fuel hpassed => ⟨v, convertUnion_eq_ok.mpr (.inl ⟨hpassed, rfl⟩)⟩

theorem passes_of_convert {fuel : ℕ} {y : Value F O}
    (h : (convert py readers named fuel s v).run = some (.ok y)) : Passes py readers named s v := by
  induction fuel generalizing s v y with
  | zero => cases h
  | succ fuel ih =>
    obtain ⟨r, hrun, hresolved⟩ := run_convert_succ.mp h
    have hends := ends_of_run hrun
    have hpassed : ∀ b, PassedOver (convert py readers named fuel) (resolve named fuel) v b →
        Passes py readers named b v := fun b ⟨_, _, hcandidate, _⟩ => ih hcandidate
    by_cases hunion : ∃ branches, r = .union branches
    · obtain ⟨branches, rfl⟩ := hunion
      rcases convertUnion_eq_ok.mp hresolved with
        ⟨hall, -⟩ | ⟨before, branch, after, rfl, hbefore, hbranch, resolved, hr, hfits⟩
      · exact .noBranch hends (fun b hb => hpassed b (hall b hb))
          fun b hb => declines_of_passedOver (hall b hb)
      · have hbranchEnds := ends_of_run hr
        exact .branch hends (fun b hb => hpassed b (hbefore b hb))
          (fun b hb => declines_of_passedOver (hbefore b hb)) (ih hbranch)
          ⟨resolved, hbranchEnds, (fits_convert py readers hbranchEnds hbranch).symm.trans hfits⟩
    · have hother : ∀ branches, r ≠ .union branches := fun branches heq => hunion ⟨branches, heq⟩
      cases hlook : r.looksInto v with
      | false =>
        rw [convertResolved_scalar hlook, Steps.run_lift] at hresolved
        refine .parts hends hother (reads_iff.mpr ⟨y, Option.some.inj hresolved⟩) fun p hp => ?_
        rw [parts_of_scalar hlook] at hp
        cases hp
      | true =>
        have hreads : Reads py readers r v := by
          rcases Schema.looksInto_cases hother hlook with ⟨l, isError, fields, items, rfl, rfl⟩ |
            ⟨l, itemType, values, rfl, rfl⟩ | ⟨l, valueType, items, rfl, rfl⟩ <;>
          exact fun _ => ⟨none, rfl⟩
        refine .parts hends hother hreads fun p hp => ?_
        obtain ⟨w, hw⟩ := (convertResolved_returns_iff hother hlook).mp ⟨y, hresolved⟩ p hp
        exact ih hw

theorem passes_iff : Passes py readers named s v ↔
    ∃ fuel y, (convert py readers named fuel s v).run = some (.ok y) :=
  ⟨fun h => h.eventually.exists, fun ⟨_, _, h⟩ => passes_of_convert h⟩

end Passing

end Kaskade.Avro
