import Kaskade.AvroPassing

/-!
# The end of the Avro conversion

The loop that follows names and wrapped types runs inside of a recursion over the value. The
conversion ends exactly if no schema that it visits is led into a circle, which takes a type with the
name of a keyword. It visits nothing behind a part that raises.
-/

namespace Kaskade.Avro

open Python Repeated

section Turns

variable {named : List (Text × Schema)} {s t : Schema}

theorem mem_of_lookup {n : Text} {d : Schema} (h : named.lookup n = some d) : (n, d) ∈ named := by
  obtain ⟨before, after, rfl, -⟩ := List.lookup_eq_some_iff.mp h
  simp

theorem wrapsName_eq_some {logicalType? typeName? : Option Text}
    (h : wrapsName named logicalType? typeName? = some t) :
    logicalType? = none ∧ ∃ n d, typeName? = some n ∧ t = .name n ∧ (n, d) ∈ named := by
  unfold wrapsName at h
  split at h
  next n =>
    split at h
    next hsome =>
      obtain ⟨d, hd⟩ := Option.isSome_iff_exists.mp hsome
      exact ⟨rfl, n, d, rfl, (Option.some.inj h).symm, mem_of_lookup hd⟩
    · cases h
  · cases h

/-- A turn goes from a name to its definition, from a wrapper to its type, or from a dictionary to
the name that its type is. -/
theorem resolveStep_cases (h : Turns (resolveStep named) s t) :
    (∃ n, s = .name n ∧ (n, t) ∈ named) ∨ s = .wrapper none t ∨
      ∃ n d, s.isDict ∧ s.logicalType? = none ∧ s.typeName? = some n ∧ t = .name n ∧
        (n, d) ∈ named := by
  cases s with
  | name n => exact .inl ⟨n, rfl, mem_of_lookup h⟩
  | union branches => cases h
  | wrapper logicalType type =>
    cases logicalType with
    | none => exact .inr (.inl (by rw [Option.some.inj h]))
    | some l => cases h
  | _ =>
    obtain ⟨hlogical, n, d, hname, ht, hmem⟩ := wrapsName_eq_some h
    exact .inr (.inr ⟨n, d, rfl, hlogical, hname, ht, hmem⟩)

def wrapped : Schema → List Schema
  | .wrapper none type => .wrapper none type :: wrapped type
  | schema => [schema]

theorem self_mem_wrapped (s : Schema) : s ∈ wrapped s := by
  unfold wrapped
  split <;> exact List.mem_cons_self

theorem mem_wrapped {s type : Schema} (h : .wrapper none type ∈ wrapped s) : type ∈ wrapped s := by
  fun_induction wrapped s with
  | case1 type' ih =>
    rcases List.mem_cons.mp h with heq | h
    · obtain rfl : type = type' := by injection heq
      exact List.mem_cons_of_mem _ (self_mem_wrapped type)
    · exact List.mem_cons_of_mem _ (ih h)
  | case2 schema hnot =>
    obtain rfl := List.mem_singleton.mp h
    exact absurd rfl (hnot type)

def states (named : List (Text × Schema)) (s : Schema) : List Schema :=
  wrapped s ++ named.flatMap fun p => .name p.1 :: wrapped p.2

theorem states_closed (named : List (Text × Schema)) (s : Schema) :
    ∀ u ∈ states named s, ∀ t, Turns (resolveStep named) u t → t ∈ states named s := by
  intro u hu t hstep
  have hnamed : ∀ {n d t}, (n, d) ∈ named → t ∈ .name n :: wrapped d → t ∈ states named s :=
    fun hmem ht => List.mem_append_right _ (List.mem_flatMap.mpr ⟨_, hmem, ht⟩)
  rcases resolveStep_cases hstep with ⟨n, rfl, hmem⟩ | rfl |
    ⟨n, d, -, -, -, rfl, hmem⟩
  · exact hnamed hmem (List.mem_cons_of_mem _ (self_mem_wrapped t))
  · rcases List.mem_append.mp hu with hu | hu
    · exact List.mem_append_left _ (mem_wrapped hu)
    · obtain ⟨⟨n, d⟩, hmem, hu⟩ := List.mem_flatMap.mp hu
      rcases List.mem_cons.mp hu with hname | hu
      · cases hname
      · exact hnamed hmem (List.mem_cons_of_mem _ (mem_wrapped hu))
  · exact hnamed hmem List.mem_cons_self

/-- A schema that is not led into a circle has a schema that applies. -/
theorem exists_resolved (named : List (Text × Schema)) (h : ¬ Circular (resolveStep named) s) :
    ∃ r, Ends (resolveStep named) s r :=
  exists_ends (states_closed named s) (List.mem_append_left _ (self_mem_wrapped s)) h

theorem not_union_of_isDefinition (hdefinitions : ∀ p ∈ named, p.2.isDefinition)
    {branches : List Schema}
    (h : Relation.ReflTransGen (Turns (resolveStep named)) s (.union branches)) :
    s.isDefinition = false ∧ ∀ n, s ≠ .name n := by
  induction h using Relation.ReflTransGen.head_induction_on with
  | refl => exact ⟨rfl, fun n hn => by cases hn⟩
  | @head s t hstep _ ih =>
    rcases resolveStep_cases hstep with ⟨n, rfl, hmem⟩ | rfl | ⟨n, d, -, -, -, rfl, -⟩
    · have hdefinition := hdefinitions (n, t) hmem
      rw [ih.1] at hdefinition
      cases hdefinition
    · exact ⟨rfl, fun n hn => by cases hn⟩
    · exact absurd rfl (ih.2 n)

theorem sizeOf_branch (hdefinitions : ∀ p ∈ named, p.2.isDefinition) {branches : List Schema}
    {b : Schema} (h : Relation.ReflTransGen (Turns (resolveStep named)) s (.union branches))
    (hb : b ∈ branches) : sizeOf b < sizeOf s := by
  induction h using Relation.ReflTransGen.head_induction_on with
  | refl =>
    have hless := List.sizeOf_lt_of_mem hb
    simp only [Schema.union.sizeOf_spec]
    omega
  | @head s t hstep hrest ih =>
    rcases resolveStep_cases hstep with ⟨n, rfl, hmem⟩ | rfl | ⟨n, d, -, -, -, rfl, -⟩
    · have hdefinition := hdefinitions (n, t) hmem
      rw [(not_union_of_isDefinition hdefinitions hrest).1] at hdefinition
      cases hdefinition
    · simp only [Schema.wrapper.sizeOf_spec]
      omega
    · exact absurd rfl ((not_union_of_isDefinition hdefinitions hrest).2 n)

end Turns

section Visits

open Filter

variable {F O : Type} (py : Interpreter F O) (readers : TextReaders O)
  (named : List (Text × Schema))

/-- What the conversion of a value under a schema comes to next: a branch of a union, after those
that convert the value without taking it, or a part of the value, after those that convert. -/
inductive Part : Schema × Value F O → Schema × Value F O → Prop where
  | branch {s b : Schema} {before after : List Schema} {v : Value F O} :
      Ends (resolveStep named) s (.union (before ++ b :: after)) →
      (∀ b' ∈ before, Passes py readers named b' v ∧ Declines py readers named b' v) →
      Part (s, v) (b, v)
  | inside {s r : Schema} {v : Value F O} {p : Schema × Value F O}
      {before after : List (Schema × Value F O)} :
      Ends (resolveStep named) s r → parts r v = before ++ p :: after →
      (∀ q ∈ before, Passes py readers named q.1 q.2) → Part (s, v) p

def Visits : Schema × Value F O → Schema × Value F O → Prop :=
  Relation.ReflTransGen (Part py readers named)

variable {py readers named} {s : Schema} {v : Value F O}

theorem sizeOf_part {schema : Schema} {p : Schema × Value F O} (h : p ∈ parts schema v) :
    sizeOf p.2 < sizeOf v := by
  have hitem : ∀ {kv : Text × Value F O} {items : List (Text × Value F O)}, kv ∈ items →
      sizeOf kv.2 < sizeOf (Value.dict items) := by
    intro kv items hkv
    obtain ⟨key, w⟩ := kv
    have hless := List.sizeOf_lt_of_mem hkv
    simp only [Prod.mk.sizeOf_spec, Value.dict.sizeOf_spec] at hless ⊢
    omega
  unfold parts at h
  split at h
  · obtain ⟨kv, hkv, hp⟩ := List.mem_filterMap.mp h
    obtain ⟨type, -, rfl⟩ := Option.map_eq_some_iff.mp hp
    exact hitem hkv
  · obtain ⟨w, hw, rfl⟩ := List.mem_map.mp h
    have hless := List.sizeOf_lt_of_mem hw
    simp only [Value.list.sizeOf_spec]
    omega
  · obtain ⟨kv, hkv, rfl⟩ := List.mem_map.mp h
    exact hitem hkv
  · cases h

theorem looksInto_of_parts {schema : Schema} {p : Schema × Value F O} (h : p ∈ parts schema v) :
    schema.looksInto v = true := by
  cases hlook : schema.looksInto v with
  | true => rfl
  | false =>
    rw [parts_of_scalar hlook] at h
    cases h

theorem convertUnion_reached {convert : Schema → Value F O → Steps PyException (Value F O)}
    {resolve : Schema → Option Schema} {before after : List Schema} {b : Schema}
    (hbefore : ∀ b' ∈ before, ∀ r, (convert b' v).run = some r → ∃ candidate, r = .ok candidate ∧
      ∀ resolved, resolve b' = some resolved → fits resolved candidate = false)
    (h : (convertUnion convert resolve (before ++ b :: after) v).run.isSome) :
    (convert b v).run.isSome := by
  induction before with
  | nil =>
    rw [List.nil_append, convertUnion, Steps.run_bind] at h
    cases hconvert : (convert b v).run with
    | none => simp [hconvert] at h
    | some r => rfl
  | cons b' before ih =>
    rw [List.cons_append, convertUnion, Steps.run_bind] at h
    cases hconvert : (convert b' v).run with
    | none => simp [hconvert] at h
    | some r =>
      obtain ⟨candidate, rfl, hdeclines⟩ := hbefore b' List.mem_cons_self r hconvert
      simp only [hconvert, Steps.run_bind, Steps.run_option] at h
      cases hresolve : resolve b' with
      | none => simp [hresolve] at h
      | some resolved =>
        simp only [hresolve, Option.map_some, hdeclines resolved hresolve, Bool.false_eq_true,
          if_false] at h
        exact ih (fun b hb => hbefore b (List.mem_cons_of_mem _ hb)) h

theorem convert_part {fuel : ℕ} {p : Schema × Value F O}
    (h : (convert py readers named (fuel + 1) s v).run.isSome)
    (hpart : Part py readers named (s, v) p) :
    (convert py readers named fuel p.1 p.2).run.isSome := by
  obtain ⟨r, hr⟩ := Option.isSome_iff_exists.mp h
  obtain ⟨resolved, hrun, hresolved⟩ := run_convert_succ.mp hr
  have hends := ends_of_run hrun
  have hpasses : ∀ {s' : Schema} {v' : Value F O} {r}, Passes py readers named s' v' →
      (convert py readers named fuel s' v').run = some r → ∃ y, r = .ok y := by
    intro s' v' r hpass hr
    obtain ⟨n, y, hy⟩ := passes_iff.mp hpass
    exact ⟨y, convert_unique hr hy⟩
  cases hpart with
  | branch hunion hbefore =>
    obtain rfl := hends.unique hunion
    refine convertUnion_reached (fun b' hb' r hr => ?_) (Option.isSome_iff_exists.mpr ⟨_, hresolved⟩)
    obtain ⟨hpass, resolved', hends', hadmits⟩ := hbefore b' hb'
    obtain ⟨candidate, rfl⟩ := hpasses hpass hr
    refine ⟨candidate, rfl, fun resolved hrun' => ?_⟩
    obtain rfl := (ends_of_run hrun').unique hends'
    exact (fits_convert py readers hends' hr).trans hadmits
  | @inside _ _ _ _ before after hr hsplit hbefore =>
    obtain rfl := hends.unique hr
    have hunion : ∀ branches, resolved ≠ .union branches := by
      rintro branches rfl
      cases before <;> cases hsplit
    have hmem : p ∈ parts resolved v := by simp [hsplit]
    have hlook := looksInto_of_parts hmem
    have hparts : (convertResolved py readers (convert py readers named fuel) (resolve named fuel)
        resolved v).run.isSome := Option.isSome_iff_exists.mpr ⟨_, hresolved⟩
    rw [← Steps.isSome_ending, ending_convertResolved hunion hlook, Steps.isSome_ending, hsplit]
      at hparts
    have hpassed : ∀ q ∈ before, ∀ r, (convert py readers named fuel q.1 q.2).run = some r →
        ∃ y, r = .ok y := fun q hq r hr => hpasses (hbefore q hq) hr
    have hreached := Steps.run_mapM_reached hpassed hparts
    exact hreached

/-- A conversion that ends visits no schema that is led into a circle. -/
theorem not_circular_of_convert {fuel : ℕ} {p : Schema × Value F O}
    (h : (convert py readers named fuel s v).run.isSome)
    (hvisits : Visits py readers named (s, v) p) : ¬ Circular (resolveStep named) p.1 := by
  induction fuel generalizing s v with
  | zero => cases h
  | succ fuel ih =>
    rcases hvisits.cases_head with rfl | ⟨⟨s', v'⟩, hpart, hrest⟩
    · obtain ⟨r, hr⟩ := Option.isSome_iff_exists.mp h
      obtain ⟨resolved, hrun, -⟩ := run_convert_succ.mp hr
      exact (ends_of_run hrun).not_circular
    · exact ih (convert_part h hpart) hrest

theorem eventually_convertUnion {branches : List Schema}
    (h : ∀ before b after, branches = before ++ b :: after →
      (∀ b' ∈ before, Passes py readers named b' v ∧ Declines py readers named b' v) →
      (∃ r, Ends (resolveStep named) b r) ∧
        ∀ᶠ fuel in atTop, (convert py readers named fuel b v).run.isSome) :
    ∀ᶠ fuel in atTop, (convertUnion (convert py readers named fuel) (resolve named fuel) branches
      v).run.isSome := by
  induction branches with
  | nil => exact Eventually.of_forall fun _ => rfl
  | cons b branches ih =>
    obtain ⟨⟨resolved, hends⟩, hconvert⟩ := h [] b branches rfl nofun
    have hrest : Passes py readers named b v ∧ Declines py readers named b v →
        ∀ᶠ fuel in atTop, (convertUnion (convert py readers named fuel) (resolve named fuel) branches
          v).run.isSome := by
      intro hb
      refine ih fun before b' after hsplit hbefore => ?_
      exact h (b :: before) b' after (by rw [hsplit, List.cons_append])
        (List.forall_mem_cons.mpr ⟨hb, hbefore⟩)
    have hnext : ∀ᶠ fuel in atTop, Passes py readers named b v ∧ Declines py readers named b v →
        (convertUnion (convert py readers named fuel) (resolve named fuel) branches v).run.isSome := by
      by_cases hb : Passes py readers named b v ∧ Declines py readers named b v
      · exact (hrest hb).mono fun _ h _ => h
      · exact Eventually.of_forall fun _ hb' => absurd hb' hb
    filter_upwards [hconvert, hends.eventually_run, hnext] with fuel hconvert hrun hnext
    obtain ⟨r, hr⟩ := Option.isSome_iff_exists.mp hconvert
    rw [convertUnion, Steps.run_bind, hr]
    cases r with
    | error e => rfl
    | ok candidate =>
      simp only [Steps.run_bind, Steps.run_option, resolve, hrun, Option.map_some]
      split_ifs with hfits
      · rfl
      · have hdeclines : fits resolved candidate = false := by simpa using hfits
        exact hnext ⟨passes_of_convert hr, resolved, hends,
          (fits_convert py readers hends hr).symm.trans hdeclines⟩

variable (py readers) in
/-- A conversion ends that visits no schema that is led into a circle: what it comes to is a branch
inside of the schema, or inside of the value. -/
theorem convert_of_not_circular (hdefinitions : ∀ p ∈ named, p.2.isDefinition)
    (h : ∀ p, Visits py readers named (s, v) p → ¬ Circular (resolveStep named) p.1) :
    ∀ᶠ fuel in atTop, (convert py readers named fuel s v).run.isSome := by
  induction hv : sizeOf v using Nat.strong_induction_on generalizing s v with
  | _ n ihvalue =>
    induction hs : sizeOf s using Nat.strong_induction_on generalizing s with
    | _ m ihschema =>
      have hpart : ∀ p, Part py readers named (s, v) p →
          ∀ q, Visits py readers named p q → ¬ Circular (resolveStep named) q.1 :=
        fun p hp q hq => h q (.head hp hq)
      obtain ⟨r, hr⟩ := exists_resolved named (h (s, v) .refl)
      have hends : ∀ p, Part py readers named (s, v) p →
          (∃ r, Ends (resolveStep named) p.1 r) ∧
            (sizeOf p.2 < sizeOf v ∨ p.2 = v ∧ sizeOf p.1 < sizeOf s →
              ∀ᶠ fuel in atTop, (convert py readers named fuel p.1 p.2).run.isSome) := by
        rintro ⟨s', v'⟩ hp
        refine ⟨exists_resolved named (hpart _ hp _ .refl), ?_⟩
        rintro (hless | ⟨rfl, hless⟩)
        · exact ihvalue _ (hv ▸ hless) (hpart _ hp) rfl
        · exact ihschema _ (hs ▸ hless) (hpart _ hp) rfl
      refine eventually_convert (P := fun r => r.isSome) hr ?_
      by_cases hunion : ∃ branches, r = .union branches
      · obtain ⟨branches, rfl⟩ := hunion
        refine eventually_convertUnion fun before b after hsplit hbefore => ?_
        subst hsplit
        obtain ⟨hb, hconvert⟩ := hends (b, v) (.branch hr hbefore)
        exact ⟨hb, hconvert (.inr ⟨rfl, sizeOf_branch hdefinitions hr.1 (by simp)⟩)⟩
      have hother : ∀ branches, r ≠ .union branches := fun branches heq => hunion ⟨branches, heq⟩
      cases hlook : r.looksInto v with
      | false =>
        refine Eventually.of_forall fun fuel => ?_
        rw [convertResolved_scalar hlook, Steps.run_lift]
        rfl
      | true =>
        have hparts : ∀ᶠ fuel in atTop,
            ((parts r v).mapM fun p => convert py readers named fuel p.1 p.2).run.isSome := by
          refine Steps.eventually_mapM fun before p after hsplit hbefore => ?_
          have hp : Part py readers named (s, v) p :=
            .inside hr hsplit fun q hq => passes_iff.mpr (hbefore q hq)
          have hmem : p ∈ parts r v := by simp [hsplit]
          exact (hends p hp).2 (.inl (sizeOf_part hmem))
        refine hparts.mono fun fuel hfuel => ?_
        rwa [← Steps.isSome_ending, ending_convertResolved hother hlook, Steps.isSome_ending]

theorem Parsed.named_definitions (schema : Parsed) : ∀ p ∈ schema.named, p.2.isDefinition := by
  intro p hp
  rw [named] at hp
  split at hp
  · exact schema.definitions p hp
  · cases hp

variable (py readers) in
/-- The conversion of a value to Avro comes to an end exactly if no schema that it visits is led, by
names of types and by wrapped types, into a circle. -/
theorem toAvro_ends_iff (schema : Parsed) (value : Value F O) :
    (∃ fuel r, (toAvro py readers fuel schema value).run = some r) ↔
      ∀ p, Visits py readers schema.named (schema.root, value) p →
        ¬ Circular (resolveStep schema.named) p.1 := by
  constructor
  · rintro ⟨fuel, r, hr⟩ p hp
    exact not_circular_of_convert (Option.isSome_iff_exists.mpr ⟨r, hr⟩) hp
  · intro h
    obtain ⟨fuel, hfuel⟩ := (convert_of_not_circular py readers schema.named_definitions h).exists
    exact ⟨fuel, Option.isSome_iff_exists.mp hfuel⟩

end Visits

def definitionKeywords : List Text := ["record", "error", "enum", "fixed"].map text

section Keywords

variable {named : List (Text × Schema)}

/-- The loop stops at a definition unless its keyword names a type. -/
theorem stops_at_definition (hfree : ∀ t ∈ definitionKeywords, named.lookup t = none) {d : Schema}
    (hd : d.isDefinition) : resolveStep named d = none := by
  cases d with
  | plain l t =>
    have ht : t = text "fixed" := by simpa [Schema.isDefinition] using hd
    exact resolveStep_of_free rfl (hfree t (by simp [definitionKeywords, ht]))
  | enum l symbols => exact resolveStep_of_free rfl (hfree _ (by simp [definitionKeywords]))
  | record l isError fields =>
    refine resolveStep_of_free rfl (hfree _ ?_)
    cases isError <;> simp [definitionKeywords]
  | _ => cases hd

/-- Without a type that is named like the keyword of a definition, no schema is led into a circle. -/
theorem not_circular_of_free (hdefinitions : ∀ p ∈ named, p.2.isDefinition)
    (hfree : ∀ t ∈ definitionKeywords, named.lookup t = none) (s : Schema) :
    ¬ Circular (resolveStep named) s := by
  have hname : ∀ n, ¬ Circular (resolveStep named) (.name n) := by
    intro n
    cases hstep : resolveStep named (.name n) with
    | none => exact not_circular_of_stop hstep
    | some d =>
      have hd := hdefinitions (n, d) (mem_of_lookup hstep)
      exact (circular_turn hstep).not.mpr (not_circular_of_stop (stops_at_definition hfree hd))
  induction hs : sizeOf s using Nat.strong_induction_on generalizing s with
  | _ m ih =>
    cases hstep : resolveStep named s with
    | none => exact not_circular_of_stop hstep
    | some t =>
      refine (circular_turn hstep).not.mpr ?_
      rcases resolveStep_cases hstep with ⟨n, rfl, -⟩ | rfl | ⟨n, d, -, -, -, rfl, -⟩
      · exact (circular_turn hstep).not.mp (hname n)
      · refine ih _ ?_ t rfl
        simp only [← hs, Schema.wrapper.sizeOf_spec]
        omega
      · exact hname n

/-- Without such a name every conversion comes to an end. -/
theorem toAvro_ends_of_free {F O : Type} (py : Interpreter F O) (readers : TextReaders O)
    {schema : Parsed} (hfree : ∀ t ∈ definitionKeywords, schema.named.lookup t = none)
    (value : Value F O) : ∃ fuel r, (toAvro py readers fuel schema value).run = some r := by
  obtain ⟨fuel, hfuel⟩ := (convert_of_not_circular py readers (v := value) schema.named_definitions
    fun p _ => not_circular_of_free schema.named_definitions hfree p.1).exists
  exact ⟨fuel, Option.isSome_iff_exists.mp hfuel⟩

end Keywords

/-- A record with the name `record`. -/
def recordNamedRecord : Parsed where
  root := .record none false []
  namedSchemas := [(text "record", .record none false [])]
  definitions := by simp [Schema.isDefinition]

def noReaders : TextReaders Empty where
  kind o := o.elim
  read _ _ := none
  literal _ := .ok none

/-- The name of the record is the keyword of its own definition, which the loop follows for ever. -/
theorem not_toAvro_ends_record :
    ¬ ∃ fuel r, (toAvro Interpreter.plain noReaders fuel recordNamedRecord (.dict [])).run = some r := by
  rintro ⟨fuel, r, hr⟩
  have hkeyword : Turns (resolveStep recordNamedRecord.named) recordNamedRecord.root
      (.name (text "record")) := rfl
  have hdefinition : Turns (resolveStep recordNamedRecord.named) (.name (text "record"))
      recordNamedRecord.root := rfl
  exact not_circular_of_convert (Option.isSome_iff_exists.mpr ⟨r, hr⟩) .refl
    ⟨recordNamedRecord.root, .refl, .tail (.single hkeyword) hdefinition⟩

end Kaskade.Avro
