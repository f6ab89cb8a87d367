import Kaskade.AvroSchemas

/-!
# Avro conversion

What the conversion of JSON content does under a schema: more steps give the same result, a scalar is
read by the reader of its logical type or as octets, and the branch of a union is the first one that
admits the value. A value passes if nothing that it is led to raises or goes on for ever.
-/

namespace Kaskade.Avro

open Python Filter Repeated

variable {F O : Type}

/-- A schema whose type names nothing applies itself. -/
theorem resolveStep_of_free {named : List (Text × Schema)} {schema : Schema} {t : Text}
    (htype : schema.typeName? = some t) (ht : named.lookup t = none) :
    resolveStep named schema = none := by
  have hwraps : ∀ l, wrapsName named l (some t) = none := by
    intro l
    cases l with
    | none => simp [wrapsName, ht]
    | some l => rfl
  cases schema with
  | name s =>
    obtain rfl := Option.some.inj htype
    exact ht
  | union branches => rfl
  | wrapper l type => cases htype
  | _ => exact (congrArg (wrapsName named _) htype).trans (hwraps _)

section Fuel

variable {convert convert' : Schema → Value F O → Steps PyException (Value F O)}
  {resolve resolve' : Schema → Option Schema}

theorem convertUnion_within (hconvert : ∀ s v, (convert s v).Within (convert' s v))
    (hresolve : ∀ s r, resolve s = some r → resolve' s = some r) (branches : List Schema)
    (value : Value F O) :
    (convertUnion convert resolve branches value).Within
      (convertUnion convert' resolve' branches value) := by
  induction branches with
  | nil => exact .refl _
  | cons branch branches ih =>
    refine (hconvert branch value).bind fun candidate =>
      (Steps.Within.option (hresolve branch)).bind fun resolved => ?_
    split_ifs
    · exact .refl _
    · exact ih

theorem convertField_within (hconvert : ∀ s v, (convert s v).Within (convert' s v))
    (fields : List (Text × Bool × Schema)) (kv : Text × Value F O) :
    (convertField convert fields kv).Within (convertField convert' fields kv) := by
  rw [convertField, convertField]
  cases fieldType fields kv.1 with
  | none => exact .refl _
  | some type => exact (hconvert type kv.2).bind fun y => .refl _

variable (py : Interpreter F O) (readers : TextReaders O)

theorem convertResolved_eq {schema : Schema} (hunion : ∀ branches, schema ≠ .union branches)
    (value : Value F O) :
    convertResolved py readers convert resolve schema value =
      convertParts readers convert schema (readLogical py readers schema value) := by
  cases schema with
  | union branches => exact absurd rfl (hunion branches)
  | _ => rfl

theorem convertResolved_within (hconvert : ∀ s v, (convert s v).Within (convert' s v))
    (hresolve : ∀ s r, resolve s = some r → resolve' s = some r) (schema : Schema)
    (value : Value F O) :
    (convertResolved py readers convert resolve schema value).Within
      (convertResolved py readers convert' resolve' schema value) := by
  have hparts : ∀ schema value, (convertParts readers convert schema value).Within
      (convertParts readers convert' schema value) := by
    intro schema value
    unfold convertParts
    split
    · exact (Steps.Within.mapM (convertField_within hconvert _)).bind fun items => .refl _
    · exact (Steps.Within.mapM (hconvert _)).bind fun values => .refl _
    · exact (Steps.Within.mapM fun kv => (hconvert _ _).bind fun y => .refl _).bind
        fun items => .refl _
    · exact .refl _
  by_cases hunion : ∃ branches, schema = .union branches
  · obtain ⟨branches, rfl⟩ := hunion
    exact convertUnion_within hconvert hresolve branches value
  · rw [convertResolved_eq py readers fun branches heq => hunion ⟨branches, heq⟩,
      convertResolved_eq py readers fun branches heq => hunion ⟨branches, heq⟩]
    exact hparts schema _

variable {named : List (Text × Schema)}

theorem convert_within {m n : ℕ} (hmn : m ≤ n) (schema : Schema) (value : Value F O) :
    (Avro.convert py readers named m schema value).Within
      (Avro.convert py readers named n schema value) := by
  have hsucc : ∀ fuel s (v : Value F O), (Avro.convert py readers named fuel s v).Within
      (Avro.convert py readers named (fuel + 1) s v) := by
    intro fuel
    induction fuel with
    | zero => exact fun s v => Steps.Within.cutOff _
    | succ fuel ih =>
      exact fun s v => (Steps.Within.option fun r => run_succ).bind fun resolved =>
        convertResolved_within py readers ih (fun s r => run_succ) resolved v
  induction hmn with
  | refl => exact .refl _
  | step _ ih => exact ih.trans (hsucc _ schema value)

variable {py readers} {s resolved : Schema} {v : Value F O} {r : Except PyException (Value F O)}

theorem run_convert_succ {fuel : ℕ} :
    (Avro.convert py readers named (fuel + 1) s v).run = some r ↔
      ∃ resolved, Avro.resolve named fuel s = some resolved ∧
        (convertResolved py readers (Avro.convert py readers named fuel) (Avro.resolve named fuel)
          resolved v).run = some r := by
  rw [Avro.convert, Steps.run_bind, Steps.run_option]
  cases Avro.resolve named fuel s with
  | none => simp
  | some resolved => simp

/-- Bounds that are large enough for the conversion of the parts are large enough for all. -/
theorem eventually_convert {P : Option (Except PyException (Value F O)) → Prop}
    (hends : Ends (resolveStep named) s resolved)
    (h : ∀ᶠ fuel in atTop, P (convertResolved py readers (Avro.convert py readers named fuel)
      (Avro.resolve named fuel) resolved v).run) :
    ∀ᶠ fuel in atTop, P (Avro.convert py readers named fuel s v).run := by
  obtain ⟨n, hn⟩ := eventually_atTop.mp (hends.eventually_run.and h)
  refine eventually_atTop.mpr ⟨n + 1, fun m hm => ?_⟩
  obtain ⟨fuel, rfl⟩ := Nat.exists_eq_add_of_lt hm
  obtain ⟨hrun, hresolved⟩ := hn (n + fuel) (Nat.le_add_right n fuel)
  rw [Avro.convert, Avro.resolve, hrun]
  exact hresolved

/-- Whatever the bounds are, a conversion comes to one result. -/
theorem convert_unique {m n : ℕ} {r' : Except PyException (Value F O)}
    (h : (Avro.convert py readers named m s v).run = some r)
    (h' : (Avro.convert py readers named n s v).run = some r') : r = r' := by
  have hmax := convert_within py readers (Nat.le_max_left m n) s v r h
  have hmax' := convert_within py readers (Nat.le_max_right m n) s v r' h'
  exact Option.some.inj (hmax.symm.trans hmax')

end Fuel

def logicalKind? (logicalType : Text) : Option ObjectKind :=
  if logicalType ∈ datetimeLogicalTypes then some .datetime
  else if logicalType = text "date" then some .date
  else if logicalType ∈ timeLogicalTypes then some .time
  else if logicalType = text "decimal" then some .decimal
  else none

namespace Schema

def kind? (schema : Schema) : Option ObjectKind := schema.logicalType?.bind logicalKind?

def holdsOctets (schema : Schema) : Bool :=
  schema.typeName? = some (text "bytes") ∨ schema.typeName? = some (text "fixed")

def looksInto : Schema → Value F O → Bool
  | .union _, _ => true
  | .record _ _ _, .dict _ => true
  | .array _ _, .list _ => true
  | .map _ _, .dict _ => true
  | _, _ => false

theorem looksInto_cases {schema : Schema} {value : Value F O}
    (hunion : ∀ branches, schema ≠ .union branches) (h : schema.looksInto value = true) :
    (∃ l isError fields items, schema = .record l isError fields ∧ value = .dict items) ∨
      (∃ l itemType values, schema = .array l itemType ∧ value = .list values) ∨
      ∃ l valueType items, schema = .map l valueType ∧ value = .dict items := by
  cases schema with
  | union branches => exact absurd rfl (hunion branches)
  | record l isError fields =>
    cases value with
    | dict items => exact .inl ⟨l, isError, fields, items, rfl, rfl⟩
    | _ => cases h
  | array l itemType =>
    cases value with
    | list values => exact .inr (.inl ⟨l, itemType, values, rfl, rfl⟩)
    | _ => cases h
  | map l valueType =>
    cases value with
    | dict items => exact .inr (.inr ⟨l, valueType, items, rfl, rfl⟩)
    | _ => cases h
  | _ => cases h

end Schema

variable (py : Interpreter F O) (readers : TextReaders O)

def ObjectKind.read? (kind : ObjectKind) (value : Value F O) : Option O :=
  match kind, value with
  | .datetime, .str t => readers.read .datetime (utcSuffix t)
  | kind, .str t => readers.read kind t
  | .decimal, .int i => readers.read .decimal (py.str (.int i))
  | .decimal, .float f => readers.read .decimal (py.str (.float f))
  | _, _ => none

def readObject? (schema : Schema) (value : Value F O) : Option O :=
  schema.kind?.bind fun kind => kind.read? py readers value

@[simp] theorem readObject?_list (schema : Schema) (items : List (Value F O)) :
    readObject? py readers schema (.list items) = none :=
  Option.bind_eq_none_iff.mpr fun kind _ => by cases kind <;> rfl

@[simp] theorem readObject?_dict (schema : Schema) (items : List (Text × Value F O)) :
    readObject? py readers schema (.dict items) = none :=
  Option.bind_eq_none_iff.mpr fun kind _ => by cases kind <;> rfl

/-- The octets that a schema reads in a JSON value; a literal may raise. -/
def readOctets (schema : Schema) (value : Value F O) : Outcome (Option Bytes) :=
  match value with
  | .str t =>
    if schema.holdsOctets ∧ (text "b'" <+: t ∨ text "b\"" <+: t) then
      Outcome.tryExcept (readers.literal t) [.syntaxError, .valueError] fun _ => .ok none
    else .ok none
  | _ => .ok none

/-- A schema reads a JSON value as an object, or else as octets, or leaves it. -/
def readScalar (schema : Schema) (value : Value F O) : Outcome (Value F O) :=
  match readObject? py readers schema value with
  | some o => .ok (.other o)
  | none => (readOctets readers schema value).map fun octets => octets.elim value .bytes

private theorem logicalKind?_decimal : logicalKind? (text "decimal") = some .decimal := rfl

theorem logical_eq (logicalType : Text) (value : Value F O) :
    logical py readers logicalType value =
      readOr value ((logicalKind? logicalType).bind fun kind => kind.read? py readers value) := by
  by_cases hdecimal : logicalType = text "decimal"
  · subst hdecimal
    rw [logicalKind?_decimal]
    cases value <;> rfl
  · unfold logical logicalKind?
    cases value <;> simp only [if_neg hdecimal] <;> split_ifs <;> rfl

theorem readLogical_eq (schema : Schema) (value : Value F O) :
    readLogical py readers schema value = readOr value (readObject? py readers schema value) := by
  rw [readLogical, readObject?, Schema.kind?]
  cases schema.logicalType? with
  | none => rfl
  | some logicalType => exact logical_eq py readers logicalType value

theorem readLiteral_eq (schema : Schema) (value : Value F O) :
    readLiteral readers schema value =
      (readOctets readers schema value).map fun octets => octets.elim value .bytes := by
  rw [readLiteral]
  cases htype : schema.typeName? with
  | none =>
    cases value with
    | str t => simp [readOctets, Schema.holdsOctets, htype, Except.map]
    | _ => rfl
  | some type =>
    cases value with
    | str t =>
      simp only [bytesLiteral, readOctets, Schema.holdsOctets, htype, Option.some.injEq, decide_eq_true_eq]
      split_ifs <;> rfl
    | _ => rfl

theorem readLiteral_readLogical (schema : Schema) (value : Value F O) :
    readLiteral readers schema (readLogical py readers schema value) =
      readScalar py readers schema value := by
  rw [readLogical_eq, readScalar]
  cases readObject? py readers schema value with
  | some o =>
    rw [readLiteral_eq]
    rfl
  | none => exact readLiteral_eq readers schema value

variable {py readers} in
theorem convertResolved_scalar {convert : Schema → Value F O → Steps PyException (Value F O)}
    {resolve : Schema → Option Schema} {schema : Schema} {value : Value F O}
    (h : schema.looksInto value = false) :
    convertResolved py readers convert resolve schema value =
      liftM (readScalar py readers schema value) := by
  have hparts : ∀ w : Value F O, schema.looksInto w = false →
      (∀ branches, schema ≠ .union branches) →
      convertParts readers convert schema w = liftM (readLiteral readers schema w) := by
    intro w hw hunion
    cases schema <;> cases w <;> first | rfl | cases hw
  have hunion : ∀ branches, schema ≠ .union branches := by
    rintro branches rfl
    cases h
  have hlogical : schema.looksInto (readLogical py readers schema value) = false := by
    rw [readLogical_eq]
    cases readObject? py readers schema value with
    | none => exact h
    | some o => cases schema <;> first | rfl | exact absurd rfl (hunion _)
  rw [convertResolved_eq py readers hunion, hparts _ hlogical hunion, readLiteral_readLogical]

variable {py readers} in
theorem convertResolved_container {convert : Schema → Value F O → Steps PyException (Value F O)}
    {resolve : Schema → Option Schema} {schema : Schema} {value : Value F O}
    (hunion : ∀ branches, schema ≠ .union branches) (h : schema.looksInto value = true) :
    convertResolved py readers convert resolve schema value =
      convertParts readers convert schema value := by
  have hlogical : readLogical py readers schema value = value := by
    rw [readLogical_eq]
    cases value with
    | list items => rw [readObject?_list]; rfl
    | dict items => rw [readObject?_dict]; rfl
    | _ => cases schema <;> first | exact absurd rfl (hunion _) | cases h
  rw [convertResolved_eq py readers hunion, hlogical]

/-- Whether a branch of a union takes a JSON value: it reads the value as something else, or its type
check passes the value. -/
def admits (schema : Schema) (value : Value F O) : Bool :=
  (readObject? py readers schema value).isSome ||
    (match readOctets readers schema value with
      | .ok (some _) => true
      | _ => false) ||
    fits schema value

theorem fits_object {schema : Schema} (h : schema.kind?.isSome) (object : O) :
    fits (F := F) schema (.other object) = true := by
  cases hlogical : schema.logicalType? with
  | none => simp [Schema.kind?, hlogical] at h
  | some logicalType => simp [fits, hlogical]

theorem fits_octets {schema : Schema} (h : schema.holdsOctets) (data : Bytes) :
    fits (F := F) (O := O) schema (.bytes data) = true := by
  have hchecks : checks (F := F) (O := O) schema (.bytes data) = true := by
    cases schema with
    | record l isError fields => cases isError <;> simp [Schema.holdsOctets, Schema.typeName?, text_inj] at h
    | name t => simpa [checks, Schema.typeName?, typeCheck, Schema.holdsOctets] using h
    | plain l t => simpa [checks, Schema.typeName?, typeCheck, Schema.holdsOctets] using h
    | _ => simp [Schema.holdsOctets, Schema.typeName?, text_inj] at h
  unfold fits
  cases schema.logicalType? <;> exact hchecks

theorem fits_list (schema : Schema) (items : List (Value F O)) :
    fits schema (.list items) = checks schema (.list items) := by
  unfold fits
  cases schema.logicalType? <;> rfl

theorem fits_dict (schema : Schema) (items : List (Text × Value F O)) :
    fits schema (.dict items) = checks schema (.dict items) := by
  unfold fits
  cases schema.logicalType? <;> rfl

theorem fits_union (branches : List Schema) (value : Value F O) :
    fits (.union branches) value = false := by
  cases value <;> rfl

@[simp] theorem admits_list (schema : Schema) (items : List (Value F O)) :
    admits py readers schema (.list items) = checks schema (.list items) := by
  rw [admits, readObject?_list, fits_list]
  rfl

@[simp] theorem admits_dict (schema : Schema) (items : List (Text × Value F O)) :
    admits py readers schema (.dict items) = checks schema (.dict items) := by
  rw [admits, readObject?_dict, fits_dict]
  rfl

@[simp] theorem admits_union (branches : List Schema) (value : Value F O) :
    admits py readers (.union branches) value = false := by
  have hobject : readObject? py readers (.union branches) value = none := rfl
  have hoctets : readOctets readers (.union branches) value = .ok none := by
    cases value with
    | str t => simp [readOctets, Schema.holdsOctets, Schema.typeName?, text_inj]
    | _ => rfl
  rw [admits, hobject, hoctets, fits_union]
  rfl

theorem fits_readScalar {schema : Schema} {value y : Value F O}
    (h : readScalar py readers schema value = .ok y) : fits schema y = admits py readers schema value := by
  rw [readScalar] at h
  rw [admits]
  cases hobject : readObject? py readers schema value with
  | some o =>
    rw [hobject] at h
    obtain rfl := Except.ok.inj h
    obtain ⟨kind, hkind, -⟩ := Option.bind_eq_some_iff.mp hobject
    exact fits_object (by rw [hkind]; rfl) o
  | none =>
    rw [hobject] at h
    cases hoctets : readOctets readers schema value with
    | error e => simp [hoctets, Except.map] at h
    | ok octets =>
      rw [hoctets] at h
      obtain rfl := Except.ok.inj h
      cases octets with
      | none => rfl
      | some data =>
        have hholds : schema.holdsOctets := by
          cases value with
          | str t =>
            rw [readOctets] at hoctets
            split_ifs at hoctets with hread
            · exact hread.1
            · cases hoctets
          | _ => cases hoctets
        exact fits_octets hholds data

theorem convertField_key {convert : Schema → Value F O → Steps PyException (Value F O)}
    {fields : List (Text × Bool × Schema)} {kv kv' : Text × Value F O}
    (h : (convertField convert fields kv).run = some (.ok kv')) : kv'.1 = kv.1 := by
  rw [convertField] at h
  cases htype : fieldType fields kv.1 with
  | none =>
    rw [htype] at h
    exact congrArg Prod.fst (Except.ok.inj (Option.some.inj h)).symm
  | some type =>
    rw [htype] at h
    obtain ⟨y, -, h⟩ := Steps.run_bind_eq_ok.mp h
    obtain rfl := Except.ok.inj (Option.some.inj h)
    rfl

theorem fitsRecord_dict (fields : List (Text × Bool × Schema)) (items : List (Text × Value F O)) :
    fitsRecord fields (.dict items) =
      ((items.map Prod.fst).all (fun key => key ∈ fields.map (·.1)) &&
        fields.all fun field => field.2.1 || decide (field.1 ∈ items.map Prod.fst)) := by
  rw [fitsRecord, List.all_map]
  rfl

theorem forall₂_keys {α : Type} {R : Text × α → Text × α → Prop}
    (hR : ∀ kv kv', R kv kv' → kv'.1 = kv.1) {items items' : List (Text × α)}
    (h : List.Forall₂ R items items') : items'.map Prod.fst = items.map Prod.fst := by
  induction h with
  | nil => rfl
  | cons hkv _ ih => rw [List.map_cons, List.map_cons, hR _ _ hkv, ih]

/-- Whether a branch fits what it converted can be told before the conversion. -/
theorem fits_convertResolved {convert : Schema → Value F O → Steps PyException (Value F O)}
    {resolve : Schema → Option Schema} {schema : Schema} {value y : Value F O}
    (h : (convertResolved py readers convert resolve schema value).run = some (.ok y)) :
    fits schema y = admits py readers schema value := by
  by_cases hunion : ∃ branches, schema = .union branches
  · obtain ⟨branches, rfl⟩ := hunion
    rw [fits_union, admits_union]
  cases hlook : schema.looksInto value with
  | false =>
    rw [convertResolved_scalar hlook, Steps.run_lift] at h
    exact fits_readScalar py readers (Option.some.inj h)
  | true =>
    rw [convertResolved_container (fun branches heq => hunion ⟨branches, heq⟩) hlook] at h
    rcases Schema.looksInto_cases (fun branches heq => hunion ⟨branches, heq⟩) hlook with
      ⟨l, isError, fields, items, rfl, rfl⟩ | ⟨l, itemType, values, rfl, rfl⟩ |
        ⟨l, valueType, items, rfl, rfl⟩
    · obtain ⟨items', hitems, h⟩ := Steps.run_bind_eq_ok.mp h
      obtain rfl := Except.ok.inj (Option.some.inj h)
      rw [fits_dict, admits_dict]
      have hkeys := forall₂_keys (fun kv kv' => convertField_key) (Steps.run_mapM_eq_ok.mp hitems)
      rw [checks, checks, fitsRecord_dict, fitsRecord_dict, hkeys]
    · obtain ⟨values', -, h⟩ := Steps.run_bind_eq_ok.mp h
      obtain rfl := Except.ok.inj (Option.some.inj h)
      rw [fits_list, admits_list]
      rfl
    · obtain ⟨items', -, h⟩ := Steps.run_bind_eq_ok.mp h
      obtain rfl := Except.ok.inj (Option.some.inj h)
      rw [fits_dict, admits_dict]
      rfl

theorem fits_convert {named : List (Text × Schema)} {fuel : ℕ} {schema resolved : Schema}
    {value y : Value F O} (hresolved : Ends (resolveStep named) schema resolved)
    (h : (convert py readers named fuel schema value).run = some (.ok y)) :
    fits resolved y = admits py readers resolved value := by
  cases fuel with
  | zero => cases h
  | succ fuel =>
    obtain ⟨resolved', hrun, hy⟩ := run_convert_succ.mp h
    obtain rfl := hresolved.unique (ends_of_run hrun)
    exact fits_convertResolved py readers hy

end Kaskade.Avro
