import Kaskade.AvroPassing
import Kaskade.JsonNesting

/-!
# Copying Avro content

The consumer shows an Avro datum as JSON, and the conversion reads the JSON back under the
schema. It finds the datum again exactly when each part meets a type that keeps it, where the first
admitting branch of every union is taken and the branches before it let the JSON pass.
-/

namespace Kaskade.Avro

open Python Repeated

variable {F O : Type}

/-- The readers undo `str` on objects and octets, and give objects of their own class. -/
structure TextReaders.Inverts (readers : TextReaders O) (py : Interpreter F O) : Prop where
  read_str : ∀ o, readers.read (readers.kind o) (py.str (.other o)) = some o
  read_kind : ∀ kind t o, readers.read kind t = some o → readers.kind o = kind
  utcSuffix_str : ∀ o, readers.kind o = .datetime →
    utcSuffix (py.str (.other o)) = py.str (.other o)
  literal_str : ∀ data, readers.literal (py.str (.bytes data)) = .ok (some data)
  str_bytes : ∀ data, text "b'" <+: py.str (.bytes data) ∨ text "b\"" <+: py.str (.bytes data)

section Scalars

variable (py : Interpreter F O) (readers : TextReaders O)

/-- What a type that does not look inside a value gives back as it was: octets at a type of
octets, an object at a logical type of its class, and JSON at a type that does not read it as
something else. -/
def Keeps (schema : Schema) : Value F O → Prop
  | .bytes data =>
    schema.holdsOctets ∧ readObject? py readers schema (.str (py.str (.bytes data))) = none
  | .other o => schema.kind? = some (readers.kind o)
  | x => x.isJson ∧ readObject? py readers schema x = none ∧ readOctets readers schema x = .ok none

variable {py readers}

theorem read_str (h : readers.Inverts py) (o : O) :
    (readers.kind o).read? py readers (.str (py.str (.other o))) = some o := by
  have hread := h.read_str o
  cases hkind : readers.kind o with
  | datetime =>
    rw [hkind] at hread
    rw [ObjectKind.read?, h.utcSuffix_str o hkind, hread]
  | _ =>
    rw [hkind] at hread
    exact hread

theorem kind_of_read? (h : readers.Inverts py) {kind : ObjectKind} {v : Value F O} {o : O}
    (hread : kind.read? py readers v = some o) : readers.kind o = kind := by
  cases kind <;> cases v <;> first | cases hread | exact h.read_kind _ _ _ hread

theorem readObject?_str (h : readers.Inverts py) {schema : Schema} {o : O} :
    readObject? py readers schema (.str (py.str (.other o))) = some o ↔
      schema.kind? = some (readers.kind o) := by
  constructor
  · intro hread
    obtain ⟨kind, hkind, ho⟩ := Option.bind_eq_some_iff.mp hread
    rw [hkind, kind_of_read? h ho]
  · intro hkind
    rw [readObject?, hkind, Option.bind_some, read_str h o]

theorem readOctets_str_bytes (h : readers.Inverts py) (schema : Schema) (data : Bytes) :
    readOctets readers schema (.str (py.str (.bytes data)) : Value F O) =
      .ok (if schema.holdsOctets then some data else none) := by
  rw [readOctets, h.literal_str data]
  cases schema.holdsOctets with
  | true =>
    rw [if_pos ⟨rfl, h.str_bytes data⟩]
    rfl
  | false =>
    rw [if_neg fun hread => Bool.false_ne_true hread.1]
    rfl

private theorem readScalar_json {schema : Schema} {x : Value F O}
    (hobject : readObject? py readers schema (x.shown py.str) = readObject? py readers schema x)
    (hoctets : readOctets readers schema (x.shown py.str) = readOctets readers schema x)
    (hother : ∀ o, x ≠ .other o) (hbytes : ∀ data, x ≠ .bytes data) :
    readScalar py readers schema (x.shown py.str) = .ok x ↔
      x.isJson ∧ readObject? py readers schema x = none ∧ readOctets readers schema x = .ok none := by
  rw [readScalar, hobject, hoctets]
  cases readObject? py readers schema x with
  | some o => simpa using fun h => hother o h.symm
  | none =>
    cases readOctets readers schema x with
    | error e => simp [Except.map]
    | ok octets =>
      cases octets with
      | some data => simpa [Except.map] using fun h => hbytes data h.symm
      | none => simpa [Except.map] using Value.shown_eq_self_iff

/-- A type keeps exactly what its conversion gives back. -/
theorem readScalar_shown_iff (h : readers.Inverts py) (schema : Schema) (x : Value F O) :
    readScalar py readers schema (x.shown py.str) = .ok x ↔ Keeps py readers schema x := by
  cases x with
  | bytes data =>
    change readScalar py readers schema (.str (py.str (.bytes data))) = _ ↔ _
    rw [readScalar, Keeps, readOctets_str_bytes h]
    cases readObject? py readers schema (.str (py.str (.bytes data))) with
    | some o => simp
    | none => cases schema.holdsOctets <;> simp [Except.map]
  | other o =>
    change readScalar py readers schema (.str (py.str (.other o))) = _ ↔ _
    rw [readScalar, Keeps, ← readObject?_str h]
    cases readObject? py readers schema (.str (py.str (.other o))) with
    | some o' => simp
    | none =>
      cases readOctets readers schema (.str (py.str (.other o)) : Value F O) with
      | error e => simp [Except.map]
      | ok octets => cases octets <;> simp [Except.map]
  | list items => exact readScalar_json (by simp [Value.shown]) rfl (by simp) (by simp)
  | dict items => exact readScalar_json (by simp [Value.shown]) rfl (by simp) (by simp)
  | _ => exact readScalar_json rfl rfl (by simp) (by simp)

end Scalars

section Containers

variable {py : Interpreter F O} {readers : TextReaders O}
  {convert : Schema → Value F O → Steps PyException (Value F O)} {resolve : Schema → Option Schema}

theorem looksInto_shown (schema : Schema) (x : Value F O) :
    schema.looksInto (x.shown py.str) = schema.looksInto x := by
  cases schema <;> cases x <;> rfl

/-- A field comes back if its type gives it back, or if it is JSON and has none. -/
theorem convertField_shown_iff {fields : List (Text × Bool × Schema)} {kv : Text × Value F O} :
    (convertField convert fields (kv.1, kv.2.shown py.str)).run = some (.ok kv) ↔
      (∀ type, fieldType fields kv.1 = some type →
        (convert type (kv.2.shown py.str)).run = some (.ok kv.2)) ∧
      (fieldType fields kv.1 = none → kv.2.isJson) := by
  obtain ⟨key, x⟩ := kv
  rw [convertField]
  cases htype : fieldType fields key with
  | none => simp [Value.shown_eq_self_iff]
  | some type =>
    have hitem := Steps.run_bind_pure_eq_ok (x := convert type (x.shown py.str))
      (Prod.mk_right_injective key) (a := x)
    simpa using hitem

theorem convertResolved_record_shown {l : Option Text} {isError : Bool}
    {fields : List (Text × Bool × Schema)} {items : List (Text × Value F O)} :
    (convertResolved py readers convert resolve (.record l isError fields)
        ((Value.dict items).shown py.str)).run = some (.ok (.dict items)) ↔
      ∀ kv ∈ items, (convertField convert fields (kv.1, kv.2.shown py.str)).run = some (.ok kv) := by
  rw [convertResolved_container (fun _ => Schema.noConfusion) rfl, ← Steps.run_mapM_map_self,
    Value.shown, Value.shownItems_eq]
  exact Steps.run_bind_pure_eq_ok fun _ _ => Value.dict.inj

theorem convertResolved_array_shown {l : Option Text} {itemType : Schema} {values : List (Value F O)} :
    (convertResolved py readers convert resolve (.array l itemType)
        ((Value.list values).shown py.str)).run = some (.ok (.list values)) ↔
      ∀ x ∈ values, (convert itemType (x.shown py.str)).run = some (.ok x) := by
  rw [convertResolved_container (fun _ => Schema.noConfusion) rfl, ← Steps.run_mapM_map_self,
    Value.shown, Value.shownList_eq]
  exact Steps.run_bind_pure_eq_ok fun _ _ => Value.list.inj

theorem convertResolved_map_shown {l : Option Text} {valueType : Schema}
    {items : List (Text × Value F O)} :
    (convertResolved py readers convert resolve (.map l valueType)
        ((Value.dict items).shown py.str)).run = some (.ok (.dict items)) ↔
      ∀ kv ∈ items, (convert valueType (kv.2.shown py.str)).run = some (.ok kv.2) := by
  have hitem : ∀ kv : Text × Value F O,
      (do return (kv.1, ← convert valueType (kv.2.shown py.str)) :
          Steps PyException (Text × Value F O)).run = some (.ok kv) ↔
        (convert valueType (kv.2.shown py.str)).run = some (.ok kv.2) :=
    fun kv => Steps.run_bind_pure_eq_ok (Prod.mk_right_injective kv.1)
  rw [convertResolved_container (fun _ => Schema.noConfusion) rfl, Value.shown, Value.shownItems_eq]
  refine (Steps.run_bind_pure_eq_ok fun _ _ => Value.dict.inj).trans ?_
  refine Steps.run_mapM_map_self.trans ?_
  exact forall₂_congr fun kv _ => hitem kv

end Containers

section Restoring

variable (py : Interpreter F O) (readers : TextReaders O) (named : List (Text × Schema))

/-- The datum is found again where its JSON is read under the schema. The walk through the schema
comes to an end, the first branch of a union that accepts what is shown is taken, and each part of
the datum meets a type that keeps it; the branches before have to let the JSON pass. -/
inductive Restored : Schema → Value F O → Prop
  | scalar {s r x} : Ends (resolveStep named) s r → r.looksInto x = false →
      Keeps py readers r x → Restored s x
  | record {s l isError fields items} : Ends (resolveStep named) s (.record l isError fields) →
      (∀ kv ∈ items, ∀ type, fieldType fields kv.1 = some type → Restored type kv.2) →
      (∀ kv ∈ items, fieldType fields kv.1 = none → kv.2.isJson) → Restored s (.dict items)
  | array {s l itemType values} : Ends (resolveStep named) s (.array l itemType) →
      (∀ x ∈ values, Restored itemType x) → Restored s (.list values)
  | map {s l valueType items} : Ends (resolveStep named) s (.map l valueType) →
      (∀ kv ∈ items, Restored valueType kv.2) → Restored s (.dict items)
  | branch {s before b after x} : Ends (resolveStep named) s (.union (before ++ b :: after)) →
      (∀ b' ∈ before, Passes py readers named b' (x.shown py.str)) →
      (∀ b' ∈ before, Declines py readers named b' (x.shown py.str)) →
      Accepts py readers named b (x.shown py.str) → Restored b x → Restored s x
  | noBranch {s branches x} : Ends (resolveStep named) s (.union branches) →
      (∀ b ∈ branches, Passes py readers named b (x.shown py.str)) →
      (∀ b ∈ branches, Declines py readers named b (x.shown py.str)) → x.isJson → Restored s x

variable {py readers named} {s : Schema} {x : Value F O}

theorem Restored.eventually (h : readers.Inverts py) (hx : Restored py readers named s x) :
    ∀ᶠ fuel in Filter.atTop,
      (convert py readers named fuel s (x.shown py.str)).run = some (.ok x) := by
  induction hx with
  | @scalar s r x hends hlook hkeeps =>
    refine eventually_convert (P := fun result => result = some (.ok x)) hends ?_
    refine Filter.Eventually.of_forall fun fuel => ?_
    rw [convertResolved_scalar ((looksInto_shown r x).trans hlook), Steps.run_lift,
      (readScalar_shown_iff h r x).mpr hkeeps]
  | @record s l isError fields items hends _ hothers ih =>
    refine eventually_convert (P := fun result => result = some (.ok (.dict items))) hends ?_
    have hfields : ∀ kv ∈ items, ∀ᶠ fuel in Filter.atTop,
        (convertField (convert py readers named fuel) fields (kv.1, kv.2.shown py.str)).run =
          some (.ok kv) := by
      intro kv hkv
      cases htype : fieldType fields kv.1 with
      | none =>
        refine Filter.Eventually.of_forall fun fuel => convertField_shown_iff.mpr ?_
        exact ⟨fun type htype' => by simp [htype] at htype', hothers kv hkv⟩
      | some type =>
        refine (ih kv hkv type htype).mono fun fuel hfuel => convertField_shown_iff.mpr ?_
        exact ⟨fun type' htype' => Option.some.inj (htype.symm.trans htype') ▸ hfuel, hothers kv hkv⟩
    exact (eventually_forall_mem hfields).mono fun fuel => convertResolved_record_shown.mpr
  | @array s l itemType values hends _ ih =>
    refine eventually_convert (P := fun result => result = some (.ok (.list values))) hends ?_
    exact (eventually_forall_mem ih).mono fun fuel => convertResolved_array_shown.mpr
  | @map s l valueType items hends _ ih =>
    refine eventually_convert (P := fun result => result = some (.ok (.dict items))) hends ?_
    exact (eventually_forall_mem ih).mono fun fuel => convertResolved_map_shown.mpr
  | @branch s before b after x hends hpasses hdeclines haccepts _ ih =>
    refine eventually_convert (P := fun result => result = some (.ok x)) hends ?_
    have hpassed := eventually_forall_mem fun b' hb' =>
      eventually_passedOver (hdeclines b' hb') (hpasses b' hb').eventually
    filter_upwards [hpassed, ih, eventually_accepted haccepts] with fuel hpassed hx hfits
    exact convertUnion_eq_ok.mpr (.inr ⟨before, b, after, rfl, hpassed, hx, hfits x hx⟩)
  | @noBranch s branches x hends hpasses hdeclines hjson =>
    refine eventually_convert (P := fun result => result = some (.ok x)) hends ?_
    have hpassed := eventually_forall_mem fun b hb =>
      eventually_passedOver (hdeclines b hb) (hpasses b hb).eventually
    refine hpassed.mono fun fuel hpassed => convertUnion_eq_ok.mpr (.inl ⟨hpassed, ?_⟩)
    exact (Value.shown_eq_self hjson).symm

end Restoring

end Kaskade.Avro
