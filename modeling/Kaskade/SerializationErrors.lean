import Kaskade.JsonEncoding
import Kaskade.Serializers

/-!
# Which exceptions serializers raise

The composer catches `SerializationError` while the user types. A primitive serializer
raises another exception on exactly the texts whose failure only Python's own exceptions
report: lone surrogates, Base64 outside ASCII, and JSON past the interpreter's limits.
-/

namespace Kaskade

open Python

def RaisesOnlySerializationError {α : Type} (call : Outcome α) : Prop :=
  ∀ e, call = .error e → e.isInstance [.serializationError]

section Calls

variable {α β : Type}

@[simp] theorem raisesOnly_ok (a : α) : RaisesOnlySerializationError (.ok a) := by
  intro e h
  cases h

@[simp] theorem raisesOnly_serializationError (message : Text) :
    RaisesOnlySerializationError (α := α) (.error (serializationError message)) := by
  intro e h
  cases h
  rfl

theorem not_raisesOnly {e : PyException} (h : e.isInstance [.serializationError] = false) :
    ¬ RaisesOnlySerializationError (α := α) (.error e) := by
  intro hraises
  rw [hraises e rfl] at h
  cases h

theorem raisesOnly_bind {call : Outcome α} {f : α → Outcome β}
    (hcall : RaisesOnlySerializationError call) (hf : ∀ a, RaisesOnlySerializationError (f a)) :
    RaisesOnlySerializationError (call >>= f) := by
  cases call with
  | ok a => exact hf a
  | error e => exact fun e' h => hcall e' (by cases h; rfl)

theorem raisesOnly_map {call : Outcome α} {f : α → β}
    (hcall : RaisesOnlySerializationError call) : RaisesOnlySerializationError (call.map f) := by
  cases call with
  | ok a => exact raisesOnly_ok (f a)
  | error e => exact fun e' h => hcall e' (by cases h; rfl)

theorem raisesOnly_mapM {f : α → Outcome β} (hf : ∀ a, RaisesOnlySerializationError (f a))
    (as : List α) : RaisesOnlySerializationError (as.mapM f) := by
  induction as with
  | nil => exact raisesOnly_ok []
  | cons a as ih =>
    rw [List.mapM_cons]
    exact raisesOnly_bind (hf a) fun b => raisesOnly_bind ih fun bs => raisesOnly_ok (b :: bs)

end Calls

variable {F E : Type}

theorem encodeUtf8_raisesOnly (py : Interpreter F E) (t : Text) :
    RaisesOnlySerializationError (py.encodeUtf8 t) ↔ ∀ c ∈ t, isSurrogate c = false := by
  rw [← utf8Encode_isSome, Interpreter.encodeUtf8]
  cases utf8Encode t with
  | some data => simp
  | none => simpa using not_raisesOnly rfl

theorem booleanSerialize_raisesOnly (t : Text) :
    RaisesOnlySerializationError (booleanSerialize t) := by
  rw [booleanSerialize]
  split_ifs
  · exact raisesOnly_ok _
  · exact raisesOnly_ok _
  · exact raisesOnly_serializationError _

theorem integerSerialize_raisesOnly (py : Interpreter F E) (size : ℕ) (label t : Text) :
    RaisesOnlySerializationError (integerSerialize py size label t) := by
  rw [integerSerialize]
  cases parseInt? py.jsonLimits.digits (strip t) with
  | none => exact raisesOnly_serializationError _
  | some value =>
    simp only
    split_ifs
    · exact raisesOnly_ok _
    · exact raisesOnly_serializationError _

theorem hexSerialize_raisesOnly (t : Text) : RaisesOnlySerializationError (hexSerialize t) := by
  rw [hexSerialize]
  cases fromHex t with
  | some data => exact raisesOnly_ok data
  | none => exact raisesOnly_serializationError _

theorem asciiBytes_raisesOnly (t : Text) : RaisesOnlySerializationError (asciiBytes t) := by
  rw [asciiBytes]
  split_ifs
  · exact raisesOnly_ok _
  · exact raisesOnly_serializationError _

theorem escapedSerialize_raisesOnly (t : Text) :
    RaisesOnlySerializationError (escapedSerialize t) := by
  have hparts := raisesOnly_mapM (f := fun pe : Text × UInt8 => (asciiBytes pe.1).map (· ++ [pe.2]))
    (fun pe => raisesOnly_map (asciiBytes_raisesOnly pe.1)) (findEscapes t).1
  exact raisesOnly_bind hparts fun parts =>
    raisesOnly_bind (asciiBytes_raisesOnly _) fun tail => raisesOnly_ok _

theorem bytesOf_raisesOnly (v : Value F E) : RaisesOnlySerializationError (bytesOf v) := by
  cases v with
  | list items =>
    rw [bytesOf]
    cases items.mapM octet? with
    | some data => exact raisesOnly_ok data
    | none => exact raisesOnly_serializationError _
  | _ => exact raisesOnly_serializationError _

variable [PyFloat F]

/-- `json.loads` meets no limit of the interpreter: it reads the text or rejects its syntax. -/
def ReadsWithinLimits (py : Interpreter F E) (t : Text) : Prop :=
  ∀ failure, Python.loads (F := F) (E := E) py.jsonLimits t = .error failure →
    failure ≠ .digitLimit ∧ failure ≠ .nestingLimit

/-- What the text denotes as JSON can be written as UTF-8 within the interpreter's limits. -/
def Writable (py : Interpreter F E) (t : Text) : Prop :=
  ∀ v : Value F E, Python.loads py.jsonLimits t = .ok v →
    v.encodable ∧ v.depth ≤ py.dumpNesting .compact

/-- The texts on which a serializer keeps to `SerializationError`. -/
def KeepsToSerializationError (py : Interpreter F E) : PrimitiveSerializer → Text → Prop
  | .string, t => ∀ c ∈ t, isSurrogate c = false
  | .json, t => ReadsWithinLimits py t ∧ Writable py t
  | .bytes .base64, t => ∀ c ∈ t, isSpace c = false → isAscii c
  | .bytes .byteArray, t => strip t = [] ∨ ReadsWithinLimits py t
  | _, _ => True

theorem compactJson_raisesOnly (py : Interpreter F E) {t : Text} {v : Value F E}
    (h : Python.loads py.jsonLimits t = .ok v) :
    RaisesOnlySerializationError (compactJson py v) ↔
      v.encodable ∧ v.depth ≤ py.dumpNesting .compact := by
  have hread := loads_read h
  have hshown : v.shown py.str = v := Value.shown_eq_self hread.isJson
  have hdumps : py.dumps .compact false v =
      if py.dumpNesting .compact < v.depth then
        .error ⟨.recursionError, py.limitMessage .recursionError⟩
      else .ok (Python.dumps .compact py.str v) := by
    simp [Interpreter.dumps, hread.withinDigits, hread.isJson]
  by_cases hdepth : py.dumpNesting .compact < v.depth
  · have hraise : ¬ RaisesOnlySerializationError (compactJson py v) := by
      rw [compactJson, hdumps, if_pos hdepth]
      exact not_raisesOnly rfl
    exact iff_of_false hraise fun hw => by omega
  · have hcompact : compactJson py v = py.encodeUtf8 (Python.dumps .compact py.str v) := by
      rw [compactJson, hdumps, if_neg hdepth]
      rfl
    rw [hcompact, encodeUtf8_raisesOnly, ← utf8Encode_isSome, utf8Encode_dumps, hshown]
    exact (and_iff_left (by omega)).symm

theorem jsonSerialize_raisesOnly (py : Interpreter F E) (t : Text) :
    RaisesOnlySerializationError (jsonSerialize py none t) ↔
      ReadsWithinLimits py t ∧ Writable py t := by
  cases h : Python.loads (F := F) (E := E) py.jsonLimits t with
  | ok v =>
    have hserialize : jsonSerialize py none t = compactJson py v := by
      rw [jsonSerialize, parseJson, h]
      rfl
    rw [hserialize, compactJson_raisesOnly py h]
    simp [ReadsWithinLimits, Writable, h]
  | error failure =>
    have hwritable : Writable py t := fun v hv => by rw [h] at hv; cases hv
    cases failure with
    | syntaxError message remaining =>
      have hreads : ReadsWithinLimits py t := fun failure hf => by
        rw [h] at hf
        cases hf
        simp
      refine iff_of_true ?_ ⟨hreads, hwritable⟩
      rw [jsonSerialize, parseJson, h]
      exact raisesOnly_serializationError _
    | digitLimit =>
      refine iff_of_false ?_ fun hw => (hw.1 _ h).1 rfl
      rw [jsonSerialize, parseJson, h]
      exact not_raisesOnly rfl
    | nestingLimit =>
      refine iff_of_false ?_ fun hw => (hw.1 _ h).2 rfl
      rw [jsonSerialize, parseJson, h]
      exact not_raisesOnly rfl

theorem base64Serialize_raisesOnly (t : Text) :
    RaisesOnlySerializationError (base64Serialize t) ↔
      ∀ c ∈ t, isSpace c = false → isAscii c := by
  have hascii : (split t).flatten.all isAscii = true ↔ ∀ c ∈ t, isSpace c = false → isAscii c := by
    rw [flatten_split, List.all_eq_true]
    simp [List.mem_filter]
  rw [← hascii, base64Serialize]
  by_cases h : (split t).flatten.all isAscii = true
  · simp only [h, if_true, iff_true]
    cases a2bBase64 (split t).flatten with
    | some data => exact raisesOnly_ok data
    | none => exact raisesOnly_serializationError _
  · refine iff_of_false ?_ h
    rw [if_neg h]
    exact not_raisesOnly rfl

theorem byteArraySerialize_raisesOnly (py : Interpreter F E) (t : Text) :
    RaisesOnlySerializationError (byteArraySerialize py t) ↔
      strip t = [] ∨ ReadsWithinLimits py t := by
  rw [byteArraySerialize]
  by_cases hblank : strip t = []
  · rw [if_pos hblank]
    exact iff_of_true (bytesOf_raisesOnly _) (.inl hblank)
  · rw [if_neg hblank, or_iff_right hblank]
    cases h : Python.loads (F := F) (E := E) py.jsonLimits t with
    | ok v =>
      refine iff_of_true (bytesOf_raisesOnly v) fun failure hf => ?_
      rw [h] at hf
      cases hf
    | error failure =>
      cases failure with
      | syntaxError message remaining =>
        refine iff_of_true (raisesOnly_serializationError _) fun failure hf => ?_
        rw [h] at hf
        cases hf
        simp
      | digitLimit => exact iff_of_false (not_raisesOnly rfl) fun hw => (hw _ h).1 rfl
      | nestingLimit => exact iff_of_false (not_raisesOnly rfl) fun hw => (hw _ h).2 rfl

/-- A primitive serializer returns octets or raises `SerializationError` exactly on the texts
that keep to it. -/
theorem serialize_raisesOnly_iff (py : Interpreter F E) (serializer : PrimitiveSerializer)
    (t : Text) :
    RaisesOnlySerializationError (serializer.serialize py t) ↔
      KeepsToSerializationError py serializer t := by
  cases serializer with
  | string => exact encodeUtf8_raisesOnly py t
  | boolean => exact iff_of_true (booleanSerialize_raisesOnly t) trivial
  | integer => exact iff_of_true (integerSerialize_raisesOnly py 4 _ t) trivial
  | long => exact iff_of_true (integerSerialize_raisesOnly py 8 _ t) trivial
  | json => exact jsonSerialize_raisesOnly py t
  | bytes encoding =>
    cases encoding with
    | base64 => exact base64Serialize_raisesOnly t
    | hex => exact iff_of_true (hexSerialize_raisesOnly t) trivial
    | byteArray => exact byteArraySerialize_raisesOnly py t
    | escaped => exact iff_of_true (escapedSerialize_raisesOnly t) trivial

/-- Base64 text with an accented letter raises a plain `ValueError`. -/
theorem base64_raises_value_error :
    ∃ e, PrimitiveSerializer.serialize .plain (.bytes .base64) (text "caf\u00e9") = .error e ∧
      e.cls = .valueError ∧ e.isInstance [.serializationError] = false :=
  ⟨_, rfl, rfl, rfl⟩

end Kaskade
