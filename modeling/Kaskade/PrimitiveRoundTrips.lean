import Kaskade.IntegerTexts
import Kaskade.OctetEncodings

/-!
# Primitive fields sent back

The formats of one value that a text can be typed for: what the producer writes, the consumer
decodes, shows and copies as texts for which the producer writes the same octets. The same holds
of octets that others wrote, but for Booleans that are not written as zero or one.
-/

namespace Kaskade

open Python

theorem unpackInt_eq (data : Bytes) :
    unpackInt data = if (bigEndian data : ℤ) < 2 ^ (8 * data.length - 1) then (bigEndian data : ℤ)
      else bigEndian data - 2 ^ (8 * data.length) := by
  have hfold : ∀ acc : ℕ, data.foldl (fun (acc : ℤ) b => acc * 256 + b.toNat) acc =
      (data.foldl (fun (acc : ℕ) b => acc * 256 + b.toNat) acc : ℕ) := by
    induction data with
    | nil => exact fun acc => rfl
    | cons b data ih =>
      intro acc
      rw [List.foldl_cons, List.foldl_cons, ← ih]
      push_cast
      rfl
  have hzero := hfold 0
  rw [Nat.cast_zero] at hzero
  rw [unpackInt, hzero]
  rfl

theorem pow_octets (size : ℕ) : (256 : ℕ) ^ size = 2 ^ (8 * size) := by
  rw [pow_mul, show (2 : ℕ) ^ 8 = 256 from rfl]

theorem packInt_eq (size : ℕ) (value : ℤ) :
    packInt size value = bigEndianOctets size (value % 2 ^ (8 * size)).toNat := rfl

theorem packInt_unpackInt (data : Bytes) : packInt data.length (unpackInt data) = data := by
  have hlt : (bigEndian data : ℤ) < 2 ^ (8 * data.length) := by
    have h := bigEndian_lt data
    rw [pow_octets] at h
    exact_mod_cast h
  have hresidue : unpackInt data % 2 ^ (8 * data.length) = bigEndian data := by
    rw [unpackInt_eq]
    split_ifs
    · exact Int.emod_eq_of_lt (Int.natCast_nonneg _) hlt
    · rw [Int.sub_emod_right]
      exact Int.emod_eq_of_lt (Int.natCast_nonneg _) hlt
  rw [packInt_eq, hresidue, Int.toNat_natCast, bigEndianOctets_bigEndian]

theorem unpackInt_packInt {size : ℕ} (hsize : 1 ≤ size) {value : ℤ}
    (hmin : -2 ^ (8 * size - 1) ≤ value) (hmax : value ≤ 2 ^ (8 * size - 1) - 1) :
    unpackInt (packInt size value) = value := by
  have hdouble : (2 : ℤ) ^ (8 * size) = 2 * 2 ^ (8 * size - 1) := by
    rw [← pow_succ', Nat.sub_add_cancel (by omega)]
  have hnonneg : 0 ≤ value % 2 ^ (8 * size) := Int.emod_nonneg _ (pow_ne_zero _ two_ne_zero)
  have hlt : value % 2 ^ (8 * size) < 2 ^ (8 * size) := 
    Int.emod_lt_of_pos _ (pow_pos two_pos _)
  have hnumber : (bigEndian (packInt size value) : ℤ) = value % 2 ^ (8 * size) := by
    rw [packInt_eq, bigEndian_bigEndianOctets, Nat.mod_eq_of_lt, Int.toNat_of_nonneg hnonneg]
    rw [pow_octets, Int.toNat_lt hnonneg]
    exact_mod_cast hlt
  rw [unpackInt_eq, hnumber, packInt_eq, bigEndianOctets_length]
  by_cases hsign : 0 ≤ value
  · have hresidue : value % 2 ^ (8 * size) = value := Int.emod_eq_of_lt hsign (by omega)
    rw [hresidue, if_pos (by omega)]
  · have hresidue : value % 2 ^ (8 * size) = value + 2 ^ (8 * size) := by
      rw [← Int.add_emod_right]
      exact Int.emod_eq_of_lt (by omega) (by omega)
    rw [hresidue, if_neg (by omega)]
    omega

/-- So many octets hold a signed number of as many bits. -/
theorem unpackInt_range {data : Bytes} (hdata : 1 ≤ data.length) :
    -2 ^ (8 * data.length - 1) ≤ unpackInt data ∧
      unpackInt data ≤ 2 ^ (8 * data.length - 1) - 1 := by
  have hdouble : (2 : ℤ) ^ (8 * data.length) = 2 * 2 ^ (8 * data.length - 1) := by
    rw [← pow_succ', Nat.sub_add_cancel (by omega)]
  have hlt : (bigEndian data : ℤ) < 2 ^ (8 * data.length) := by
    have h := bigEndian_lt data
    rw [pow_octets] at h
    exact_mod_cast h
  rw [unpackInt_eq]
  split_ifs
  · omega
  · omega

variable {F E : Type} {py : Interpreter F E}

theorem structDeserializer_eq_ok {size : ℕ} {unpack : Bytes → Value F E} {data : Bytes}
    {topic : Option Text} {field : MessageField} {v : Value F E} :
    structDeserializer size unpack data topic field = .ok v ↔
      data.length = size ∧ unpack data = v := by
  rw [structDeserializer]
  split_ifs with hsize
  · rw [Outcome.tryExcept_ok, Except.ok.injEq, and_iff_right hsize]
  · constructor
    · intro h
      cases h
    · intro h
      exact absurd h.1 hsize

theorem booleanSerialize_eq_ok {t : Text} {data : Bytes} (h : booleanSerialize t = .ok data) :
    data = if (strip t).map lowerChr = text "true" then [1] else [0] := by
  rw [booleanSerialize] at h
  split_ifs at h with htrue hfalse
  · rw [if_pos htrue]
    exact (Except.ok.inj h).symm
  · rw [if_neg htrue]
    exact (Except.ok.inj h).symm

theorem integerSerialize_eq_ok {size : ℕ} {label t : Text} {data : Bytes} :
    integerSerialize py size label t = .ok data ↔
      ∃ number, parseInt? py.jsonLimits.digits (strip t) = some number ∧
        -2 ^ (8 * size - 1) ≤ number ∧ number ≤ 2 ^ (8 * size - 1) - 1 ∧
        data = packInt size number := by
  rw [integerSerialize]
  cases hparse : parseInt? py.jsonLimits.digits (strip t) with
  | none =>
    constructor
    · intro h
      cases h
    · rintro ⟨number, hnumber, -⟩
      cases hnumber
  | some number =>
    dsimp only
    split_ifs with hrange
    · rw [Except.ok.injEq]
      constructor
      · rintro rfl
        exact ⟨number, rfl, hrange.1, hrange.2, rfl⟩
      · rintro ⟨read, hread, -, -, rfl⟩
        rw [Option.some.inj hread]
    · constructor
      · intro h
        cases h
      · rintro ⟨read, hread, hmin, hmax, -⟩
        rw [← Option.some.inj hread] at hmin hmax
        exact absurd ⟨hmin, hmax⟩ hrange

theorem packInt_length (size : ℕ) (number : ℤ) : (packInt size number).length = size := by
  rw [packInt_eq, bigEndianOctets_length]

/-- The formats of one value that both programs have and that a text can be typed for. -/
inductive PrimitiveFormat where
  | string
  | boolean
  | integer
  | long

namespace PrimitiveFormat

def serializer : PrimitiveFormat → PrimitiveSerializer
  | .string => .string
  | .boolean => .boolean
  | .integer => .integer
  | .long => .long

def deserialization : PrimitiveFormat → Deserialization
  | .string => .string
  | .boolean => .boolean
  | .integer => .integer
  | .long => .long

variable [PyFloat F] (py)

def deserializer : PrimitiveFormat → Deserialize F E
  | .string => stringDeserializer py
  | .boolean => booleanDeserializer
  | .integer => integerDeserializer
  | .long => longDeserializer

def Denotes (t : Text) : PrimitiveFormat → Value F E → Prop
  | .string, v => v = .str t
  | .boolean, v => v = .bool ((strip t).map lowerChr = text "true")
  | .integer, v => ∃ number, parseInt? py.jsonLimits.digits (strip t) = some number ∧ v = .int number
  | .long, v => ∃ number, parseInt? py.jsonLimits.digits (strip t) = some number ∧ v = .int number

/-- Of the octets that decode, those that the serializer writes: a Boolean may be decoded from any
octet, but is written as zero or one. -/
def Writes (data : Bytes) : PrimitiveFormat → Prop
  | .boolean => data = [0] ∨ data = [1]
  | _ => True

variable {py}

theorem get_deserialization (format : PrimitiveFormat) {pool : DeserializerPool F E}
    {d : Deserializer F E} (hd : pool.get py format.deserialization = .ok d) :
    d = withoutMetadata (format.deserializer py) := by
  cases format with
  | _ => exact (Except.ok.inj hd).symm

/-- What the serializer writes for a text is decoded to what the text was typed for. -/
theorem deserializer_serialize {format : PrimitiveFormat} {t : Text} {data : Bytes}
    (h : format.serializer.serialize py t = .ok data) (topic : Option Text) (field : MessageField) :
    ∃ v, format.deserializer py data topic field = .ok v ∧ format.Denotes py t v ∧
      format.Writes data := by
  cases format with
  | string =>
    have hencode : utf8Encode t = some data := by
      change py.encodeUtf8 t = .ok data at h
      rw [Interpreter.encodeUtf8] at h
      cases ht : utf8Encode t with
      | none =>
        rw [ht] at h
        cases h
      | some written =>
        rw [ht] at h
        rw [Except.ok.inj h]
    refine ⟨.str t, ?_, rfl, trivial⟩
    rw [deserializer, stringDeserializer, Interpreter.decodeUtf8, utf8Decode_utf8Encode false hencode]
    rfl
  | boolean =>
    have hdata := booleanSerialize_eq_ok h
    refine ⟨.bool (data ≠ [0]), ?_, ?_, ?_⟩
    · rw [deserializer, booleanDeserializer, structDeserializer_eq_ok, and_iff_left rfl, hdata]
      split_ifs
      · rfl
      · rfl
    · rw [Denotes, hdata]
      split_ifs with htrue
      · simp [htrue]
      · simp [htrue]
    · rw [Writes, hdata]
      split_ifs
      · exact .inr rfl
      · exact .inl rfl
  | integer =>
    obtain ⟨number, hparse, hmin, hmax, rfl⟩ := integerSerialize_eq_ok.mp h
    refine ⟨.int number, ?_, ⟨number, hparse, rfl⟩, trivial⟩
    rw [deserializer, integerDeserializer, structDeserializer_eq_ok, unpackInt_packInt (by omega) hmin hmax]
    exact ⟨packInt_length 4 number, rfl⟩
  | long =>
    obtain ⟨number, hparse, hmin, hmax, rfl⟩ := integerSerialize_eq_ok.mp h
    refine ⟨.int number, ?_, ⟨number, hparse, rfl⟩, trivial⟩
    rw [deserializer, longDeserializer, structDeserializer_eq_ok, unpackInt_packInt (by omega) hmin hmax]
    exact ⟨packInt_length 8 number, rfl⟩

/-- `str` and `json.dumps` print an integer of up to 640 digits alike. -/
structure PrintsIntegers (py : Interpreter F E) : Prop extends py.FollowsSpecifications where
  str_int : ∀ number : ℤ, (natText number.natAbs).length ≤ 640 → py.str (.int number) = intText number

theorem natText_unpackInt {data : Bytes} (hdata : 1 ≤ data.length) (hsize : data.length ≤ 8) :
    (natText (unpackInt data).natAbs).length ≤ 640 := by
  have hrange := unpackInt_range hdata
  have hpow : (2 : ℤ) ^ (8 * data.length - 1) ≤ 2 ^ 63 :=
    pow_le_pow_right₀ (by decide) (by omega)
  have hlength : (Nat.toDigits 10 (unpackInt data).natAbs).length ≤ 20 :=
    (Nat.length_toDigits_le_iff (by decide) (by decide)).mpr (by omega)
  rw [natText, List.length_map]
  omega

/-- An unpacked number is shown and copied as its digits, from which the serializer writes the
octets again. -/
theorem PrintsIntegers.shows {data : Bytes} (h : PrintsIntegers py) (hdata : 1 ≤ data.length)
    (hsize : data.length ≤ 8) (label : Text) (encoding : BytesEncoding) :
    contentStr (strText py.str) (.int (unpackInt data)) encoding = intText (unpackInt data) ∧
      readableContent py (.int (unpackInt data)) = .ok (intText (unpackInt data)) ∧
      integerSerialize py data.length label (intText (unpackInt data)) = .ok data := by
  have hdigits := natText_unpackInt hdata hsize
  have hrange := unpackInt_range hdata
  refine ⟨h.str_int _ hdigits, ?_,
    integerSerialize_eq_ok.mpr ⟨_, ?_, hrange.1, hrange.2, (packInt_unpackInt data).symm⟩⟩
  · have hwithin : (Value.int (unpackInt data) : Value F E).withinDigits py.jsonLimits.digits :=
      decide_eq_true (hdigits.trans h.digits)
    have hdepth : ¬ py.dumpNesting .readable < (Value.int (unpackInt data) : Value F E).depth :=
      Nat.not_lt_zero _
    change readableJson py (.int (unpackInt data)) = .ok (intText (unpackInt data))
    rw [readableJson, Interpreter.dumps, if_neg hdepth, if_neg (by rw [hwithin]; decide)]
    rfl
  · rw [strip_intText, parseInt?_intText, if_neg (Nat.not_lt.mpr (hdigits.trans h.digits))]

/-- A decoded field is shown as the text that is copied for it. The serializer accepts this text
and writes the octets of the field, if they are ones that it writes. -/
theorem deserializer_shows {format : PrimitiveFormat} (h : PrintsIntegers py) {data : Bytes}
    {topic : Option Text} {field : MessageField} {v : Value F E}
    (hv : format.deserializer py data topic field = .ok v) (encoding : BytesEncoding) :
    readableContent py (jsonContent v encoding) = .ok (contentStr (strText py.str) v encoding) ∧
      (format.serializer.serialize py (contentStr (strText py.str) v encoding) = .ok data ↔
        format.Writes data) := by
  cases format with
  | string =>
    rw [deserializer, stringDeserializer, Interpreter.decodeUtf8] at hv
    cases hdecode : utf8Decode false data with
    | none =>
      rw [hdecode] at hv
      cases hv
    | some t =>
      rw [hdecode] at hv
      obtain rfl := Except.ok.inj hv
      refine ⟨rfl, iff_of_true ?_ trivial⟩
      change py.encodeUtf8 t = .ok data
      rw [Interpreter.encodeUtf8, utf8Encode_utf8Decode hdecode]
  | boolean =>
    rw [deserializer, booleanDeserializer, structDeserializer_eq_ok] at hv
    obtain ⟨hsize, rfl⟩ := hv
    by_cases hzero : data = [0]
    · subst hzero
      exact ⟨rfl, iff_of_true rfl (.inl rfl)⟩
    · have hcontent : (.bool (data ≠ [0]) : Value F E) = .bool true := by
        rw [decide_eq_true hzero]
      rw [hcontent]
      refine ⟨rfl, ?_⟩
      have hwritten : booleanSerialize (text "true") = .ok [1] := rfl
      constructor
      · intro hdata
        exact .inr (Except.ok.inj (hdata.symm.trans hwritten))
      · intro hdata
        rw [hdata.resolve_left hzero]
        exact hwritten
  | integer =>
    rw [deserializer, integerDeserializer, structDeserializer_eq_ok] at hv
    obtain ⟨hsize, rfl⟩ := hv
    have hlower : 1 ≤ data.length := by omega
    obtain ⟨hshown, hcopied, hwritten⟩ :=
      h.shows hlower (by omega) (text "a 32-bit integer") encoding
    rw [hshown]
    rw [hsize] at hwritten
    exact ⟨hcopied, iff_of_true hwritten trivial⟩
  | long =>
    rw [deserializer, longDeserializer, structDeserializer_eq_ok] at hv
    obtain ⟨hsize, rfl⟩ := hv
    have hlower : 1 ≤ data.length := by omega
    obtain ⟨hshown, hcopied, hwritten⟩ :=
      h.shows hlower (by omega) (text "a 64-bit integer") encoding
    rw [hshown]
    rw [hsize] at hwritten
    exact ⟨hcopied, iff_of_true hwritten trivial⟩

variable {format : PrimitiveFormat} {pool : DeserializerPool F E} {d : Deserializer F E} {data : Bytes}
  {topic : Text} {field : MessageField} {bytesEncoding fallbackBytesEncoding : BytesEncoding}

/-- A field whose octets decode shows the content that was decoded. -/
theorem deserializeField_ok (hd : pool.get py format.deserialization = .ok d) {v : Value F E}
    (hv : format.deserializer py data (some topic) field = .ok v) :
    deserializeField (some data) format.deserialization (some d) topic field bytesEncoding
        fallbackBytesEncoding =
      .ok { requested := format.deserialization, content := v, bytesEncoding := bytesEncoding } := by
  rw [get_deserialization format hd, deserializeField]
  simp only [withoutMetadata, hv, Except.map, Outcome.tryExcept_ok]

/-- A field that did not fall back to octets was decoded. -/
theorem deserializer_of_field (hd : pool.get py format.deserialization = .ok d)
    {o : DeserializationOutcome F E}
    (ho : deserializeField (some data) format.deserialization (some d) topic field bytesEncoding
      fallbackBytesEncoding = .ok o)
    (hdecoded : o.usedFallback = false) :
    format.deserializer py data (some topic) field = .ok o.content ∧
      o.bytesEncoding = bytesEncoding := by
  cases hv : format.deserializer py data (some topic) field with
  | ok v =>
    rw [deserializeField_ok hd hv] at ho
    rw [← Except.ok.inj ho]
    exact ⟨rfl, rfl⟩
  | error e =>
    rw [get_deserialization format hd, deserializeField] at ho
    simp only [withoutMetadata, hv, Except.map, Outcome.tryExcept] at ho
    split_ifs at ho
    rw [← Except.ok.inj ho] at hdecoded
    cases hdecoded

/-- What the producer accepts for a field, the consumer decodes to the value that was typed, and
the text it shows and copies for the field is accepted again, for the same octets. -/
theorem sent_field_comes_back (h : PrintsIntegers py)
    (hd : pool.get py format.deserialization = .ok d) {t : Text}
    (hsent : format.serializer.serialize py t = .ok data) (topic : Text) (field : MessageField)
    (bytesEncoding fallbackBytesEncoding : BytesEncoding) :
    ∃ o, deserializeField (some data) format.deserialization (some d) topic field bytesEncoding
        fallbackBytesEncoding = .ok o ∧
      o.usedFallback = false ∧ format.Denotes py t o.content ∧
      copiedText py (some data) (jsonContent o.content o.bytesEncoding) =
        .ok (some (o.str (strText py.str))) ∧
      format.serializer.serialize py (o.str (strText py.str)) = .ok data := by
  obtain ⟨v, hv, hdenotes, hwrites⟩ := deserializer_serialize hsent (some topic) field
  obtain ⟨hcopied, hwritten⟩ := deserializer_shows h hv bytesEncoding
  refine ⟨_, deserializeField_ok hd hv, rfl, hdenotes, ?_, hwritten.mpr hwrites⟩
  rw [copiedText, hcopied]
  rfl

theorem printsIntegers_plain : PrintsIntegers Interpreter.plain where
  digits := by decide
  nesting := by decide
  dumpNesting := by decide
  str_int _ _ := rfl

def plainPool : DeserializerPool FloatRepr Empty where
  registryDeserializer := none
  protobufDeserializer := none
  avroDeserializer := none
  jsonDeserializer := jsonDeserializer .plain (fun _ => none) (fun _ => none)

theorem minus_seven_comes_back :
    ∃ o, deserializeField (some [0xff, 0xff, 0xff, 0xf9]) .integer
        (some (withoutMetadata (integerDeserializer : Deserialize FloatRepr Empty))) (text "orders")
        .value .base64 .hex = .ok o ∧
      o.usedFallback = false ∧
      (∃ number, parseInt? 4300 (strip (text " -7 ")) = some number ∧ o.content = .int number) ∧
      copiedText .plain (some [0xff, 0xff, 0xff, 0xf9]) (jsonContent o.content o.bytesEncoding) =
        .ok (some (o.str (strText Interpreter.plain.str))) ∧
      integerSerialize Interpreter.plain 4 (text "a 32-bit integer") (o.str (strText Interpreter.plain.str)) =
        .ok [0xff, 0xff, 0xff, 0xf9] := by
  have hd : plainPool.get .plain PrimitiveFormat.integer.deserialization =
      .ok (withoutMetadata integerDeserializer) := rfl
  have hsent : PrimitiveFormat.integer.serializer.serialize Interpreter.plain (text " -7 ") =
      .ok [0xff, 0xff, 0xff, 0xf9] := by decide
  exact sent_field_comes_back printsIntegers_plain hd hsent (text "orders") .value .base64 .hex

/-- Whoever wrote the octets of a decoded field: the text that the consumer shows and copies for
it makes the producer write them again, but for Booleans other than zero and one. -/
theorem shown_field_sends_back (h : PrintsIntegers py)
    (hd : pool.get py format.deserialization = .ok d) {o : DeserializationOutcome F E}
    (ho : deserializeField (some data) format.deserialization (some d) topic field bytesEncoding
      fallbackBytesEncoding = .ok o)
    (hdecoded : o.usedFallback = false) :
    copiedText py (some data) (jsonContent o.content o.bytesEncoding) =
        .ok (some (o.str (strText py.str))) ∧
      (format.serializer.serialize py (o.str (strText py.str)) = .ok data ↔ format.Writes data) := by
  obtain ⟨hv, hencoding⟩ := deserializer_of_field hd ho hdecoded
  obtain ⟨hcopied, hwritten⟩ := deserializer_shows h hv o.bytesEncoding
  refine ⟨?_, hwritten⟩
  rw [copiedText, hcopied]
  rfl

/-- The octet 2 is shown as `true`, for which the producer writes another octet. -/
theorem octet_two_not_sent_back :
    copiedText Interpreter.plain (some [2]) (.bool true) = .ok (some (text "true")) ∧
      (booleanSerialize (text "true") = .ok [2] ↔ ([2] : Bytes) = [0] ∨ ([2] : Bytes) = [1]) := by
  have hd : plainPool.get .plain PrimitiveFormat.boolean.deserialization =
      .ok (withoutMetadata booleanDeserializer) := rfl
  have ho : deserializeField (some [2]) PrimitiveFormat.boolean.deserialization
      (some (withoutMetadata (booleanDeserializer : Deserialize FloatRepr Empty))) (text "orders")
      .value .base64 .hex = .ok { requested := .boolean, content := .bool true } := rfl
  exact shown_field_sends_back printsIntegers_plain hd ho rfl

end PrimitiveFormat

end Kaskade
