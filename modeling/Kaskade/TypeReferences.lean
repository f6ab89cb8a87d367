import Kaskade.ProtobufIndexes
import Kaskade.LocalDeserializers
import Kaskade.RecordCopy
import Kaskade.JsonNesting

/-!
# Apicurio type references

An Apicurio frame may name its message in a length-delimited reference before the payload,
and the reader recognizes a reference by its octets alone. The JSON deserializer looks for
one too; compact JSON is never mistaken for one, because the octet after the first one of a
compact document is not the tag of a name.
-/

namespace Kaskade

open Python

def typeRefNameTag : ℕ := 0x0a

def relativeName (descriptor : Descriptor) : Text :=
  if descriptor.filePackage = [] then descriptor.fullName
  else removeLead (descriptor.filePackage ++ text ".") descriptor.fullName

/-- The reference that names a message in so many octets. -/
def typeRef (name : Bytes) : Bytes :=
  let reference := byte typeRefNameTag :: (varint name.length ++ name)
  varint reference.length ++ reference

def apicurioTypeRef (descriptor : Descriptor) : Outcome Bytes :=
  match utf8Encode (relativeName descriptor) with
  | some encoded => .ok (typeRef encoded)
  | none => .error ⟨.unicodeEncodeError, relativeName descriptor⟩

/-- The body of `parse_type_ref`, whose exceptions the function catches. -/
def readTypeRef (payload : Bytes) : Outcome (Option Text × Bytes) := do
  let (messageSize, offset) ← readLabelledVarint payload 0 (text "varint")
  let stop := offset + messageSize
  if messageSize = 0 ∨ payload.length < stop then return (none, payload)
  let ref := (payload.drop offset).take messageSize
  let (tag, position) ← readLabelledVarint ref 0 (text "varint")
  if tag ≠ typeRefNameTag then return (none, payload)
  let (nameSize, position) ← readLabelledVarint ref position (text "varint")
  if ref.length < position + nameSize then return (none, payload)
  match utf8Decode false ((ref.drop position).take nameSize) with
  | some name => return (some name, payload.drop stop)
  | none => .error ⟨.unicodeDecodeError, []⟩

def parseTypeRef (payload : Bytes) : Option Text × Bytes :=
  match readTypeRef payload with
  | .ok parts => parts
  | .error _ => (none, payload)

theorem readLabelledVarint_eq_ok {data : Bytes} {offset : ℕ} {label : Text} {r : ℕ × ℕ} :
    readLabelledVarint data offset label = .ok r ↔ readVarint varintMaxBytes data offset = .ok r := by
  rw [readLabelledVarint]
  cases readVarint varintMaxBytes data offset with
  | ok r' => simp
  | error e => cases e <;> simp

theorem readLabelledVarint_varint {n : ℕ} (h : n < 128 ^ varintMaxBytes) (before after : Bytes)
    (label : Text) :
    readLabelledVarint (before ++ varint n ++ after) before.length label =
      .ok (n, before.length + (varint n).length) :=
  readLabelledVarint_eq_ok.mpr (readVarint_varint (by decide) h before after)

/-- A written reference is read as the name, and leaves the payload. -/
theorem parseTypeRef_typeRef {name : Text} {encoded : Bytes} (hname : utf8Encode name = some encoded)
    (hlength : (typeRef encoded).length < 2 ^ 63) (payload : Bytes) :
    parseTypeRef (typeRef encoded ++ payload) = (some name, payload) := by
  have hwidth : (2 : ℕ) ^ 63 < 128 ^ varintMaxBytes := by decide
  let tail := varint encoded.length ++ encoded
  let reference := byte typeRefNameTag :: tail
  have hreference : typeRef encoded = varint reference.length ++ reference := rfl
  have hlong : reference.length < 2 ^ 63 := by
    rw [hreference, List.length_append] at hlength
    omega
  have hshort : encoded.length < 2 ^ 63 := by
    simp only [reference, tail, List.length_cons, List.length_append] at hlong
    omega
  have hsize : readLabelledVarint (varint reference.length ++ reference ++ payload) 0 (text "varint") =
      .ok (reference.length, (varint reference.length).length) := by
    have h := readLabelledVarint_varint (hlong.trans hwidth) [] (reference ++ payload) (text "varint")
    simpa using h
  have htag : readLabelledVarint reference 0 (text "varint") = .ok (typeRefNameTag, 1) := by
    have h := readLabelledVarint_varint (n := typeRefNameTag) (by decide) [] tail (text "varint")
    rwa [varint_of_lt (by decide)] at h
  have hnameSize : readLabelledVarint reference 1 (text "varint") =
      .ok (encoded.length, 1 + (varint encoded.length).length) := by
    exact readLabelledVarint_varint (hshort.trans hwidth) [byte typeRefNameTag] encoded (text "varint")
  have hread : readTypeRef (varint reference.length ++ reference ++ payload) =
      .ok (some name, payload) := by
    have hempty : reference.length ≠ 0 := by simp [reference]
    have htaken : (((varint reference.length ++ reference ++ payload).drop
        (varint reference.length).length).take reference.length) = reference := by
      simp
    have hrest : (varint reference.length ++ reference ++ payload).drop
        ((varint reference.length).length + reference.length) = payload := by
      rw [← List.length_append, List.drop_left]
    have hencoded : (reference.drop (1 + (varint encoded.length).length)).take encoded.length =
        encoded := by
      simp [reference, tail, Nat.add_comm 1]
    have hlast : reference.length = 1 + (varint encoded.length).length + encoded.length := by
      simp [reference, tail]
      omega
    rw [readTypeRef, hsize]
    simp only [bind, Except.bind]
    rw [if_neg (by simp [hempty]), htaken, htag]
    simp only [ne_eq, not_true_eq_false, if_false]
    rw [hnameSize]
    simp only
    rw [if_neg (by omega), hencoded, utf8Decode_utf8Encode false hname, hrest]
    rfl
  rw [parseTypeRef, hreference, hread]

/-- The lowest seven bits of a number come from its first octet. -/
theorem readVarintFrom_mod {octets shift offset value n stop : ℕ} {data : Bytes} (hshift : 7 ≤ shift)
    (h : readVarintFrom data octets shift offset value = .ok (n, stop)) :
    n % 128 = value % 128 := by
  induction octets generalizing shift offset value with
  | zero => cases h
  | succ octets ih =>
    rw [readVarintFrom] at h
    cases hoctet : data[offset]? with
    | none => simp [hoctet] at h
    | some current =>
      have hlow : (value ||| (current.toNat &&& 0x7f) <<< shift) % 128 = value % 128 := by
        obtain ⟨k, rfl⟩ := Nat.exists_eq_add_of_le hshift
        have hhigh : (current.toNat &&& 0x7f) <<< (7 + k) % 2 ^ 7 = 0 := by
          rw [Nat.shiftLeft_eq, Nat.pow_add, Nat.mul_left_comm]
          exact Nat.mul_mod_right _ _
        rw [show 128 = 2 ^ 7 from rfl, Nat.or_mod_two_pow, hhigh, Nat.or_zero]
      simp only [hoctet] at h
      split_ifs at h with hlast
      · cases h
        exact hlow
      · exact (ih (by omega) h).trans hlow

theorem readVarint_mod {maxBytes offset n stop : ℕ} {data : Bytes} {b : UInt8}
    (hoctet : data[offset]? = some b) (h : readVarint maxBytes data offset = .ok (n, stop)) :
    n % 128 = b.toNat % 128 := by
  rw [readVarint] at h
  cases maxBytes with
  | zero => cases h
  | succ octets =>
    rw [readVarintFrom, hoctet] at h
    simp only [Nat.zero_or, Nat.shiftLeft_zero, and_lowBits] at h
    split_ifs at h
    · cases h
      exact Nat.mod_mod _ _
    · rw [readVarintFrom_mod (by omega) h, Nat.mod_mod]

/-- Nothing is read as a reference where the second octet cannot start the tag of a name. -/
theorem parseTypeRef_none {a : UInt8} {rest : Bytes} (ha : a.toNat < 0x80)
    (h : ∀ b ∈ rest.head?, b.toNat % 128 ≠ typeRefNameTag) :
    parseTypeRef (a :: rest) = (none, a :: rest) := by
  have hsize : readLabelledVarint (a :: rest) 0 (text "varint") = .ok (a.toNat, 1) := by
    refine readLabelledVarint_eq_ok.mpr ?_
    change readVarintFrom (a :: rest) (9 + 1) 0 0 0 = _
    rw [readVarintFrom]
    simp [(and_highBit _ a.toNat_lt).mpr ha, and_lowBits, Nat.mod_eq_of_lt ha]
  suffices hread : ∀ parts, readTypeRef (a :: rest) = .ok parts → parts = (none, a :: rest) by
    rw [parseTypeRef]
    cases hparts : readTypeRef (a :: rest) with
    | error e => rfl
    | ok parts => exact hread parts hparts
  intro parts hparts
  rw [readTypeRef, hsize] at hparts
  simp only [bind, Except.bind] at hparts
  split_ifs at hparts with hshort
  · exact (Except.ok.inj hparts).symm
  · rw [List.drop_one, List.tail_cons] at hparts
    cases htag : readLabelledVarint (rest.take a.toNat) 0 (text "varint") with
    | error e => simp [htag] at hparts
    | ok r =>
      rw [not_or] at hshort
      obtain ⟨b, rest', rfl⟩ : ∃ b rest', rest = b :: rest' := by
        cases rest with
        | nil => simp at hshort
        | cons b rest' => exact ⟨b, rest', rfl⟩
      have hoctet : ((b :: rest').take a.toNat)[0]? = some b := by
        obtain ⟨k, hk⟩ := Nat.exists_eq_succ_of_ne_zero hshort.1
        simp [hk]
      have hne : r.1 ≠ typeRefNameTag := by
        intro htagged
        have hmod := readVarint_mod hoctet (readLabelledVarint_eq_ok.mp htag)
        rw [htagged] at hmod
        exact h b rfl (hmod.symm.trans rfl)
      simp only [htag, if_pos hne] at hparts
      exact (Except.ok.inj hparts).symm

section CompactJson

variable {F E : Type}

theorem escapeChar_head (c : CodePoint) :
    ∃ d rest, escapeChar c = d :: rest ∧ d ≠ chr '\n' := by
  let P (t : Text) : Prop := ∃ d rest, t = d :: rest ∧ d ≠ chr '\n'
  have hescape : ∀ rest, P (chr '\\' :: rest) := fun rest => ⟨_, rest, rfl, by decide⟩
  have hite : ∀ {p : Prop} [Decidable p] {t u : Text}, P t → (¬ p → P u) →
      P (if p then t else u) := by
    intro p _ t u ht hu
    split_ifs with hp
    · exact ht
    · exact hu hp
  refine hite (hescape _) fun _ => hite (hescape _) fun _ => hite (hescape _) fun hnewline => ?_
  refine hite (hescape _) fun _ => hite (hescape _) fun _ => hite (hescape _) fun _ => ?_
  exact hite (hescape _) fun _ => hite (hescape _) fun _ => ⟨c, [], rfl, hnewline⟩

theorem newline_notMem_numberText {t : Text} (ht : ∀ c ∈ t, isNumberChr c) : chr '\n' ∉ t :=
  fun h => absurd (ht _ h) (by decide)

theorem newline_notMem_floatText (r : FloatRepr) : chr '\n' ∉ r.text := by
  cases r with
  | nan => decide
  | infinity negative => cases negative <;> decide
  | literal l => exact newline_notMem_numberText fun _ => isNumberChr_of_mem_literal

theorem quoted_second (s : Text) : (quoted s)[1]? ≠ some (chr '\n') := by
  cases s with
  | nil => decide
  | cons c s =>
    obtain ⟨d, rest, hd, hne⟩ := escapeChar_head c
    simpa [quoted, hd] using hne

variable [PyFloat F]

/-- No line break is the second character of a compact document. -/
theorem dumps_compact_second (default : Value F E → Text) (v : Value F E) :
    (dumps .compact default v)[1]? ≠ some (chr '\n') := by
  have hscalar : ∀ t : Text, chr '\n' ∉ t → t[1]? ≠ some (chr '\n') :=
    fun t ht h => ht (List.mem_of_getElem? h)
  rw [dumps]
  cases v with
  | null => exact hscalar (text "null") (by decide)
  | bool b =>
    cases b with
    | true => exact hscalar (text "true") (by decide)
    | false => exact hscalar (text "false") (by decide)
  | int i => exact hscalar _ (newline_notMem_numberText fun _ => isNumberChr_of_mem_intText)
  | float f => exact hscalar _ (newline_notMem_floatText _)
  | str s => exact quoted_second s
  | bytes data => exact quoted_second _
  | other e => exact quoted_second _
  | list items =>
    cases items with
    | nil => exact hscalar (text "[]") (by decide)
    | cons v vs =>
      obtain ⟨c, r, hc, hspace, -⟩ := startsValue_dump .compact default 1 v
      have hne : c ≠ chr '\n' := by
        rintro rfl
        cases hspace
      rw [dump, if_neg (by simp), dumpList, hc]
      simpa [Layout.newline, Layout.compact] using hne
  | dict items =>
    cases items with
    | nil => exact hscalar (text "\x7b\x7d") (by decide)
    | cons kv kvs => simp [dump, dumpItems, quoted, Layout.newline, Layout.compact]

/-- The octets of a compact document are not read as a reference. -/
theorem parseTypeRef_dumps {default : Value F E → Text} {v : Value F E} {data : Bytes}
    (h : utf8Encode (dumps .compact default v) = some data) :
    parseTypeRef data = (none, data) := by
  obtain ⟨c, r, hc, -, -, hascii⟩ := startsValue_dump .compact default 0 v
  have hsecond := dumps_compact_second default v
  have hdata : data = (dumps .compact default v).flatMap utf8Char := by
    unfold utf8Encode at h
    split_ifs at h
    exact (Option.some.inj h).symm
  rw [dumps, hc] at hdata hsecond
  rw [hdata, List.flatMap_cons, utf8Char, if_pos hascii, List.singleton_append]
  refine parseTypeRef_none (by rwa [toNat_byte (by omega)]) ?_
  intro b hb
  cases r with
  | nil => cases hb
  | cons d r =>
    have hne : d.val ≠ typeRefNameTag := by
      intro hd
      exact hsecond (congrArg some (Fin.ext hd))
    have hlt := d.isLt
    rw [List.flatMap_cons, utf8Char] at hb
    split_ifs at hb
    all_goals
      obtain rfl := Option.some.inj hb
      rw [toNat_byte (by omega)]
      rw [typeRefNameTag] at hne ⊢
      omega

/-- `ApicurioRegistryDeserializer._deserialize_json`, with the validator the artifact gives. -/
def deserializeJson (py : Interpreter F E) (jsonValidator : Outcome (Validator F E))
    (payload : Bytes) : Outcome (Value F E) := do
  let (_, jsonPayload) := parseTypeRef payload
  let content ← Outcome.tryExcept (py.loadsBytes jsonPayload)
    [.unicodeDecodeError, .jsonDecodeError] fun _ => py.loadsBytes payload
  let validationError ← jsonValidator
  match ← validationError content with
  | none => .ok content
  | some message => .error (deserializationError message)

theorem compactJson_dumps {py : Interpreter F E} {v : Value F E} {data : Bytes}
    (h : compactJson py v = .ok data) :
    v.isJson ∧ v.withinDigits py.jsonLimits.digits ∧
      utf8Encode (Python.dumps .compact py.str v) = some data := by
  rw [compactJson] at h
  cases hdumps : py.dumps .compact false v with
  | error e => simp [hdumps, bind, Except.bind] at h
  | ok t =>
    rw [Interpreter.dumps] at hdumps
    split_ifs at hdumps with hdepth hdigits hjson
    simp only [Interpreter.dumps, hdepth, hdigits, hjson, bind, Except.bind, if_false,
      Interpreter.encodeUtf8] at h
    refine ⟨by simpa using hjson, by simpa using hdigits, ?_⟩
    cases hencode : utf8Encode (Python.dumps .compact py.str v) with
    | none => simp [hencode] at h
    | some octets => simpa [hencode] using h

/-- Whatever is read from the octets of a compact document is the value printed. -/
theorem loadsBytes_eq_of_compactJson {py : Interpreter F E} {v content : Value F E} {data : Bytes}
    (hkeys : v.distinctKeys) (hdata : compactJson py v = .ok data)
    (h : py.loadsBytes data = .ok content) : content = v := by
  obtain ⟨hjson, hdigits, hencode⟩ := compactJson_dumps hdata
  rw [Interpreter.loadsBytes, decodeDetected_dumps hencode] at h
  have hbom : (dumps .compact py.str v).head? ≠ some 0xfeff := by
    obtain ⟨c, r, hc, -, -, hascii⟩ := startsValue_dump .compact py.str 0 v
    rw [dumps, hc, List.head?_cons]
    rintro ⟨⟩
    exact absurd hascii (by decide)
  have hloads : Python.loads py.jsonLimits (dumps .compact py.str v) = .ok content := by
    rw [Python.loads, if_neg hbom]
    cases hdocument : decodeDocument (F := F) (E := E) py.jsonLimits (dumps .compact py.str v) with
    | error failure => simp [hdocument] at h
    | ok w => simpa [hdocument] using h
  rw [((loads_dumps_eq_ok _ _ _ hkeys hdigits).mp hloads).2, Value.shown_eq_self hjson]

/-- Compact JSON that the serializer wrote is read whole, and gives what `json.loads` gives. -/
theorem deserializeJson_compactJson {py : Interpreter F E} {v : Value F E} {body : Bytes}
    {jsonValidator : Outcome (Validator F E)} {validationError : Validator F E}
    (hkeys : v.distinctKeys) (hbody : compactJson py v = .ok body)
    (hvalidator : jsonValidator = .ok validationError) (haccepts : validationError v = .ok none) :
    parseTypeRef body = (none, body) ∧
      deserializeJson py jsonValidator body = py.loadsBytes body := by
  obtain ⟨-, -, hencode⟩ := compactJson_dumps hbody
  have hwhole := parseTypeRef_dumps hencode
  have hread : Outcome.tryExcept (py.loadsBytes body) [.unicodeDecodeError, .jsonDecodeError]
      (fun _ => py.loadsBytes body) = py.loadsBytes body := by
    cases hloads : py.loadsBytes body with
    | ok content => rfl
    | error e => rw [Outcome.tryExcept, ite_self]
  refine ⟨hwhole, ?_⟩
  rw [deserializeJson, hwhole]
  simp only [hread]
  cases hloads : py.loadsBytes body with
  | error e => rfl
  | ok content =>
    obtain rfl := loadsBytes_eq_of_compactJson hkeys hbody hloads
    simp [hvalidator, haccepts, bind, Except.bind]

/-- A number of fifty digits, whose first digit is the length of the rest. -/
theorem deserializeJson_digits :
    parseTypeRef (byte 0x31 :: List.replicate 49 (byte 0x30)) =
        (none, byte 0x31 :: List.replicate 49 (byte 0x30)) ∧
      deserializeJson .plain (.ok fun _ => .ok none) (byte 0x31 :: List.replicate 49 (byte 0x30)) =
        Interpreter.plain.loadsBytes (byte 0x31 :: List.replicate 49 (byte 0x30)) := by
  refine deserializeJson_compactJson (v := .int (10 ^ 49)) rfl ?_ rfl rfl
  decide +kernel

end CompactJson

end Kaskade
