import Kaskade.BoundedSteps
import Kaskade.TypeReferences

/-!
# Reads of a type reference

`parse_type_ref` with reads that fail where there is no octet: an index raises `IndexError`, and a
slice that goes past the end is counted as a failure too, although Python would shorten it. No read
fails, so the function is total and is the one that reads without checks.
-/

namespace Kaskade

open Python

def maxsize : ℕ := 2 ^ 63 - 1

/-- An octet string that Python can hold. -/
structure BytesObject where
  octets : Bytes
  length_le : octets.length ≤ maxsize

def readPastEnd : PyException := ⟨.indexError, text "index out of range"⟩

/-- `data[offset]`. -/
def octetAt (data : Bytes) (offset : ℕ) : Outcome UInt8 :=
  match data[offset]? with
  | some octet => .ok octet
  | none => .error readPastEnd

/-- `data[start:stop]`, within the data. -/
def octetsBetween (data : Bytes) (start stop : ℕ) : Outcome Bytes :=
  if start ≤ stop ∧ stop ≤ data.length then .ok ((data.drop start).take (stop - start))
  else .error readPastEnd

/-- The loop of `_read_varint`, for the number of octets that are left. -/
def readVarintLoop (data : Bytes) (label : Text) : (octets shift offset value : ℕ) → Outcome (ℕ × ℕ)
  | 0, _, _, _ => .error (deserializationError (text "Invalid Protobuf " ++ label))
  | octets + 1, shift, offset, value => do
    if data.length ≤ offset then
      throw (deserializationError (text "Unexpected EOF while reading Protobuf " ++ label))
    let current ← octetAt data offset
    let value := value ||| (current.toNat &&& 0x7f) <<< shift
    if current.toNat &&& 0x80 = 0 then return (value, offset + 1)
    readVarintLoop data label octets (shift + 7) (offset + 1) value

def checkedReadVarint (data : Bytes) (offset : ℕ) (label : Text) : Outcome (ℕ × ℕ) :=
  readVarintLoop data label varintMaxBytes 0 offset 0

/-- The body of `parse_type_ref`. -/
def checkedReadTypeRef (payload : Bytes) : Outcome (Option Text × Bytes) := do
  let (messageSize, offset) ← checkedReadVarint payload 0 (text "varint")
  let stop := offset + messageSize
  if messageSize = 0 ∨ payload.length < stop then return (none, payload)
  let ref ← octetsBetween payload offset stop
  let (tag, position) ← checkedReadVarint ref 0 (text "varint")
  if tag ≠ typeRefNameTag then return (none, payload)
  let (nameSize, position) ← checkedReadVarint ref position (text "varint")
  let nameEnd := position + nameSize
  if ref.length < nameEnd then return (none, payload)
  let encoded ← octetsBetween ref position nameEnd
  match utf8Decode false encoded with
  | some name => do
    let rest ← octetsBetween payload stop payload.length
    return (some name, rest)
  | none => .error ⟨.unicodeDecodeError, []⟩

def checkedParseTypeRef (payload : Bytes) : Outcome (Option Text × Bytes) :=
  (checkedReadTypeRef payload).tryExcept [.deserializationError, .unicodeDecodeError]
    fun _ => .ok (none, payload)

theorem octetAt_eq {data : Bytes} {offset : ℕ} (h : offset < data.length) :
    octetAt data offset = .ok data[offset] := by
  rw [octetAt, List.getElem?_eq_getElem h]

theorem octetsBetween_eq {data : Bytes} {start stop : ℕ} (h : start ≤ stop)
    (hstop : stop ≤ data.length) :
    octetsBetween data start stop = .ok ((data.drop start).take (stop - start)) :=
  if_pos ⟨h, hstop⟩

/-- The exception of a failure, as `_read_varint` words it. -/
def varintException (label : Text) : VarintError → PyException
  | .endOfData => deserializationError (text "Unexpected EOF while reading Protobuf " ++ label)
  | .tooLong => deserializationError (text "Invalid Protobuf " ++ label)

theorem readLabelledVarint_eq (data : Bytes) (offset : ℕ) (label : Text) :
    readLabelledVarint data offset label =
      (readVarint varintMaxBytes data offset).mapError (varintException label) := by
  rw [readLabelledVarint]
  cases readVarint varintMaxBytes data offset with
  | ok r => rfl
  | error e => cases e <;> rfl

theorem readVarintLoop_eq (data : Bytes) (label : Text) (octets shift offset value : ℕ) :
    readVarintLoop data label octets shift offset value =
      (readVarintFrom data octets shift offset value).mapError (varintException label) := by
  induction octets generalizing shift offset value with
  | zero => rfl
  | succ octets ih =>
    rw [readVarintLoop, readVarintFrom]
    by_cases hend : data.length ≤ offset
    · rw [if_pos hend, List.getElem?_eq_none hend]
      rfl
    · have hoffset : offset < data.length := Nat.lt_of_not_le hend
      rw [if_neg hend, octetAt_eq hoffset, List.getElem?_eq_getElem hoffset]
      simp only [bind, Except.bind, pure, Except.pure]
      by_cases hlast : data[offset].toNat &&& 0x80 = 0
      · rw [if_pos hlast, if_pos hlast]
        rfl
      · rw [if_neg hlast, if_neg hlast]
        exact ih (shift + 7) (offset + 1) _

theorem checkedReadVarint_eq (data : Bytes) (offset : ℕ) (label : Text) :
    checkedReadVarint data offset label = readLabelledVarint data offset label := by
  rw [checkedReadVarint, readVarintLoop_eq, readLabelledVarint_eq, readVarint]

theorem readVarintFrom_bounds {data : Bytes} {octets shift offset value n stop : ℕ}
    (h : readVarintFrom data octets shift offset value = .ok (n, stop)) :
    offset < stop ∧ stop ≤ data.length := by
  induction octets generalizing shift offset value with
  | zero => cases h
  | succ octets ih =>
    rw [readVarintFrom] at h
    split at h
    · cases h
    next current hcurrent =>
      obtain ⟨hoffset, -⟩ := List.getElem?_eq_some_iff.mp hcurrent
      simp only at h
      split at h
      · obtain ⟨-, rfl⟩ := Prod.mk.inj (Except.ok.inj h)
        exact ⟨Nat.lt_succ_self offset, hoffset⟩
      · obtain ⟨hless, hstop⟩ := ih h
        exact ⟨by omega, hstop⟩

theorem readLabelledVarint_bounds {data : Bytes} {offset n stop : ℕ} {label : Text}
    (h : readLabelledVarint data offset label = .ok (n, stop)) :
    offset < stop ∧ stop ≤ data.length :=
  readVarintFrom_bounds (readLabelledVarint_eq_ok.mp h)

theorem readLabelledVarint_error {data : Bytes} {offset : ℕ} {label : Text} {x : PyException}
    (h : readLabelledVarint data offset label = .error x) : x.cls = .deserializationError := by
  rw [readLabelledVarint_eq] at h
  cases hread : readVarint varintMaxBytes data offset with
  | ok r =>
    rw [hread] at h
    cases h
  | error e =>
    rw [hread] at h
    cases e <;> cases h <;> rfl

/-- Every slice of the body is within what it is taken from. -/
theorem checkedReadTypeRef_eq (payload : Bytes) :
    checkedReadTypeRef payload = readTypeRef payload := by
  simp only [checkedReadTypeRef, readTypeRef, checkedReadVarint_eq, bind, Except.bind]
  cases hsize : readLabelledVarint payload 0 (text "varint") with
  | error x => rfl
  | ok r =>
    obtain ⟨messageSize, offset⟩ := r
    simp only
    split
    · rfl
    next hshort =>
      have hstop : offset + messageSize ≤ payload.length := by omega
      rw [octetsBetween_eq (Nat.le_add_right offset messageSize) hstop, Nat.add_sub_cancel_left]
      simp only
      cases htag : readLabelledVarint ((payload.drop offset).take messageSize) 0 (text "varint") with
      | error x => rfl
      | ok r =>
        obtain ⟨tag, position⟩ := r
        simp only
        split
        · rfl
        cases hname : readLabelledVarint ((payload.drop offset).take messageSize) position
          (text "varint") with
        | error x => rfl
        | ok r =>
          obtain ⟨nameSize, position⟩ := r
          simp only
          split
          · rfl
          next hlong =>
            rw [octetsBetween_eq (Nat.le_add_right position nameSize) (Nat.le_of_not_lt hlong),
              Nat.add_sub_cancel_left, octetsBetween_eq hstop (Nat.le_refl _)]
            simp only
            cases utf8Decode false
              ((((payload.drop offset).take messageSize).drop position).take nameSize) with
            | none => rfl
            | some name =>
              have hrest : (payload.drop (offset + messageSize)).take
                  (payload.length - (offset + messageSize)) = payload.drop (offset + messageSize) :=
                List.take_of_length_le (by rw [List.length_drop])
              rw [hrest]

theorem readTypeRef_error {payload : Bytes} {x : PyException} (h : readTypeRef payload = .error x) :
    x.isInstance [.deserializationError, .unicodeDecodeError] := by
  have hcaught : x.cls = .deserializationError →
      x.isInstance [.deserializationError, .unicodeDecodeError] = true := by
    intro hx
    rw [PyException.isInstance, hx]
    rfl
  rw [readTypeRef] at h
  rcases bind_eq_error.mp h with hsize | ⟨⟨messageSize, offset⟩, -, h⟩
  · exact hcaught (readLabelledVarint_error hsize)
  simp only at h
  split at h
  · cases h
  rcases bind_eq_error.mp h with htag | ⟨⟨tag, position⟩, -, h⟩
  · exact hcaught (readLabelledVarint_error htag)
  simp only at h
  split at h
  · cases h
  rcases bind_eq_error.mp h with hname | ⟨⟨nameSize, position'⟩, -, h⟩
  · exact hcaught (readLabelledVarint_error hname)
  simp only at h
  split at h
  · cases h
  split at h
  · cases h
  · cases h
    rfl

/-- The reads of `parse_type_ref` are all within the data, and it raises nothing. -/
theorem checkedParseTypeRef_eq (payload : Bytes) :
    checkedParseTypeRef payload = .ok (parseTypeRef payload) := by
  rw [checkedParseTypeRef, checkedReadTypeRef_eq, parseTypeRef]
  cases hread : readTypeRef payload with
  | ok parts => rfl
  | error x => exact Outcome.tryExcept_caught (readTypeRef_error hread)

/-- What a body returns that raises nothing: the input, or a name and what follows it. -/
theorem readTypeRef_ok {payload rest : Bytes} {name : Option Text}
    (h : readTypeRef payload = .ok (name, rest)) :
    (name = none → rest = payload) ∧
      (name.isSome → rest <:+ payload ∧ rest.length < payload.length) := by
  have hnone : ∀ r : Option Text × Bytes, r = (none, payload) → r = (name, rest) →
      (name = none → rest = payload) ∧
        (name.isSome → rest <:+ payload ∧ rest.length < payload.length) := by
    rintro r rfl hr
    obtain ⟨rfl, rfl⟩ := Prod.mk.inj hr
    exact ⟨fun _ => rfl, fun hsome => by cases hsome⟩
  rw [readTypeRef] at h
  obtain ⟨⟨messageSize, offset⟩, hsize, h⟩ := bind_eq_ok.mp h
  simp only at h
  split at h
  · exact hnone _ rfl (Except.ok.inj h)
  next hshort =>
    obtain ⟨⟨tag, position⟩, -, h⟩ := bind_eq_ok.mp h
    simp only at h
    split at h
    · exact hnone _ rfl (Except.ok.inj h)
    obtain ⟨⟨nameSize, position'⟩, -, h⟩ := bind_eq_ok.mp h
    simp only at h
    split at h
    · exact hnone _ rfl (Except.ok.inj h)
    split at h
    · obtain ⟨rfl, rfl⟩ := Prod.mk.inj (Except.ok.inj h)
      obtain ⟨hread, -⟩ := readLabelledVarint_bounds hsize
      refine ⟨fun hname => (by cases hname), fun _ => ⟨List.drop_suffix _ _, ?_⟩⟩
      rw [List.length_drop]
      omega
    · cases h

theorem parseTypeRef_returned (payload : Bytes) :
    ((parseTypeRef payload).1 = none → (parseTypeRef payload).2 = payload) ∧
      ((parseTypeRef payload).1.isSome →
        (parseTypeRef payload).2 <:+ payload ∧ (parseTypeRef payload).2 ≠ payload) := by
  rw [parseTypeRef]
  cases hread : readTypeRef payload with
  | error x => exact ⟨fun _ => rfl, fun hsome => by cases hsome⟩
  | ok parts =>
    obtain ⟨hnone, hsome⟩ := readTypeRef_ok hread
    refine ⟨hnone, fun hname => ?_⟩
    obtain ⟨hsuffix, hless⟩ := hsome hname
    exact ⟨hsuffix, fun hsame => Nat.lt_irrefl _ (hsame ▸ hless)⟩

/-- What `apicurio_type_ref` writes before a payload is read as the name of the message, and leaves
the payload. From any octets, nothing is read past the end, nothing is raised, and what is returned
is the input, or a name and a proper suffix of the input. -/
theorem checkedParseTypeRef_result :
    (∀ (d : Descriptor) (ref : BytesObject) (payload : Bytes),
      apicurioTypeRef d = .ok ref.octets →
      checkedParseTypeRef (ref.octets ++ payload) = .ok (some (relativeName d), payload)) ∧
    ∀ data : Bytes, ∃ name rest, checkedParseTypeRef data = .ok (name, rest) ∧
      (name = none → rest = data) ∧ (name.isSome → rest <:+ data ∧ rest ≠ data) := by
  constructor
  · intro d ref payload href
    have hlength : ref.octets.length < 2 ^ 63 := Nat.lt_of_le_of_lt ref.length_le (by decide)
    rw [apicurioTypeRef] at href
    split at href
    next encoded hname =>
      have hencoded := Except.ok.inj href
      rw [← hencoded] at hlength ⊢
      rw [checkedParseTypeRef_eq, parseTypeRef_typeRef hname hlength]
    · cases href
  · intro data
    exact ⟨_, _, checkedParseTypeRef_eq data, parseTypeRef_returned data⟩

/-- A refund is named before its payload. -/
theorem checkedParseTypeRef_refund :
    checkedParseTypeRef (typeRef ((text "Refund").flatMap utf8Char) ++ [8, 1]) =
      .ok (some (relativeName (shop.descriptor [text "Refund"])), [8, 1]) :=
  checkedParseTypeRef_result.1 (shop.descriptor [text "Refund"])
    ⟨typeRef ((text "Refund").flatMap utf8Char), by decide +kernel⟩ [8, 1] rfl

end Kaskade
