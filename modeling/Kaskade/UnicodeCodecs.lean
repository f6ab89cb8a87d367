import Kaskade.PythonText

/-!
# The UTF-8, UTF-16 and UTF-32 codecs

The strict UTF-8 codec refuses surrogates in both directions. Decoding with the
`surrogatepass` handler admits them; decoding a text that was encoded gives it back
under either handler. The two wider codecs are only ever read, with `surrogatepass`.
-/

namespace Kaskade.Python

def byte (n : ℕ) : UInt8 := UInt8.ofNat n

theorem toNat_byte {n : ℕ} (h : n < 256) : (byte n).toNat = n := by
  simp [byte, UInt8.toNat_ofNat', Nat.mod_eq_of_lt h]

def utf8Char (c : CodePoint) : Bytes :=
  if c.val < 0x80 then [byte c.val]
  else if c.val < 0x800 then [byte (0xc0 + c.val / 0x40), byte (0x80 + c.val % 0x40)]
  else if c.val < 0x10000 then
    [byte (0xe0 + c.val / 0x1000), byte (0x80 + c.val / 0x40 % 0x40), byte (0x80 + c.val % 0x40)]
  else
    [byte (0xf0 + c.val / 0x40000), byte (0x80 + c.val / 0x1000 % 0x40),
      byte (0x80 + c.val / 0x40 % 0x40), byte (0x80 + c.val % 0x40)]

/-- `t.encode("utf-8")`; `none` stands for `UnicodeEncodeError`. -/
def utf8Encode (t : Text) : Option Bytes :=
  if t.any isSurrogate then none else some (t.flatMap utf8Char)

def codePoint? (n : ℕ) : Option CodePoint :=
  if h : n < 0x110000 then some ⟨n, h⟩ else none

def isContinuation (b : UInt8) : Bool := 0x80 ≤ b.toNat ∧ b.toNat < 0xc0

/-- The code point an octet group denotes, unless it is overlong or a refused surrogate. -/
def groupCode? (surrogatepass : Bool) (least n : ℕ) : Option CodePoint :=
  if n < least then none
  else (codePoint? n).filter (fun c => surrogatepass || !isSurrogate c)

/-- Decoding with `owed` continuation octets outstanding of a group that has accumulated
`acc` and must denote at least `least`. -/
def utf8DecodeFrom (surrogatepass : Bool) : (owed acc least : ℕ) → Bytes → Option Text
  | 0, _, _, [] => some []
  | _ + 1, _, _, [] => none
  | 0, _, _, b :: rest =>
    if b.toNat < 0x80 then
      (codePoint? b.toNat).bind (fun c => (utf8DecodeFrom surrogatepass 0 0 0 rest).map (c :: ·))
    else if b.toNat < 0xc0 then none
    else if b.toNat < 0xe0 then utf8DecodeFrom surrogatepass 1 (b.toNat - 0xc0) 0x80 rest
    else if b.toNat < 0xf0 then utf8DecodeFrom surrogatepass 2 (b.toNat - 0xe0) 0x800 rest
    else if b.toNat < 0xf8 then utf8DecodeFrom surrogatepass 3 (b.toNat - 0xf0) 0x10000 rest
    else none
  | owed + 1, acc, least, b :: rest =>
    if isContinuation b then
      let n := acc * 0x40 + (b.toNat - 0x80)
      if owed = 0 then
        (groupCode? surrogatepass least n).bind
          (fun c => (utf8DecodeFrom surrogatepass 0 0 0 rest).map (c :: ·))
      else utf8DecodeFrom surrogatepass owed n least rest
    else none

/-- `data.decode("utf-8")`, strictly or with `surrogatepass`; `none` stands for
`UnicodeDecodeError`. -/
def utf8Decode (surrogatepass : Bool) (data : Bytes) : Option Text :=
  utf8DecodeFrom surrogatepass 0 0 0 data

private theorem utf8DecodeFrom_continue {pass : Bool} {owed acc least n : ℕ} (hn : n < 0x40)
    (ho : owed ≠ 0) (rest : Bytes) :
    utf8DecodeFrom pass (owed + 1) acc least (byte (0x80 + n) :: rest) =
      utf8DecodeFrom pass owed (acc * 0x40 + n) least rest := by
  have hc : isContinuation (byte (0x80 + n)) := by
    rw [isContinuation, toNat_byte (by omega), decide_eq_true_iff]
    omega
  rw [utf8DecodeFrom, if_pos hc, toNat_byte (by omega), if_neg ho, Nat.add_sub_cancel_left]

private theorem utf8DecodeFrom_last {pass : Bool} {c : CodePoint} {acc least n : ℕ}
    (hn : n < 0x40) (hv : acc * 0x40 + n = c.val) (hl : least ≤ c.val)
    (hc : pass || !isSurrogate c) (rest : Bytes) :
    utf8DecodeFrom pass 1 acc least (byte (0x80 + n) :: rest) =
      (utf8Decode pass rest).map (c :: ·) := by
  have hcont : isContinuation (byte (0x80 + n)) := by
    rw [isContinuation, toNat_byte (by omega), decide_eq_true_iff]
    omega
  have hg : groupCode? pass least c.val = some c := by
    rw [groupCode?, if_neg (by omega), codePoint?, dif_pos c.isLt]
    simpa using hc
  rw [utf8DecodeFrom, if_pos hcont, toNat_byte (by omega), if_pos rfl, Nat.add_sub_cancel_left,
    hv, hg]
  rfl

/-- The octets of one code point decode to it, whatever follows. -/
theorem utf8Decode_char {pass : Bool} {c : CodePoint} (hc : pass || !isSurrogate c)
    (rest : Bytes) :
    utf8Decode pass (utf8Char c ++ rest) = (utf8Decode pass rest).map (c :: ·) := by
  have hlt := c.isLt
  unfold utf8Char
  split_ifs with h₁ h₂ h₃
  · rw [List.singleton_append, utf8Decode, utf8DecodeFrom, toNat_byte (by omega), if_pos h₁,
      codePoint?, dif_pos hlt]
    rfl
  · simp only [List.cons_append, List.nil_append]
    rw [utf8Decode, utf8DecodeFrom, toNat_byte (by omega), if_neg (by omega),
      if_neg (by omega), if_pos (by omega)]
    exact utf8DecodeFrom_last (by omega) (by omega) (by omega) hc rest
  · simp only [List.cons_append, List.nil_append]
    rw [utf8Decode, utf8DecodeFrom, toNat_byte (by omega), if_neg (by omega),
      if_neg (by omega), if_neg (by omega), if_pos (by omega),
      utf8DecodeFrom_continue (by omega) (by decide)]
    exact utf8DecodeFrom_last (by omega) (by omega) (by omega) hc rest
  · simp only [List.cons_append, List.nil_append]
    rw [utf8Decode, utf8DecodeFrom, toNat_byte (by omega), if_neg (by omega),
      if_neg (by omega), if_neg (by omega), if_neg (by omega), if_pos (by omega),
      utf8DecodeFrom_continue (by omega) (by decide),
      utf8DecodeFrom_continue (by omega) (by decide)]
    exact utf8DecodeFrom_last (by omega) (by omega) (by omega) hc rest

theorem utf8Decode_flatMap {pass : Bool} {t : Text} (ht : ∀ c ∈ t, pass || !isSurrogate c) :
    utf8Decode pass (t.flatMap utf8Char) = some t := by
  induction t with
  | nil => rfl
  | cons c t ih =>
    rw [List.flatMap_cons, utf8Decode_char (ht c List.mem_cons_self),
      ih (fun d hd => ht d (List.mem_cons_of_mem c hd))]
    rfl

/-- Encoded text decodes to itself under either error handler. -/
theorem utf8Decode_utf8Encode (pass : Bool) {t : Text} {data : Bytes}
    (h : utf8Encode t = some data) : utf8Decode pass data = some t := by
  unfold utf8Encode at h
  split_ifs at h with hs
  obtain rfl := Option.some.inj h
  apply utf8Decode_flatMap
  intro c hc
  have hn : isSurrogate c = false := by
    simpa using fun hcs => hs (List.any_eq_true.mpr ⟨c, hc, hcs⟩)
  simp [hn]

theorem utf8Encode_isSome {t : Text} : (utf8Encode t).isSome ↔ ∀ c ∈ t, isSurrogate c = false := by
  unfold utf8Encode
  split_ifs with h
  · simpa using h
  · simpa using h

/-- The 16-bit units of an octet sequence, if their number is whole. -/
def utf16Units (littleEndian : Bool) : Bytes → Option (List ℕ)
  | [] => some []
  | [_] => none
  | a :: b :: rest =>
    (utf16Units littleEndian rest).map
      ((if littleEndian then a.toNat + 0x100 * b.toNat else 0x100 * a.toNat + b.toNat) :: ·)

def joinSurrogates : List ℕ → Option Text
  | [] => some []
  | [u] => (codePoint? u).map ([·])
  | u :: v :: rest =>
    if 0xd800 ≤ u ∧ u < 0xdc00 ∧ 0xdc00 ≤ v ∧ v < 0xe000 then
      (codePoint? (0x10000 + (u - 0xd800) * 0x400 + (v - 0xdc00))).bind
        (fun c => (joinSurrogates rest).map (c :: ·))
    else (codePoint? u).bind (fun c => (joinSurrogates (v :: rest)).map (c :: ·))

/-- `data.decode("utf-16-le" or "utf-16-be", "surrogatepass")`. -/
def utf16Decode (littleEndian : Bool) (data : Bytes) : Option Text :=
  (utf16Units littleEndian data).bind joinSurrogates

/-- `data.decode("utf-32-le" or "utf-32-be", "surrogatepass")`. -/
def utf32Decode (littleEndian : Bool) : Bytes → Option Text
  | [] => some []
  | a :: b :: c :: d :: rest =>
    let n := if littleEndian then
        a.toNat + 0x100 * b.toNat + 0x10000 * c.toNat + 0x1000000 * d.toNat
      else 0x1000000 * a.toNat + 0x10000 * b.toNat + 0x100 * c.toNat + d.toNat
    (codePoint? n).bind (fun p => (utf32Decode littleEndian rest).map (p :: ·))
  | _ => none

end Kaskade.Python
