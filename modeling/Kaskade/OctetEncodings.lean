import Kaskade.ByteRoundTrips

/-!
# Octets read and written back

Two encodings from the side of the octets: strictly decoded UTF-8 is encoded to the octets it came
from, and octets are those of the big-endian number they hold.
-/

namespace Kaskade.Python

theorem groupCode?_eq_some {least n : ℕ} {c : CodePoint} (h : groupCode? false least n = some c) :
    c.val = n ∧ least ≤ n ∧ isSurrogate c = false := by
  rw [groupCode?] at h
  split_ifs at h with hleast
  rw [Option.filter_eq_some_iff] at h
  have hcode : c.val = n := by
    rw [codePoint?] at h
    split_ifs at h with hn
    · rw [← Option.some.inj h.1]
    · cases h.1
  refine ⟨hcode, Nat.le_of_not_lt hleast, ?_⟩
  simpa using h.2

/-- A continuation octet that is owed is there, and carries six bits. -/
theorem utf8DecodeFrom_owed {owed acc least : ℕ} {data : Bytes} {t : Text}
    (h : utf8DecodeFrom false (owed + 1) acc least data = some t) :
    ∃ n rest, n < 0x40 ∧ data = byte (0x80 + n) :: rest ∧
      (if owed = 0 then
        (groupCode? false least (acc * 0x40 + n)).bind fun c => (utf8Decode false rest).map (c :: ·)
      else utf8DecodeFrom false owed (acc * 0x40 + n) least rest) = some t := by
  cases data with
  | nil => cases h
  | cons b rest =>
    rw [utf8DecodeFrom] at h
    split_ifs at h with hcontinuation howed
    all_goals
      rw [isContinuation, decide_eq_true_iff] at hcontinuation
      refine ⟨b.toNat - 0x80, rest, by omega, ?_, ?_⟩
      · rw [byte_of_toNat (b := b) (by omega)]
    · rw [if_pos howed]
      exact h
    · rw [if_neg howed]
      exact h

/-- The last continuation octet completes a code point. -/
theorem utf8DecodeFrom_one {acc least : ℕ} {data : Bytes} {t : Text}
    (h : utf8DecodeFrom false 1 acc least data = some t) :
    ∃ n rest c t', n < 0x40 ∧ data = byte (0x80 + n) :: rest ∧ c.val = acc * 0x40 + n ∧
      least ≤ c.val ∧ isSurrogate c = false ∧ t = c :: t' ∧ utf8Decode false rest = some t' := by
  obtain ⟨n, rest, hn, hdata, hrest⟩ := utf8DecodeFrom_owed h
  rw [if_pos rfl, Option.bind_eq_some_iff] at hrest
  obtain ⟨c, hc, htext⟩ := hrest
  obtain ⟨t', ht', rfl⟩ := Option.map_eq_some_iff.mp htext
  have hcode := groupCode?_eq_some hc
  exact ⟨n, rest, c, t', hn, hdata, hcode.1, by omega, hcode.2.2, rfl, ht'⟩

/-- Strict decoding takes the octets of one code point after another. -/
theorem utf8Decode_eq_some {data : Bytes} {t : Text} (h : utf8Decode false data = some t)
    (hdata : data ≠ []) :
    ∃ c t' rest, t = c :: t' ∧ data = utf8Char c ++ rest ∧ isSurrogate c = false ∧
      utf8Decode false rest = some t' := by
  cases data with
  | nil => exact absurd rfl hdata
  | cons b rest =>
    have hb := b.toNat_lt
    rw [utf8Decode, utf8DecodeFrom] at h
    split_ifs at h with h₁ h₂ h₃ h₄ h₅
    · rw [Option.bind_eq_some_iff] at h
      obtain ⟨c, hc, htext⟩ := h
      obtain ⟨t', ht', rfl⟩ := Option.map_eq_some_iff.mp htext
      rw [codePoint?, dif_pos (by omega)] at hc
      obtain rfl := Option.some.inj hc
      refine ⟨_, t', rest, rfl, ?_, ?_, ht'⟩
      · rw [utf8Char, if_pos h₁, byte_of_toNat rfl]
        rfl
      · rw [isSurrogate, decide_eq_false_iff_not]
        dsimp only
        omega
    · obtain ⟨n, rest', c, t', hn, rfl, hc, hleast, hsurrogate, rfl, ht'⟩ := utf8DecodeFrom_one h
      refine ⟨c, t', rest', rfl, ?_, hsurrogate, ht'⟩
      rw [utf8Char, if_neg (by omega), if_pos (by omega),
        byte_of_toNat (b := b) (n := 0xc0 + c.val / 0x40) (by omega),
        show c.val % 0x40 = n by omega]
      rfl
    · obtain ⟨m, rest₁, hm, rfl, hsecond⟩ := utf8DecodeFrom_owed h
      rw [if_neg (by omega)] at hsecond
      obtain ⟨n, rest', c, t', hn, rfl, hc, hleast, hsurrogate, rfl, ht'⟩ :=
        utf8DecodeFrom_one hsecond
      refine ⟨c, t', rest', rfl, ?_, hsurrogate, ht'⟩
      rw [utf8Char, if_neg (by omega), if_neg (by omega), if_pos (by omega),
        byte_of_toNat (b := b) (n := 0xe0 + c.val / 0x1000) (by omega),
        show c.val / 0x40 % 0x40 = m by omega, show c.val % 0x40 = n by omega]
      rfl
    · obtain ⟨l, rest₂, hl, rfl, hsecond⟩ := utf8DecodeFrom_owed h
      rw [if_neg (by omega)] at hsecond
      obtain ⟨m, rest₁, hm, rfl, hthird⟩ := utf8DecodeFrom_owed hsecond
      rw [if_neg (by omega)] at hthird
      obtain ⟨n, rest', c, t', hn, rfl, hc, hleast, hsurrogate, rfl, ht'⟩ :=
        utf8DecodeFrom_one hthird
      refine ⟨c, t', rest', rfl, ?_, hsurrogate, ht'⟩
      rw [utf8Char, if_neg (by omega), if_neg (by omega), if_neg (by omega),
        byte_of_toNat (b := b) (n := 0xf0 + c.val / 0x40000) (by omega),
        show c.val / 0x1000 % 0x40 = l by omega, show c.val / 0x40 % 0x40 = m by omega,
        show c.val % 0x40 = n by omega]
      rfl

theorem utf8Encode_cons {c : CodePoint} (hc : isSurrogate c = false) (t : Text) :
    utf8Encode (c :: t) = (utf8Encode t).map (utf8Char c ++ ·) := by
  rw [utf8Encode, utf8Encode, List.any_cons, hc, Bool.false_or]
  split_ifs
  · rfl
  · rfl

/-- Strictly decoded octets are the octets of the text. -/
theorem utf8Encode_utf8Decode {data : Bytes} {t : Text} (h : utf8Decode false data = some t) :
    utf8Encode t = some data := by
  induction t generalizing data with
  | nil =>
    cases data with
    | nil => rfl
    | cons b rest =>
      obtain ⟨c, t', rest', htext, -⟩ := utf8Decode_eq_some h (List.cons_ne_nil b rest)
      cases htext
  | cons c t ih =>
    have hdata : data ≠ [] := by
      rintro rfl
      cases h
    obtain ⟨c', t', rest, htext, rfl, hsurrogate, hrest⟩ := utf8Decode_eq_some h hdata
    obtain ⟨rfl, rfl⟩ := List.cons.inj htext
    rw [utf8Encode_cons hsurrogate, ih hrest]
    rfl

def bigEndian (data : Bytes) : ℕ := data.foldl (fun acc b => acc * 256 + b.toNat) 0

def bigEndianOctets (size n : ℕ) : Bytes :=
  (List.range size).map fun i => byte (n / 256 ^ (size - 1 - i) % 256)

theorem bigEndian_append (data : Bytes) (b : UInt8) :
    bigEndian (data ++ [b]) = bigEndian data * 256 + b.toNat := by
  rw [bigEndian, List.foldl_append]
  rfl

@[simp] theorem bigEndianOctets_length (size n : ℕ) : (bigEndianOctets size n).length = size := by
  rw [bigEndianOctets, List.length_map, List.length_range]

theorem bigEndianOctets_succ (size n : ℕ) :
    bigEndianOctets (size + 1) n = bigEndianOctets size (n / 256) ++ [byte (n % 256)] := by
  rw [bigEndianOctets, List.range_succ, List.map_append, List.map_singleton, Nat.add_sub_cancel,
    Nat.sub_self, pow_zero, Nat.div_one]
  congr 1
  apply List.map_congr_left
  intro i hi
  have hlt := List.mem_range.mp hi
  rw [Nat.div_div_eq_div_mul, ← pow_succ', show size - 1 - i + 1 = size - i by omega]

theorem bigEndian_lt (data : Bytes) : bigEndian data < 256 ^ data.length := by
  induction data using List.reverseRecOn with
  | nil => exact Nat.one_pos
  | append_singleton data b ih =>
    have hb := b.toNat_lt
    rw [bigEndian_append, List.length_append, List.length_singleton, pow_succ]
    omega

theorem bigEndianOctets_bigEndian (data : Bytes) :
    bigEndianOctets data.length (bigEndian data) = data := by
  induction data using List.reverseRecOn with
  | nil => rfl
  | append_singleton data b ih =>
    have hb := b.toNat_lt
    rw [List.length_append, List.length_singleton, bigEndianOctets_succ, bigEndian_append,
      show (bigEndian data * 256 + b.toNat) / 256 = bigEndian data by omega, ih,
      byte_of_toNat (b := b) (by omega)]

theorem bigEndian_bigEndianOctets (size n : ℕ) :
    bigEndian (bigEndianOctets size n) = n % 256 ^ size := by
  induction size generalizing n with
  | zero =>
    rw [pow_zero, Nat.mod_one]
    rfl
  | succ size ih =>
    rw [bigEndianOctets_succ, bigEndian_append, ih, toNat_byte (Nat.mod_lt n (by omega)), pow_succ',
      Nat.mod_mul]
    omega

end Kaskade.Python
