import Kaskade.UnicodeCodecs
import Mathlib.Tactic.Ring

/-!
# Variable-length integers

Numbers as octets of seven bits each, lowest first, every octet but the last with its high
bit set; the reader takes a bounded number of octets.
-/

namespace Kaskade.Python

def varint (value : ℕ) : Bytes :=
  let rest := value >>> 7
  if rest ≠ 0 then byte (value &&& 0x7f ||| 0x80) :: varint rest else [byte (value &&& 0x7f)]
termination_by value
decreasing_by
  rw [Nat.shiftRight_eq_div_pow] at *
  omega

inductive VarintError where
  | endOfData
  | tooLong
  deriving DecidableEq

/-- Reads so many octets at most from an offset on, into the bits from `shift` on. -/
def readVarintFrom (data : Bytes) :
    (octets shift offset value : ℕ) → Except VarintError (ℕ × ℕ)
  | 0, _, _, _ => .error .tooLong
  | octets + 1, shift, offset, value =>
    match data[offset]? with
    | none => .error .endOfData
    | some current =>
      let value := value ||| (current.toNat &&& 0x7f) <<< shift
      if current.toNat &&& 0x80 = 0 then .ok (value, offset + 1)
      else readVarintFrom data octets (shift + 7) (offset + 1) value

/-- The number at an offset, in so many octets at most, and the offset after it. -/
def readVarint (maxBytes : ℕ) (data : Bytes) (offset : ℕ) : Except VarintError (ℕ × ℕ) :=
  readVarintFrom data maxBytes 0 offset 0

theorem varint_of_lt {n : ℕ} (h : n < 128) : varint n = [byte n] := by
  have hrest : n >>> 7 = 0 := by
    rw [Nat.shiftRight_eq_div_pow]
    omega
  have hlow : n &&& 0x7f = n := by
    rw [show 0x7f = 2 ^ 7 - 1 from rfl, Nat.and_two_pow_sub_one_eq_mod]
    omega
  rw [varint, hrest, hlow]
  rfl

theorem varint_of_le {n : ℕ} (h : 128 ≤ n) :
    varint n = byte (n % 128 + 128) :: varint (n / 128) := by
  have hrest : n >>> 7 = n / 128 := Nat.shiftRight_eq_div_pow n 7
  have hlow : n &&& 0x7f ||| 0x80 = n % 128 + 128 := by
    rw [show 0x7f = 2 ^ 7 - 1 from rfl, Nat.and_two_pow_sub_one_eq_mod, Nat.or_comm,
      show 0x80 = 2 ^ 7 * 1 from rfl, ← Nat.two_pow_add_eq_or_of_lt (Nat.mod_lt n (by decide)) 1]
    omega
  rw [varint, hrest, hlow]
  simp only [ne_eq]
  rw [if_pos (by omega)]

theorem and_highBit : ∀ n < 256, n &&& 0x80 = 0 ↔ n < 128 := by decide +kernel

theorem and_lowBits (n : ℕ) : n &&& 0x7f = n % 128 := Nat.and_two_pow_sub_one_eq_mod n 7

theorem or_shiftLeft {value shift : ℕ} (h : value < 2 ^ shift) (n : ℕ) :
    value ||| n <<< shift = 2 ^ shift * n + value := by
  rw [Nat.two_pow_add_eq_or_of_lt h, Nat.or_comm, Nat.shiftLeft_eq, Nat.mul_comm]

theorem readVarintFrom_cons {octets shift value : ℕ} (hvalue : value < 2 ^ shift) {n : ℕ}
    (hn : n < 256) (before after : Bytes) :
    readVarintFrom (before ++ byte n :: after) (octets + 1) shift before.length value =
      if n < 128 then .ok (2 ^ shift * n + value, before.length + 1)
      else readVarintFrom (before ++ byte n :: after) octets (shift + 7) (before.length + 1)
        (2 ^ shift * (n % 128) + value) := by
  have hoctet : (before ++ byte n :: after)[before.length]? = some (byte n) := by simp
  rw [readVarintFrom, hoctet]
  simp only [toNat_byte hn, and_lowBits, or_shiftLeft hvalue, and_highBit n hn]
  split_ifs with hlast
  · rw [Nat.mod_eq_of_lt hlast]
  · rfl

theorem readVarintFrom_varint {octets n : ℕ} (hn : n < 128 ^ (octets + 1)) {shift value : ℕ}
    (hvalue : value < 2 ^ shift) (before after : Bytes) :
    readVarintFrom (before ++ varint n ++ after) (octets + 1) shift before.length value =
      .ok (2 ^ shift * n + value, before.length + (varint n).length) := by
  induction octets generalizing n shift value before with
  | zero =>
    have hlast : n < 128 := by simpa using hn
    rw [varint_of_lt hlast, List.append_assoc, List.singleton_append,
      readVarintFrom_cons hvalue (by omega), if_pos hlast]
    rfl
  | succ octets ih =>
    by_cases hlast : n < 128
    · rw [varint_of_lt hlast, List.append_assoc, List.singleton_append,
        readVarintFrom_cons hvalue (by omega), if_pos hlast]
      rfl
    · have hrest : n / 128 < 128 ^ (octets + 1) := by
        rw [Nat.div_lt_iff_lt_mul (by decide), ← Nat.pow_succ]
        exact hn
      have hnext : 2 ^ shift * (n % 128) + value < 2 ^ (shift + 7) := by
        have hlow : n % 128 + 1 ≤ 2 ^ 7 := Nat.mod_lt n (by decide)
        calc 2 ^ shift * (n % 128) + value < 2 ^ shift * (n % 128) + 2 ^ shift := by omega
          _ = 2 ^ shift * (n % 128 + 1) := by ring
          _ ≤ 2 ^ shift * 2 ^ 7 := Nat.mul_le_mul_left _ hlow
          _ = 2 ^ (shift + 7) := (Nat.pow_add 2 shift 7).symm
      have hlater := ih hrest hnext (before ++ [byte (n % 128 + 128)])
      rw [varint_of_le (by omega), List.append_assoc, List.cons_append,
        readVarintFrom_cons hvalue (by omega), if_neg (by omega)]
      have hsum : 2 ^ (shift + 7) * (n / 128) + (2 ^ shift * (n % 128) + value) =
          2 ^ shift * n + value := by
        have hsplit := Nat.div_add_mod n 128
        calc 2 ^ (shift + 7) * (n / 128) + (2 ^ shift * (n % 128) + value)
            = 2 ^ shift * (128 * (n / 128) + n % 128) + value := by rw [Nat.pow_add]; ring
          _ = 2 ^ shift * n + value := by rw [hsplit]
      rw [hsum] at hlater
      simpa [Nat.add_assoc, Nat.add_comm, Nat.add_left_comm] using hlater

/-- A number is read back from wherever its octets stand. -/
theorem readVarint_varint {maxBytes n : ℕ} (hmax : 0 < maxBytes) (hn : n < 128 ^ maxBytes)
    (before after : Bytes) :
    readVarint maxBytes (before ++ varint n ++ after) before.length =
      .ok (n, before.length + (varint n).length) := by
  obtain ⟨octets, rfl⟩ : ∃ octets, maxBytes = octets + 1 := ⟨maxBytes - 1, by omega⟩
  simpa [readVarint] using readVarintFrom_varint hn (Nat.two_pow_pos 0) before after

end Kaskade.Python
