import Kaskade.ConsumerRecordSchema
import Kaskade.RecordModels

/-!
# Encoded octets meet their patterns

Every text form of octets and of a timestamp that the record models produce matches the
pattern the record contract states for it.
-/

namespace Kaskade.ConsumerRecordSchema

open Python Python.JsonSchema

theorem digit_matches (n : ℕ) (h : 0x30 + n % 10 < 0x110000) :
    [(⟨0x30 + n % 10, h⟩ : CodePoint)] ∈ digit.matches' := by
  have h9 : ('9' : Char).toNat = 0x39 := rfl
  have h0 : ('0' : Char).toNat = 0x30 := rfl
  exact mem_oneOfCodes (mem_codePoints (by simp [h0]) (by simp only [h9]; omega))

theorem padded_matches (width n : ℕ) : padded width n ∈ (digit ^ width).matches' := by
  rw [RegularExpression.matches'_pow]
  induction width generalizing n with
  | zero => exact Language.nil_mem_one
  | succ width ih =>
    rw [padded, pow_succ]
    exact Language.append_mem_mul (ih (n / 10)) (digit_matches n _)

theorem timestampJson_matches (t : UtcDateTime) :
    timestampJson t ∈ timestampPattern.matches' := by
  have year := mem_mul (padded_matches 4 t.year) (mem_exactly (text "-"))
  have month := mem_mul (mem_mul year (padded_matches 2 t.month)) (mem_exactly (text "-"))
  have day := mem_mul (mem_mul month (padded_matches 2 t.day)) (mem_exactly (text "T"))
  have hour := mem_mul (mem_mul day (padded_matches 2 t.hour)) (mem_exactly (text ":"))
  have minute := mem_mul (mem_mul hour (padded_matches 2 t.minute)) (mem_exactly (text ":"))
  have second := mem_mul (mem_mul minute (padded_matches 2 t.second)) (mem_exactly (text "."))
  exact mem_mul (mem_mul second (padded_matches 3 (t.microsecond / 1000))) (mem_exactly (text "Z"))

theorem base64Chr_matches (n : ℕ) : [base64Chr n] ∈ base64Digit.matches' := by
  apply mem_oneOfCodes
  have hA : ('A' : Char).toNat = 0x41 := rfl
  have hZ : ('Z' : Char).toNat = 0x5a := rfl
  have ha : ('a' : Char).toNat = 0x61 := rfl
  have hz : ('z' : Char).toNat = 0x7a := rfl
  have h0 : ('0' : Char).toNat = 0x30 := rfl
  have h9 : ('9' : Char).toNat = 0x39 := rfl
  simp only [List.mem_append, or_assoc]
  unfold base64Chr
  split_ifs
  · exact .inl (mem_codePoints (by simp only [hA]; omega) (by simp only [hZ]; omega))
  · exact .inr (.inl (mem_codePoints (by simp only [ha]; omega) (by simp only [hz]; omega)))
  · exact .inr (.inr (.inl (mem_codePoints (by simp only [h0]; omega) (by simp only [h9]; omega))))
  · exact .inr (.inr (.inr (by decide)))
  · exact .inr (.inr (.inr (by decide)))

theorem base64Text_matches (ns : List ℕ) :
    ns.map base64Chr ∈ (base64Digit ^ ns.length).matches' := by
  have hlength : ns.length = (ns.map base64Chr).length := (List.length_map base64Chr).symm
  rw [hlength]
  apply mem_pow_length
  intro c hc
  obtain ⟨n, -, rfl⟩ := List.mem_map.mp hc
  exact base64Chr_matches n

def base64Tail : RegularExpression CodePoint :=
  base64Digit ^ 2 * exactly (text "==") + base64Digit ^ 3 * exactly (text "=") + 1

theorem b64encode_matches (data : Bytes) : b64encode data ∈ base64Pattern.matches' := by
  have tail_only : ∀ t, t ∈ base64Tail.matches' → t ∈ base64Pattern.matches' := fun t ht =>
    mem_mul (s := []) (Language.nil_mem_kstar _) ht
  induction data using b64encode.induct with
  | case1 => exact tail_only [] (.inr rfl)
  | case2 a =>
    exact tail_only _ (.inl (.inl
      (mem_mul (base64Text_matches [a.toNat / 4, a.toNat % 4 * 16]) (mem_exactly (text "==")))))
  | case3 a b =>
    exact tail_only _ (.inl (.inr (mem_mul
      (base64Text_matches
        [a.toNat / 4, a.toNat % 4 * 16 + b.toNat / 16, b.toNat % 16 * 4])
      (mem_exactly (text "=")))))
  | case4 a b c rest ih =>
    obtain ⟨groups, hgroups, tail, htail, happend⟩ := ih
    obtain ⟨texts, rfl, htexts⟩ := Language.mem_kstar.mp hgroups
    let numbers := [a.toNat / 4, a.toNat % 4 * 16 + b.toNat / 16, b.toNat % 16 * 4 + c.toNat / 64,
      c.toNat % 64]
    let group := numbers.map base64Chr
    have hgroup : group ∈ (base64Digit ^ 4).matches' := base64Text_matches numbers
    refine ⟨(group :: texts).flatten, ?_, tail, htail, ?_⟩
    · exact Language.join_mem_kstar (List.forall_mem_cons.mpr ⟨hgroup, htexts⟩)
    · show (group :: texts).flatten ++ tail = b64encode (a :: b :: c :: rest)
      rw [b64encode, ← happend, List.flatten_cons, List.append_assoc]
      rfl

theorem hexDigit_matches {n : ℕ} (h : n < 16) : [hexDigit n] ∈ lowerHexDigit.matches' := by
  apply mem_oneOfCodes
  revert n
  decide

theorem hexPair_matches (b : UInt8) : hexPair b ∈ (lowerHexDigit ^ 2).matches' := by
  have hb := b.toNat_lt
  refine mem_pow_length (t := hexPair b) ?_
  intro c hc
  rcases List.mem_cons.mp hc with rfl | hc
  · exact hexDigit_matches (by omega)
  · rw [List.mem_singleton.mp hc]
    exact hexDigit_matches (by omega)

theorem hexText_matches (data : Bytes) : hexText data ∈ hexPattern.matches' :=
  flatMap_mem_star hexPair_matches data

theorem escapedByte_matches (b : UInt8) :
    escapedByte b ∈ (oneOfCodes (codePoints ' ' '[' ++ codePoints ']' '~')
      + exactly (text "\\\\") + exactly (text "\\x") * lowerHexDigit ^ 2).matches' := by
  unfold escapedByte
  split_ifs with h h₁
  · refine .inl (.inl (mem_oneOfCodes (List.mem_append.mpr ?_)))
    have hspace : (' ' : Char).toNat = 0x20 := rfl
    have hopen : ('[' : Char).toNat = 0x5b := rfl
    have hclose : (']' : Char).toNat = 0x5d := rfl
    have htilde : ('~' : Char).toNat = 0x7e := rfl
    have hne : b.toNat ≠ 0x5c := fun he => h.2.2 (UInt8.toNat_inj.mp he)
    rcases Nat.lt_or_ge b.toNat 0x5c with hlt | hge
    · exact .inl (mem_codePoints (by simp only [hspace]; omega) (by simp only [hopen]; omega))
    · exact .inr (mem_codePoints (by simp only [hclose]; omega) (by simp only [htilde]; omega))
  · exact .inl (.inr (mem_exactly (text "\\\\")))
  · exact .inr (mem_mul (mem_exactly (text "\\x")) (hexPair_matches b))

theorem escapedBytes_matches (data : Bytes) : escapedBytes data ∈ escapedPattern.matches' :=
  flatMap_mem_star escapedByte_matches data

variable {F E : Type}

theorem pattern_of_mem {p : RegularExpression CodePoint} {t : Text} (h : t ∈ p.matches') :
    pattern (F := F) (E := E) p (.str t) := by
  rw [pattern, RegularExpression.rmatch_iff_matches']
  exact h

variable [PyFloat F]

def contentRule : BytesEncoding → JsonSchema F E
  | .base64 => base64Content
  | .hex => hexContent
  | .byteArray => byteArrayContent
  | .escaped => escapedContent

private theorem byteArrayContent_bytesData (data : Bytes) :
    byteArrayContent (F := F) (E := E) (bytesData data .byteArray) := by
  simp only [byteArrayContent, allOf, bytesData, List.all_cons, List.all_nil, Bool.and_true, type,
    items, List.all_map, Bool.and_eq_true, decide_eq_true_eq, List.all_eq_true, true_and,
    Function.comp_apply, minimum, maximum]
  intro b _
  have hb := b.toNat_lt
  omega

theorem contentRule_bytesData (data : Bytes) (encoding : BytesEncoding) :
    contentRule (F := F) (E := E) encoding (bytesData data encoding) := by
  cases encoding with
  | base64 => simp [contentRule, base64Content, allOf, bytesData, type,
      pattern_of_mem (b64encode_matches data)]
  | hex => simp [contentRule, hexContent, allOf, bytesData, type,
      pattern_of_mem (hexText_matches data)]
  | byteArray => exact byteArrayContent_bytesData data
  | escaped => simp [contentRule, escapedContent, allOf, bytesData, type,
      pattern_of_mem (escapedBytes_matches data)]

theorem encodedBytes_bytesData (data : Bytes) (encoding : BytesEncoding) :
    encodedBytes (F := F) (E := E) (bytesData data encoding) := by
  cases encoding with
  | byteArray =>
    have h := byteArrayContent_bytesData (F := F) (E := E) data
    simp only [encodedBytes, oneOf, List.countP_cons, List.countP_nil, h]
    simp [bytesData, type]
  | _ => simp [encodedBytes, oneOf, bytesData, type, byteArrayContent, allOf]

end Kaskade.ConsumerRecordSchema
