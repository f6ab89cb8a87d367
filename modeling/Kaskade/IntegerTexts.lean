import Kaskade.ResetForms

/-!
# Integers in canonical form

`str(int(value))`: what `int` accepts has no more digits than it converts, so `str` prints it, and
printed integers are read back as they are.
-/

namespace Kaskade

open Python

/-- `str(number)`. -/
def Conversions.str {D : Type} (python : Conversions D) (number : ℤ) : Outcome Text :=
  if python.maxDigits < (natText number.natAbs).length then
    .error ⟨.valueError, text "Exceeds the limit (" ++ natText python.maxDigits
      ++ text " digits) for integer string conversion; "
      ++ text "use sys.set_int_max_str_digits() to increase the limit"⟩
  else .ok (intText number)

theorem decimalValue?_lt {c : CodePoint} {d : ℕ} (h : decimalValue? c = some d) : d < 10 := by
  obtain ⟨first, hfirst, rfl⟩ := Option.map_eq_some_iff.mp h
  have hrange := List.find?_some hfirst
  rw [decide_eq_true_eq] at hrange
  omega

theorem digitRun_eq_some {t : Text} {ds : List ℕ} (h : digitRun t = some ds) :
    ds ≠ [] ∧ ∀ d ∈ ds, d < 10 := by
  induction t using digitRun.induct generalizing ds with
  | case1 => cases h
  | case2 c t hc =>
    rw [digitRun, hc] at h
    cases h
  | case3 c d hd =>
    rw [digitRun, hd] at h
    cases h
    exact ⟨List.cons_ne_nil _ _, List.forall_mem_singleton.mpr (decimalValue?_lt hd)⟩
  | case4 c d hd rest ih =>
    rw [digitRun, hd] at h
    simp only [if_true] at h
    obtain ⟨later, hlater, rfl⟩ := Option.map_eq_some_iff.mp h
    exact ⟨List.cons_ne_nil _ _, List.forall_mem_cons.mpr ⟨decimalValue?_lt hd, (ih hlater).2⟩⟩
  | case5 c d hd u rest hu ih =>
    rw [digitRun, hd] at h
    simp only [if_neg hu] at h
    obtain ⟨later, hlater, rfl⟩ := Option.map_eq_some_iff.mp h
    exact ⟨List.cons_ne_nil _ _, List.forall_mem_cons.mpr ⟨decimalValue?_lt hd, (ih hlater).2⟩⟩

/-- A number has no more digits than the text it was read from may have. -/
theorem parseInt?_length {limit : ℕ} {t : Text} {number : ℤ}
    (h : parseInt? limit t = some number) : (natText number.natAbs).length ≤ limit := by
  rw [parseInt?] at h
  dsimp only at h
  split at h
  case h_1 => cases h
  case h_2 ds hds =>
    obtain ⟨hne, hdigits⟩ := digitRun_eq_some hds
    have hvalue : ¬ limit < ds.length ∧
        number.natAbs = ds.foldl (fun acc d => 10 * acc + d) 0 := by
      split_ifs at h with hlimit hnegative
      · rw [← Option.some.inj h, Int.natAbs_neg, Int.natAbs_natCast]
        exact ⟨hlimit, rfl⟩
      · rw [← Option.some.inj h, Int.natAbs_natCast]
        exact ⟨hlimit, rfl⟩
    have hlt : number.natAbs < 10 ^ ds.length := by
      rw [hvalue.2]
      simpa using foldl_digits_lt hdigits 0
    have hlength : (natText number.natAbs).length ≤ ds.length := by
      rw [natText, List.length_map,
        Nat.length_toDigits_le_iff (by decide) (List.length_pos_iff.mpr hne)]
      exact hlt
    omega

theorem decimalValue?_of_isDigit {c : CodePoint} (h : isDigit c) :
    decimalValue? c = some (c.val - 0x30) := by
  rw [isDigit, decide_eq_true_eq] at h
  have hfind : decimalZeros.find? (fun z => z ≤ c.val ∧ c.val < z + 10) = some 0x30 := by
    rw [decimalZeros, List.find?_cons_of_pos (by simp; omega)]
  rw [decimalValue?, hfind]
  rfl

theorem isdigitChr_of_isDigit {c : CodePoint} (h : isDigit c) : isdigitChr c := by
  rw [isdigitChr, decimalValue?_of_isDigit h]
  rfl

theorem digitRun_natText (n : ℕ) : digitRun (natText n) = some ((natText n).map (·.val - 0x30)) := by
  rw [digitRun_eq (natText_ne_nil n) fun c hc => isdigitChr_of_isDigit (isDigit_of_mem_natText hc)]
  have hmap : ∀ t : Text, (∀ c ∈ t, isDigit c) →
      t.mapM decimalValue? = some (t.map (·.val - 0x30)) := by
    intro t ht
    induction t with
    | nil => rfl
    | cons c t ih =>
      rw [List.forall_mem_cons] at ht
      rw [List.mapM_cons, decimalValue?_of_isDigit ht.1, ih ht.2]
      rfl
  exact hmap _ fun c hc => isDigit_of_mem_natText hc

theorem foldl_natText (n : ℕ) :
    ((natText n).map (·.val - 0x30)).foldl (fun acc d => 10 * acc + d) 0 = n := by
  rw [List.foldl_map]
  exact digitsValue_natText n

theorem head_natText (n : ℕ) {c : CodePoint} (hc : isDigit c = false) :
    ((natText n).head? == some c) = false := by
  rw [beq_eq_false_iff_ne]
  intro hhead
  rw [isDigit_of_mem_natText (List.mem_of_mem_head? hhead)] at hc
  cases hc

/-- A printed integer is read back, unless it has too many digits. -/
theorem parseInt?_intText (limit : ℕ) (number : ℤ) :
    parseInt? limit (intText number) =
      if limit < (natText number.natAbs).length then none else some number := by
  rw [intText_eq, parseInt?]
  by_cases hnegative : number < 0
  · simp only [hnegative, decide_true, if_true, List.singleton_append, List.head?_cons, beq_self_eq_true,
      Bool.true_or, List.tail_cons, digitRun_natText, List.length_map, foldl_natText]
    split_ifs
    · rfl
    · congr 1
      omega
  · simp only [hnegative, decide_false, Bool.false_eq_true, if_false, List.nil_append,
      head_natText number.natAbs (show isDigit (chr '-') = false by decide),
      head_natText number.natAbs (show isDigit (chr '+') = false by decide), Bool.or_self,
      digitRun_natText, List.length_map, foldl_natText]
    split_ifs
    · rfl
    · congr 1
      omega

theorem strip_intText (number : ℤ) : strip (intText number) = intText number := by
  apply strip_eq_self
  rw [intText_eq, List.forall_mem_append]
  constructor
  · intro c hc
    split_ifs at hc
    · rw [List.mem_singleton.mp hc]
      decide
    · cases hc
  · intro c hc
    exact isSpace_of_isdigitChr (isdigitChr_of_isDigit (isDigit_of_mem_natText hc))

section Conversions

variable {D : Type} {python : Conversions D} {number : ℤ}

theorem int_intText {read : ℤ} (h : python.int (intText number) = .ok read) : read = number := by
  rw [Conversions.int, strip_intText, parseInt?_intText] at h
  split_ifs at h
  · exact (Except.ok.inj h).symm

theorem str_of_int {value : Text} (h : python.int value = .ok number) :
    python.str number = .ok (intText number) := by
  rw [Conversions.int] at h
  cases hparse : parseInt? python.maxDigits (strip value) with
  | none =>
    rw [hparse] at h
    cases h
  | some read =>
    rw [hparse] at h
    cases h
    rw [Conversions.str, if_neg (Nat.not_lt.mpr (parseInt?_length hparse))]

end Conversions

end Kaskade
