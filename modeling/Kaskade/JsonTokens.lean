import Kaskade.JsonParsing

/-!
# Printed JSON tokens scan back

The scanners consume exactly the text that `dumps` prints for a string, a number or a
constant, whatever follows it, and return what was printed.
-/

namespace Kaskade.Python

theorem skipSpace_append {ws : Text} (h : ∀ c ∈ ws, isJsonSpace c) (t : Text) :
    skipSpace (ws ++ t) = skipSpace t :=
  List.dropWhile_append_of_pos h

theorem skipSpace_cons {c : CodePoint} (h : isJsonSpace c = false) (t : Text) :
    skipSpace (c :: t) = c :: t := by
  rw [skipSpace, List.dropWhile_cons_of_neg (by simp [h])]

theorem isJsonSpace_of_mem_newline {L : Layout} {level : ℕ} {c : CodePoint}
    (h : c ∈ L.newline level) : isJsonSpace c := by
  unfold Layout.newline at h
  split at h
  · cases h
  · rcases List.mem_cons.mp h with rfl | h
    · decide
    · rw [List.eq_of_mem_replicate h]
      decide

theorem skipSpace_newline (L : Layout) (level : ℕ) (t : Text) :
    skipSpace (L.newline level ++ t) = skipSpace t :=
  skipSpace_append (fun _ h => isJsonSpace_of_mem_newline h) t

/-- Whether a code point is printed as a `\u` escape. -/
def printsAsCode (c : CodePoint) : Bool :=
  c.val < 0x20 && c != chr '\n' && c != chr '\r' && c != chr '\t' && c.val != 0x0c && c.val != 0x08

private theorem scanUnits_hex_digits (start mark : ℕ) {a b : CodePoint} {m n : ℕ}
    (ha : hexValue? a = some m) (hb : hexValue? b = some n) {t : Text} (ht : t ≠ []) :
    scanUnits start (.hex mark 1 0) (a :: b :: t) =
      (scanUnits start .plain t).as ((Fin.ofNat 0x110000 (m * 16 + n), true) :: ·) := by
  have hne : t.isEmpty = false := by simpa using ht
  simp [scanUnits, ha, hb, hne]

theorem scanUnits_escapeChar (start : ℕ) (c : CodePoint) {t : Text} (ht : t ≠ []) :
    scanUnits start .plain (escapeChar c ++ t) =
      (scanUnits start .plain t).as ((c, printsAsCode c) :: ·) := by
  let P (escape : Text) : Prop :=
    scanUnits start .plain (escape ++ t) =
      (scanUnits start .plain t).as ((c, printsAsCode c) :: ·)
  have hite : ∀ {p : Prop} [Decidable p] {a b : Text}, (p → P a) → (¬ p → P b) →
      P (if p then a else b) := iteInduction
  refine hite (fun h₁ => ?_) fun h₁ => hite (fun h₂ => ?_) fun h₂ =>
    hite (fun h₃ => ?_) fun h₃ => ?_
  · subst h₁; rfl
  · subst h₂; rfl
  · subst h₃; rfl
  refine hite (fun h₄ => ?_) fun h₄ => hite (fun h₅ => ?_) fun h₅ =>
    hite (fun h₆ => ?_) fun h₆ => ?_
  · subst h₄; rfl
  · subst h₅; rfl
  · obtain rfl : c = 0x0c := Fin.ext h₆
    rfl
  refine hite (fun h₇ => ?_) fun h₇ => hite (fun h₈ => ?_) fun h₈ => ?_
  · obtain rfl : c = 0x08 := Fin.ext h₇
    rfl
  · have hcode : printsAsCode c = true := by simp [printsAsCode, h₃, h₄, h₅, h₆, h₇, h₈]
    have hhigh := hexValue?_hexDigit (n := c.val / 16) (by omega)
    have hlow := hexValue?_hexDigit (n := c.val % 16) (by omega)
    have hval : Fin.ofNat 0x110000 (c.val / 16 * 16 + c.val % 16) = c := by
      apply Fin.ext
      rw [Fin.val_ofNat, Nat.mod_eq_of_lt (by omega)]
      omega
    obtain ⟨mark, hm⟩ : ∃ mark, scanUnits start .plain
        (text "\\u00" ++ [hexDigit (c.val / 16), hexDigit (c.val % 16)] ++ t) =
          scanUnits start (.hex mark 1 0) (hexDigit (c.val / 16) :: hexDigit (c.val % 16) :: t) :=
      ⟨_, rfl⟩
    change scanUnits start .plain (_ ++ t) = _
    rw [hm, scanUnits_hex_digits start mark hhigh hlow ht, hval, hcode]
  · have hcode : printsAsCode c = false := by simp [printsAsCode, h₈]
    change scanUnits start .plain (_ ++ t) = _
    rw [List.singleton_append, scanUnits, if_neg h₁, if_neg h₂, if_neg h₈, hcode]

theorem scanUnits_flatMap (start : ℕ) (s t : Text) :
    scanUnits start .plain (s.flatMap escapeChar ++ chr '"' :: t) =
      .ok (s.map (fun c => (c, printsAsCode c)), t) := by
  induction s with
  | nil => rfl
  | cons c s ih =>
    rw [List.flatMap_cons, List.append_assoc, scanUnits_escapeChar start c (by simp), ih]
    rfl

/-- Only an escaped surrogate can join the escape after it. -/
theorem joinEscapes_eq {us : List StringUnit}
    (h : ∀ u ∈ us, u.2 → isSurrogate u.1 = false) : joinEscapes us = us.map Prod.fst := by
  induction us using joinEscapes.induct with
  | case1 => rfl
  | case2 u => rfl
  | case3 u w rest hj ih =>
    have hs := h u List.mem_cons_self hj.1
    rw [isSurrogate, decide_eq_false_iff_not] at hs
    omega
  | case4 u w rest hj ih =>
    rw [joinEscapes, if_neg hj, ih (fun v hv => h v (List.mem_cons_of_mem u hv)), List.map_cons,
      List.map_cons, List.map_cons]

/-- A printed string literal is scanned back, whatever follows it. -/
theorem scanString_quoted (s t : Text) :
    scanString (s.flatMap escapeChar ++ chr '"' :: t) = .ok (s, t) := by
  have hj : joinEscapes (s.map (fun c => (c, printsAsCode c))) = s := by
    rw [joinEscapes_eq, List.map_map]
    · exact List.map_id s
    · intro u hu hcode
      obtain ⟨c, -, rfl⟩ := List.mem_map.mp hu
      have hlt : c.val < 0x20 := by
        simp only [printsAsCode, Bool.and_eq_true, decide_eq_true_eq] at hcode
        omega
      show isSurrogate c = false
      rw [isSurrogate, decide_eq_false_iff_not]
      omega
  rw [scanString, scanUnits_flatMap, Scan.as_ok, hj]

def EndsNumber (t : Text) : Prop :=
  ∀ c, t.head? = some c → isDigit c = false ∧ c ≠ chr '.' ∧ c ≠ chr 'e' ∧ c ≠ chr 'E'

theorem takeWhile_digits {ds t : Text} (hds : ∀ c ∈ ds, isDigit c)
    (ht : ∀ c, t.head? = some c → isDigit c = false) :
    (ds ++ t).takeWhile isDigit = ds ∧ (ds ++ t).dropWhile isDigit = t := by
  rw [List.takeWhile_append_of_pos hds, List.dropWhile_append_of_pos hds]
  cases t with
  | nil => simp
  | cons c t =>
    have hc := ht c rfl
    simp [hc]

theorem wholeDigits?_natText (n : ℕ) {t : Text}
    (ht : ∀ c, t.head? = some c → isDigit c = false) :
    wholeDigits? (natText n ++ t) = some (natText n, t) := by
  by_cases hn : n = 0
  · subst hn
    rw [natText_zero]
    rfl
  · obtain ⟨c, ds, hc⟩ := List.exists_cons_of_ne_nil (natText_ne_nil n)
    have hzero : c ≠ chr '0' := by
      intro he
      have hh := natText_head_ne_zero hn
      rw [hc, he] at hh
      exact hh rfl
    have hdigit : isDigit c := isDigit_of_mem_natText (n := n) (by rw [hc]; exact List.mem_cons_self)
    obtain ⟨htake, hdrop⟩ := takeWhile_digits (fun c hc => isDigit_of_mem_natText (n := n) hc) ht
    rw [hc] at htake hdrop ⊢
    rw [List.cons_append] at htake hdrop ⊢
    simp only [wholeDigits?, if_neg hzero, hdigit, if_true, htake, hdrop]

theorem isDigit_digitChr (d : Fin 10) : isDigit (digitChr d) := by
  revert d
  decide

theorem digitOf_digitChr (d : Fin 10) : digitOf (digitChr d) = d := by
  revert d
  decide

def isNumberChr (c : CodePoint) : Bool := isDigit c || c ∈ text "+-.e"

theorem isNumberChr_of_isDigit {c : CodePoint} (h : isDigit c) : isNumberChr c := by
  rw [isNumberChr, h, Bool.true_or]

theorem isNumberChr_of_mem_natText {n : ℕ} {c : CodePoint} (h : c ∈ natText n) : isNumberChr c :=
  isNumberChr_of_isDigit (isDigit_of_mem_natText h)

/-- A sign or a leading zero, which may be left out. -/
theorem isNumberChr_of_mem_ite {b : Prop} [Decidable b] {d c : CodePoint} (hd : isNumberChr d)
    (h : c ∈ if b then [d] else []) : isNumberChr c := by
  split_ifs at h
  · exact List.mem_singleton.mp h ▸ hd
  · cases h

theorem isNumberChr_of_mem_intText {i : ℤ} {c : CodePoint} (h : c ∈ intText i) : isNumberChr c := by
  rw [intText_eq] at h
  rcases List.mem_append.mp h with hsign | hdigits
  · exact isNumberChr_of_mem_ite (by decide) hsign
  · exact isNumberChr_of_mem_natText hdigits

theorem isNumberChr_of_mem_exponentText {e : ℤ} {c : CodePoint} (h : c ∈ exponentText e) :
    isNumberChr c := by
  rcases List.mem_cons.mp h with rfl | h
  · decide
  rcases List.mem_cons.mp h with rfl | h
  · split_ifs <;> decide
  rcases List.mem_append.mp h with hzero | hdigits
  · exact isNumberChr_of_mem_ite (by decide) hzero
  · exact isNumberChr_of_mem_natText hdigits

theorem isNumberChr_of_mem_fractionText {l : FloatLiteral} {c : CodePoint}
    (h : c ∈ l.fractionText) : isNumberChr c := by
  rw [FloatLiteral.fractionText] at h
  split_ifs at h
  · cases h
  rcases List.mem_cons.mp h with rfl | h
  · decide
  · obtain ⟨d, -, rfl⟩ := List.mem_map.mp h
    exact isNumberChr_of_isDigit (isDigit_digitChr d)

theorem isNumberChr_of_mem_literal {l : FloatLiteral} {c : CodePoint} (h : c ∈ l.text) :
    isNumberChr c := by
  rcases List.mem_append.mp h with h | hexponent
  · rcases List.mem_append.mp h with h | hfraction
    · rcases List.mem_append.mp h with hsign | hwhole
      · exact isNumberChr_of_mem_ite (by decide) hsign
      · exact isNumberChr_of_mem_natText hwhole
    · exact isNumberChr_of_mem_fractionText hfraction
  · cases he : l.exponent with
    | none => simp [he] at hexponent
    | some e =>
      rw [he] at hexponent
      exact isNumberChr_of_mem_exponentText hexponent

def EndsFraction (t : Text) : Prop :=
  ∀ c, t.head? = some c → isDigit c = false ∧ c ≠ chr '.'

theorem EndsNumber.endsFraction {t : Text} (h : EndsNumber t) : EndsFraction t :=
  fun c hc => ⟨(h c hc).1, (h c hc).2.1⟩

theorem fractionDigits_none {t : Text} (ht : EndsFraction t) : fractionDigits t = ([], t) := by
  cases t with
  | nil => rfl
  | cons c t => rw [fractionDigits, if_neg (ht c rfl).2]

theorem fractionDigits_text (l : FloatLiteral) {t : Text} (ht : EndsFraction t) :
    fractionDigits (l.fractionText ++ t) = (l.fraction.map digitChr, t) := by
  by_cases hf : l.fraction = []
  · rw [FloatLiteral.fractionText, if_pos hf, hf]
    exact fractionDigits_none ht
  · have hds : ∀ c ∈ l.fraction.map digitChr, isDigit c := by
      intro c hc
      obtain ⟨d, -, rfl⟩ := List.mem_map.mp hc
      exact isDigit_digitChr d
    obtain ⟨htake, hdrop⟩ := takeWhile_digits hds (fun c hc => (ht c hc).1)
    rw [FloatLiteral.fractionText, if_neg hf, List.cons_append, fractionDigits, if_pos rfl, htake,
      hdrop, if_neg (by simpa using hf)]

private theorem digitsValue_zero_cons (ds : Text) :
    digitsValue (chr '0' :: ds) = digitsValue ds := rfl

theorem exponentPart_text (exponent : Option ℤ) {t : Text} (ht : EndsNumber t) :
    exponentPart ((exponent.map exponentText).getD [] ++ t) = (exponent, t) := by
  cases exponent with
  | none =>
    cases t with
    | nil => rfl
    | cons c t => simp [exponentPart, (ht c rfl).2.2.1, (ht c rfl).2.2.2]
  | some e =>
    let ds := (if e.natAbs < 10 then [chr '0'] else []) ++ natText e.natAbs
    have hds : ∀ c ∈ ds, isDigit c := by
      intro c hc
      rcases List.mem_append.mp hc with hc | hc
      · split_ifs at hc with h
        · rw [List.mem_singleton.mp hc]
          decide
        · cases hc
      · exact isDigit_of_mem_natText hc
    have hvalue : digitsValue ds = e.natAbs := by
      by_cases h : e.natAbs < 10
      · simp only [ds, if_pos h, List.singleton_append, digitsValue_zero_cons, digitsValue_natText]
      · simp only [ds, if_neg h, List.nil_append, digitsValue_natText]
    have hne : ds ≠ [] := by simp [ds, natText_ne_nil]
    obtain ⟨htake, hdrop⟩ := takeWhile_digits hds (fun c hc => (ht c hc).1)
    by_cases hneg : e < 0
    · have hv : -(e.natAbs : ℤ) = e := by omega
      have htext : (Option.map exponentText (some e)).getD [] ++ t = chr 'e' :: chr '-' :: (ds ++ t) := by
        simp [exponentText, hneg, ds]
      have hpart : exponentPart (chr 'e' :: chr '-' :: (ds ++ t)) = (some (-(e.natAbs : ℤ)), t) := by
        simp [exponentPart, htake, hdrop, hne, hvalue]
      rw [htext, hpart, hv]
    · have hv : (e.natAbs : ℤ) = e := by omega
      have htext : (Option.map exponentText (some e)).getD [] ++ t = chr 'e' :: chr '+' :: (ds ++ t) := by
        simp [exponentText, hneg, ds]
      have hpart : exponentPart (chr 'e' :: chr '+' :: (ds ++ t)) = (some (e.natAbs : ℤ), t) := by
        simp [exponentPart, htake, hdrop, hne, hvalue]
      rw [htext, hpart, hv]

variable {F E : Type} [PyFloat F]

theorem head_natText_append (n : ℕ) (t : Text) :
    ∃ c ds, natText n ++ t = c :: ds ∧ isDigit c := by
  obtain ⟨c, ds, hc⟩ := List.exists_cons_of_ne_nil (natText_ne_nil n)
  exact ⟨c, ds ++ t, by rw [hc, List.cons_append],
    isDigit_of_mem_natText (n := n) (by rw [hc]; exact List.mem_cons_self)⟩

private theorem ne_minus_of_isDigit {c : CodePoint} (h : isDigit c) : c ≠ chr '-' := by
  rintro rfl
  cases h

/-- The sign of a printed number is what `scanNumber` strips. -/
private theorem sign_stripped (negative : Bool) (n : ℕ) (t : Text) :
    let signed := (if negative then [chr '-'] else []) ++ (natText n ++ t)
    (signed.head? == some (chr '-')) = negative ∧
      (if negative then signed.tail else signed) = natText n ++ t := by
  cases negative with
  | true => simp
  | false =>
    obtain ⟨c, ds, hc, hd⟩ := head_natText_append n t
    simp [hc, ne_minus_of_isDigit hd]

theorem EndsNumber.not_digit {t : Text} (h : EndsNumber t) :
    ∀ c, t.head? = some c → isDigit c = false := fun c hc => (h c hc).1

theorem scanNumber_literal (lim : JsonLimits) (l : FloatLiteral) {t : Text} (ht : EndsNumber t) :
    scanNumber (F := F) (E := E) lim (l.text ++ t) =
      .ok (.float (PyFloat.ofRepr (.literal l)), t) := by
  have htext : l.text ++ t = (if l.negative then [chr '-'] else []) ++
      (natText l.whole ++ (l.fractionText ++ ((l.exponent.map exponentText).getD [] ++ t))) := by
    simp [FloatLiteral.text]
  obtain ⟨hsign, hbody⟩ := sign_stripped l.negative l.whole
    (l.fractionText ++ ((l.exponent.map exponentText).getD [] ++ t))
  have hexp : EndsFraction ((l.exponent.map exponentText).getD [] ++ t) := by
    intro c hc
    cases he : l.exponent with
    | none =>
      rw [he] at hc
      exact ht.endsFraction c hc
    | some e =>
      rw [he] at hc
      obtain rfl : chr 'e' = c := by simpa [exponentText] using hc
      decide
  have hfrac : ∀ c, (l.fractionText ++ ((l.exponent.map exponentText).getD [] ++ t)).head? = some c →
      isDigit c = false := by
    intro c hc
    unfold FloatLiteral.fractionText at hc
    split_ifs at hc with h
    · exact (hexp c hc).1
    · obtain rfl : chr '.' = c := by simpa using hc
      decide
  have hdigits : (l.fraction.map digitChr).map digitOf = l.fraction := by
    rw [List.map_map]
    exact (List.map_congr_left (fun d _ => digitOf_digitChr d)).trans (List.map_id _)
  rw [htext, scanNumber]
  simp only [hsign, hbody, wholeDigits?_natText l.whole hfrac, fractionDigits_text l hexp,
    exponentPart_text l.exponent ht, hdigits, digitsValue_natText]
  rw [dif_pos l.proper]

/-- A printed integer is scanned back if the reader converts that many digits. -/
theorem scanNumber_intText (lim : JsonLimits) (i : ℤ) {t : Text} (ht : EndsNumber t)
    (hi : (natText i.natAbs).length ≤ lim.digits) :
    scanNumber (F := F) (E := E) lim (intText i ++ t) = .ok (.int i, t) := by
  have hvalue : (if decide (i < 0) then -((i.natAbs : ℕ) : ℤ) else (i.natAbs : ℕ)) = i := by
    by_cases h : i < 0
    · simp only [h, decide_true, if_true]
      omega
    · simp only [h, decide_false, Bool.false_eq_true, if_false]
      omega
  obtain ⟨hsign, hbody⟩ := sign_stripped (decide (i < 0)) i.natAbs t
  have hfraction : fractionDigits t = ([], t) := fractionDigits_none ht.endsFraction
  have hexponent : exponentPart t = (none, t) := by
    simpa using exponentPart_text none ht
  rw [intText_eq, List.append_assoc, scanNumber]
  simp only [hsign, hbody, wholeDigits?_natText i.natAbs ht.not_digit, hfraction, hexponent,
    digitsValue_natText, hvalue]
  rw [dif_neg (by simp), if_neg (by omega)]

private theorem scanConstant_ne {c : CodePoint} (t : Text) (h : c ∉ text "ntfNI-") :
    scanConstant (F := F) (E := E) (c :: t) = none := by
  rw [scanConstant, List.findSome?_eq_none_iff]
  intro wv hwv
  obtain ⟨w, ws, hw, hmem⟩ : ∃ w ws, wv.1 = w :: ws ∧ w ∈ text "ntfNI-" := by
    simp only [constants, List.mem_cons, List.not_mem_nil, or_false] at hwv
    rcases hwv with rfl | rfl | rfl | rfl | rfl | rfl
    all_goals exact ⟨_, _, rfl, by decide⟩
  have hne : w ≠ c := fun he => h (he ▸ hmem)
  simp [hw, List.isPrefixOf, beq_eq_false_iff_ne.mpr hne]

theorem scanConstant_digit {c : CodePoint} (h : isDigit c) (t : Text) :
    scanConstant (F := F) (E := E) (c :: t) = none := by
  apply scanConstant_ne
  intro hc
  have hnone : (text "ntfNI-").all (fun w => !isDigit w) := by decide +kernel
  have hc := List.all_eq_true.mp hnone c hc
  simp [h] at hc

theorem scanConstant_minus_digit {c : CodePoint} (h : isDigit c) (t : Text) :
    scanConstant (F := F) (E := E) (chr '-' :: c :: t) = none := by
  have hI : chr 'I' ≠ c := by
    rintro rfl
    cases h
  simp [scanConstant, constants, text, List.findSome?, hI]

end Kaskade.Python
