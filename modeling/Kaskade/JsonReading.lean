import Kaskade.JsonRoundTrip

/-!
# What reading JSON yields

A value that `json.loads` returns holds JSON only, with distinct keys, within the limits of
the reader. Every scanner shortens its text, so the turns that the scanners of lists and
dictionaries count never run out.
-/

namespace Kaskade.Python

/-- Every unit of a string, and its closing quote, takes at least one code point. -/
theorem scanUnits_length {start : ℕ} {state : StringState} {t : Text} {us : List StringUnit}
    {r : Text} (h : scanUnits start state t = .ok (us, r)) : us.length + r.length < t.length := by
  induction state, t using scanUnits.induct generalizing us r with
  | case1 => simp [scanUnits] at h
  | case2 state hstate =>
    cases state <;> simp [scanUnits] at h
  | case3 t =>
    simp only [scanUnits, if_true, Except.ok.injEq, Prod.mk.injEq] at h
    obtain ⟨rfl, rfl⟩ := h
    simp
  | case4 t hquote ih =>
    simp only [scanUnits, if_neg hquote, if_true] at h
    have := ih h
    simp only [List.length_cons]
    omega
  | case5 c t hquote hback hcontrol => simp [scanUnits, hquote, hback, hcontrol] at h
  | case6 c t hquote hback hcontrol ih =>
    rw [scanUnits, if_neg hquote, if_neg hback, if_neg hcontrol, Scan.as_eq_ok] at h
    obtain ⟨us', hus, rfl⟩ := h
    have := ih hus
    simp only [List.length_cons]
    omega
  | case7 t ih =>
    simp only [scanUnits, if_true] at h
    have := ih h
    simp only [List.length_cons]
    omega
  | case8 c t hu hsimple => simp [scanUnits, hu, hsimple] at h
  | case9 c t hu e hsimple ih =>
    rw [scanUnits, if_neg hu, hsimple] at h
    obtain ⟨us', hus, rfl⟩ := Scan.as_eq_ok.mp h
    have := ih hus
    simp only [List.length_cons]
    omega
  | case10 mark owed acc c t hhex => simp [scanUnits, hhex] at h
  | case11 mark owed acc c t d hhex howed ih =>
    simp only [scanUnits, hhex, if_pos howed] at h
    have := ih h
    simp only [List.length_cons]
    omega
  | case12 mark owed acc c t d hhex howed hempty =>
    simp [scanUnits, hhex, howed, hempty] at h
  | case13 mark owed acc c t d hhex howed hempty ih =>
    simp only [scanUnits, hhex, if_neg howed, if_neg hempty] at h
    obtain ⟨us', hus, rfl⟩ := Scan.as_eq_ok.mp h
    have := ih hus
    simp only [List.length_cons]
    omega

theorem joinEscapes_length_le (us : List StringUnit) : (joinEscapes us).length ≤ us.length := by
  induction us using joinEscapes.induct with
  | case1 => exact Nat.le_refl _
  | case2 u => exact Nat.le_refl _
  | case3 u w rest hj ih =>
    rw [joinEscapes, if_pos hj]
    simp only [List.length_cons]
    omega
  | case4 u w rest hj ih =>
    rw [joinEscapes, if_neg hj]
    simp only [List.length_cons] at ih ⊢
    omega

theorem scanString_length {t s r : Text} (h : scanString t = .ok (s, r)) :
    s.length < t.length ∧ r.length < t.length := by
  obtain ⟨us, hus, rfl⟩ := Scan.as_eq_ok.mp h
  have hunits := scanUnits_length hus
  have hjoin := joinEscapes_length_le us
  omega

theorem natText_digitsValue_length {ds : Text} (hne : ds ≠ []) (h : ∀ c ∈ ds, isDigit c) :
    (natText (digitsValue ds)).length ≤ ds.length := by
  rw [natText, List.length_map,
    Nat.length_toDigits_le_iff (by decide) (List.length_pos_iff.mpr hne)]
  exact digitsValue_lt h

theorem wholeDigits?_eq_some {t whole r : Text} (h : wholeDigits? t = some (whole, r)) :
    whole ≠ [] ∧ (∀ c ∈ whole, isDigit c) ∧ t = whole ++ r := by
  cases t with
  | nil => cases h
  | cons c t =>
    rw [wholeDigits?] at h
    split_ifs at h with hzero hdigit
    · obtain ⟨rfl, rfl⟩ := Prod.mk.inj (Option.some.inj h)
      subst hzero
      exact ⟨by simp, by simpa using by decide, rfl⟩
    · obtain ⟨rfl, rfl⟩ := Prod.mk.inj (Option.some.inj h)
      refine ⟨by simp [hdigit], fun d hd => ?_, (List.takeWhile_append_dropWhile).symm⟩
      exact List.mem_takeWhile_imp hd

theorem fractionDigits_length (t : Text) : (fractionDigits t).2.length ≤ t.length := by
  cases t with
  | nil => exact Nat.le_refl _
  | cons c t =>
    rw [fractionDigits]
    split_ifs
    · exact Nat.le_refl _
    · exact Nat.le_succ_of_le (List.length_dropWhile_le _ _)
    · exact Nat.le_refl _

theorem exponentPart_length (t : Text) : (exponentPart t).2.length ≤ t.length := by
  cases t with
  | nil => exact Nat.le_refl _
  | cons c t =>
    have htail : t.tail.length ≤ t.length := by simp
    rw [exponentPart]
    split_ifs <;> simp only
    all_goals
      try split_ifs
      all_goals first
        | exact Nat.le_refl _
        | exact Nat.le_succ_of_le (List.length_dropWhile_le _ _)
        | exact Nat.le_succ_of_le ((List.length_dropWhile_le _ _).trans htail)

variable {F E : Type}

/-- What reading establishes of a value, under so many nesting levels. -/
structure ReadWithin (lim : JsonLimits) (levels : ℕ) (v : Value F E) : Prop where
  isJson : v.isJson
  distinctKeys : v.distinctKeys
  withinDigits : v.withinDigits lim.digits
  depth_le : v.depth ≤ levels

theorem ReadWithin.mono {lim : JsonLimits} {m n : ℕ} {v : Value F E} (h : ReadWithin lim m v)
    (hmn : m ≤ n) : ReadWithin lim n v :=
  ⟨h.isJson, h.distinctKeys, h.withinDigits, h.depth_le.trans hmn⟩

theorem ReadWithin.list {lim : JsonLimits} {d : ℕ} {vs : List (Value F E)}
    (h : ∀ v ∈ vs, ReadWithin lim d v) : ReadWithin lim (d + 1) (.list vs) where
  isJson := Value.all_list.mpr ⟨rfl, fun v hv => (h v hv).isJson⟩
  distinctKeys := Value.all_list.mpr ⟨rfl, fun v hv => (h v hv).distinctKeys⟩
  withinDigits := Value.all_list.mpr ⟨rfl, fun v hv => (h v hv).withinDigits⟩
  depth_le := by
    rw [Value.depth, Nat.add_le_add_iff_right, Value.depthList_le]
    exact fun v hv => (h v hv).depth_le

theorem ReadWithin.dict {lim : JsonLimits} {d : ℕ} {kvs : List (Text × Value F E)}
    (hkeys : (kvs.map Prod.fst).Nodup) (h : ∀ kv ∈ kvs, ReadWithin lim d kv.2) :
    ReadWithin lim (d + 1) (.dict kvs) where
  isJson := Value.all_dict.mpr ⟨rfl, fun kv hkv => (h kv hkv).isJson⟩
  distinctKeys := Value.all_dict.mpr ⟨by simpa using hkeys, fun kv hkv => (h kv hkv).distinctKeys⟩
  withinDigits := Value.all_dict.mpr ⟨rfl, fun kv hkv => (h kv hkv).withinDigits⟩
  depth_le := by
    rw [Value.depth, Nat.add_le_add_iff_right, Value.depthItems_le]
    exact fun kv hkv => (h kv hkv).depth_le

theorem skipSpace_length_le (t : Text) : (skipSpace t).length ≤ t.length :=
  List.length_dropWhile_le _ _

/-- A reader of single values that shortens its text and returns values with a property. -/
def Yields (term : Text → Scan (Value F E)) (P : Value F E → Prop) : Prop :=
  ∀ t v r, term t = .ok (v, r) → P v ∧ r.length < t.length

section Containers

variable {term : Text → Scan (Value F E)} {P : Value F E → Prop}

theorem scanItems_yields (h : Yields term P) {turns : ℕ} {t r : Text} {vs : List (Value F E)}
    (hscan : scanItems term turns t = .ok (vs, r)) : (∀ v ∈ vs, P v) ∧ r.length < t.length := by
  induction turns generalizing t vs with
  | zero => simp [scanItems] at hscan
  | succ turns ih =>
    rw [scanItems] at hscan
    obtain ⟨v, t₁, hterm, hrest⟩ := Scan.andThen_eq_ok.mp hscan
    obtain ⟨hv, hlength⟩ := h t v t₁ hterm
    have hskip := skipSpace_length_le t₁
    cases hnext : skipSpace t₁ with
    | nil => simp [hnext] at hrest
    | cons c rest =>
      rw [hnext, List.length_cons] at hskip
      simp only [hnext] at hrest
      split_ifs at hrest with hclose hcomma
      · obtain ⟨rfl, rfl⟩ := Prod.mk.inj (Except.ok.inj hrest)
        exact ⟨by simpa using hv, by omega⟩
      · obtain ⟨vs', hvs, rfl⟩ := Scan.as_eq_ok.mp hrest
        obtain ⟨hall, hshort⟩ := ih hvs
        have hskip' := skipSpace_length_le rest
        exact ⟨List.forall_mem_cons.mpr ⟨hv, hall⟩, by omega⟩

theorem scanPair_yields (h : Yields term P) {t r : Text} {kv : Text × Value F E}
    (hscan : scanPair term t = .ok (kv, r)) : P kv.2 ∧ r.length < t.length := by
  rw [scanPair] at hscan
  split_ifs at hscan with hquote
  obtain ⟨k, t₁, hkey, hrest⟩ := Scan.andThen_eq_ok.mp hscan
  simp only at hrest
  split_ifs at hrest with hcolon
  obtain ⟨v, hv, rfl⟩ := Scan.as_eq_ok.mp hrest
  obtain ⟨hP, hshort⟩ := h _ v r hv
  have hkeyShort := (scanString_length hkey).2
  have htail : t.tail.length ≤ t.length := by simp
  have hskip := skipSpace_length_le t₁
  have hskip' := skipSpace_length_le (skipSpace t₁).tail
  have htail' : (skipSpace t₁).tail.length ≤ (skipSpace t₁).length := by simp
  exact ⟨hP, by omega⟩

theorem scanPairs_yields (h : Yields term P) {turns : ℕ} {t r : Text}
    {kvs : List (Text × Value F E)} (hscan : scanPairs term turns t = .ok (kvs, r)) :
    (∀ kv ∈ kvs, P kv.2) ∧ r.length < t.length := by
  induction turns generalizing t kvs with
  | zero => simp [scanPairs] at hscan
  | succ turns ih =>
    rw [scanPairs] at hscan
    obtain ⟨kv, t₁, hpair, hrest⟩ := Scan.andThen_eq_ok.mp hscan
    obtain ⟨hkv, hlength⟩ := scanPair_yields h hpair
    have hskip := skipSpace_length_le t₁
    cases hnext : skipSpace t₁ with
    | nil => simp [hnext] at hrest
    | cons c rest =>
      rw [hnext, List.length_cons] at hskip
      simp only [hnext] at hrest
      split_ifs at hrest with hclose hcomma
      · obtain ⟨rfl, rfl⟩ := Prod.mk.inj (Except.ok.inj hrest)
        exact ⟨by simpa using hkv, by omega⟩
      · obtain ⟨kvs', hkvs, rfl⟩ := Scan.as_eq_ok.mp hrest
        obtain ⟨hall, hshort⟩ := ih hkvs
        have hskip' := skipSpace_length_le rest
        exact ⟨List.forall_mem_cons.mpr ⟨hkv, hall⟩, by omega⟩

/-- More turns than code points never change what is scanned. -/
theorem scanItems_turns (h : Yields term P) {m n : ℕ} {t : Text} (hm : t.length < m)
    (hn : t.length < n) : scanItems term m t = scanItems term n t := by
  induction m generalizing n t with
  | zero => omega
  | succ m ih =>
    obtain ⟨n, rfl⟩ : ∃ k, n = k + 1 := ⟨n - 1, by omega⟩
    rw [scanItems, scanItems]
    cases hterm : term t with
    | error e => rfl
    | ok vt =>
      obtain ⟨v, t₁⟩ := vt
      have hlength := (h t v t₁ hterm).2
      have hskip := skipSpace_length_le t₁
      rw [Scan.andThen_ok, Scan.andThen_ok]
      cases hnext : skipSpace t₁ with
      | nil => rfl
      | cons c rest =>
        rw [hnext, List.length_cons] at hskip
        have hskip' := skipSpace_length_le rest
        simp only [ih (n := n) (t := skipSpace rest) (by omega) (by omega)]

theorem scanPairs_turns (h : Yields term P) {m n : ℕ} {t : Text} (hm : t.length < m)
    (hn : t.length < n) : scanPairs term m t = scanPairs term n t := by
  induction m generalizing n t with
  | zero => omega
  | succ m ih =>
    obtain ⟨n, rfl⟩ : ∃ k, n = k + 1 := ⟨n - 1, by omega⟩
    rw [scanPairs, scanPairs]
    cases hpair : scanPair term t with
    | error e => rfl
    | ok kvt =>
      obtain ⟨kv, t₁⟩ := kvt
      have hlength := (scanPair_yields h hpair).2
      have hskip := skipSpace_length_le t₁
      rw [Scan.andThen_ok, Scan.andThen_ok]
      cases hnext : skipSpace t₁ with
      | nil => rfl
      | cons c rest =>
        rw [hnext, List.length_cons] at hskip
        have hskip' := skipSpace_length_le rest
        simp only [ih (n := n) (t := skipSpace rest) (by omega) (by omega)]

end Containers

variable [PyFloat F]

theorem scanNumber_read {lim : JsonLimits} {t r : Text} {v : Value F E}
    (h : scanNumber lim t = .ok (v, r)) :
    ReadWithin lim 0 v ∧ r.length < t.length ∧ ∀ s, v ≠ .str s := by
  rw [scanNumber] at h
  cases hwhole : wholeDigits? (if (t.head? == some (chr '-')) = true then t.tail else t) with
  | none =>
    simp only [hwhole] at h
    cases h
  | some wt =>
    obtain ⟨whole, t₁⟩ := wt
    obtain ⟨hne, hdigits, happend⟩ := wholeDigits?_eq_some hwhole
    have hlength : t₁.length < t.length := by
      have hbody := congrArg List.length happend
      have hpos := List.length_pos_iff.mpr hne
      rw [List.length_append] at hbody
      split_ifs at hbody
      · rw [List.length_tail] at hbody
        omega
      · omega
    have hfraction := fractionDigits_length t₁
    have hexponent := exponentPart_length (fractionDigits t₁).2
    simp only [hwhole] at h
    have hvalue := natText_digitsValue_length hne hdigits
    split_ifs at h with hproper hlimit hsign
    · obtain ⟨rfl, rfl⟩ := Prod.mk.inj (Except.ok.inj h)
      exact ⟨⟨rfl, rfl, rfl, Nat.le_refl _⟩, by omega, by simp⟩
    · obtain ⟨rfl, rfl⟩ := Prod.mk.inj (Except.ok.inj h)
      refine ⟨⟨rfl, rfl, ?_, Nat.le_refl _⟩, by omega, by simp⟩
      simp only [Value.withinDigits, Value.all, decide_eq_true_eq, Int.natAbs_neg,
        Int.natAbs_natCast]
      omega
    · obtain ⟨rfl, rfl⟩ := Prod.mk.inj (Except.ok.inj h)
      refine ⟨⟨rfl, rfl, ?_, Nat.le_refl _⟩, by omega, by simp⟩
      simp only [Value.withinDigits, Value.all, decide_eq_true_eq, Int.natAbs_natCast]
      omega

theorem scanConstant_read {t r : Text} {v : Value F E} (lim : JsonLimits)
    (h : scanConstant t = some (v, r)) :
    ReadWithin lim 0 v ∧ r.length < t.length ∧ ∀ s, v ≠ .str s := by
  obtain ⟨wv, hmem, hwv⟩ := List.exists_of_findSome?_eq_some h
  split_ifs at hwv with hprefix
  obtain ⟨rfl, rfl⟩ := Prod.mk.inj (Option.some.inj hwv)
  have hword : wv.1 ≠ [] ∧ ReadWithin lim 0 wv.2 ∧ ∀ s, wv.2 ≠ .str s := by
    simp only [constants, List.mem_cons, List.not_mem_nil, or_false] at hmem
    rcases hmem with rfl | rfl | rfl | rfl | rfl | rfl
    all_goals exact ⟨by simp [text], ⟨rfl, rfl, rfl, Nat.le_refl _⟩, by simp⟩
  refine ⟨hword.2.1, ?_, hword.2.2⟩
  have hle := (List.isPrefixOf_iff_prefix.mp hprefix).length_le
  have hpos := List.length_pos_iff.mpr hword.1
  rw [List.length_drop]
  omega

/-- One value, where the values inside it are read within one level less. -/
theorem scanValue_read {lim : JsonLimits} (levels : ℕ)
    {deeper : Option (Text → Scan (Value F E))}
    (hdeeper : ∀ term, deeper = some term → ∃ d, levels = d + 1 ∧ Yields term (ReadWithin lim d))
    {t r : Text} {v : Value F E} (h : scanValue lim deeper t = .ok (v, r)) :
    ReadWithin lim levels v ∧ r.length < t.length ∧ ∀ s, v = .str s → s.length < t.length := by
  cases t with
  | nil => cases h
  | cons c rest =>
    have hskip := skipSpace_length_le rest
    have htail : (skipSpace rest).tail.length ≤ (skipSpace rest).length := by simp
    rw [scanValue] at h
    split_ifs at h with hquote hbrace hbracket
    · obtain ⟨s, hs, rfl⟩ := Scan.as_eq_ok.mp h
      obtain ⟨hshort, hrest⟩ := scanString_length hs
      refine ⟨⟨rfl, rfl, rfl, Nat.zero_le _⟩, Nat.lt_succ_of_lt hrest, fun s' hs' => ?_⟩
      obtain rfl := Value.str.inj hs'
      exact Nat.lt_succ_of_lt hshort
    · cases deeper with
      | none => cases h
      | some term =>
        obtain ⟨d, rfl, hterm⟩ := hdeeper term rfl
        rw [Option.elim_some, scanObject] at h
        split_ifs at h with hempty
        · obtain ⟨rfl, rfl⟩ := Prod.mk.inj (Except.ok.inj h)
          exact ⟨.dict List.nodup_nil (by simp), by simp only [List.length_cons]; omega, by simp⟩
        · obtain ⟨kvs, hkvs, rfl⟩ := Scan.as_eq_ok.mp h
          obtain ⟨hall, hshort⟩ := scanPairs_yields hterm hkvs
          exact ⟨.dict (Value.nodup_ofPairs kvs)
            (fun kv hkv => hall kv (Value.mem_of_mem_ofPairs hkv)),
            by simp only [List.length_cons]; omega, by simp⟩
    · cases deeper with
      | none => cases h
      | some term =>
        obtain ⟨d, rfl, hterm⟩ := hdeeper term rfl
        rw [Option.elim_some, scanArray] at h
        split_ifs at h with hempty
        · obtain ⟨rfl, rfl⟩ := Prod.mk.inj (Except.ok.inj h)
          exact ⟨.list (by simp), by simp only [List.length_cons]; omega, by simp⟩
        · obtain ⟨vs, hvs, rfl⟩ := Scan.as_eq_ok.mp h
          obtain ⟨hall, hshort⟩ := scanItems_yields hterm hvs
          exact ⟨.list hall, by simp only [List.length_cons]; omega, by simp⟩
    · cases hconstant : scanConstant (F := F) (E := E) (c :: rest) with
      | some r' =>
        rw [hconstant] at h
        obtain rfl := Except.ok.inj h
        obtain ⟨hread, hlength, hstr⟩ := scanConstant_read lim hconstant
        exact ⟨hread.mono (Nat.zero_le _), hlength, fun s hs => absurd hs (hstr s)⟩
      | none =>
        rw [hconstant] at h
        obtain ⟨hread, hlength, hstr⟩ := scanNumber_read h
        exact ⟨hread.mono (Nat.zero_le _), hlength, fun s hs => absurd hs (hstr s)⟩

/-- Reading with so many nesting levels yields values within them. -/
theorem scanOnce_yields (lim : JsonLimits) (d : ℕ) :
    Yields (scanOnce (F := F) (E := E) lim d) (ReadWithin lim d) := by
  induction d with
  | zero =>
    intro t v r h
    obtain ⟨hread, hlength, -⟩ := scanValue_read 0 (by simp) h
    exact ⟨hread, hlength⟩
  | succ d ih =>
    intro t v r h
    obtain ⟨hread, hlength, -⟩ := scanValue_read (d + 1)
      (fun term hterm => ⟨d, rfl, Option.some.inj hterm ▸ ih⟩) h
    exact ⟨hread, hlength⟩

theorem scanOnce_str_length {lim : JsonLimits} {d : ℕ} {t s r : Text}
    (h : scanOnce (F := F) (E := E) lim d t = .ok (.str s, r)) : s.length < t.length := by
  cases d with
  | zero => exact (scanValue_read 0 (by simp) h).2.2 s rfl
  | succ d =>
    exact (scanValue_read (d + 1)
      (fun term hterm => ⟨d, rfl, Option.some.inj hterm ▸ scanOnce_yields lim d⟩) h).2.2 s rfl

/-- The turns that the scanners of lists and dictionaries count are enough: more of them
read the same. -/
theorem scanOnce_turns (lim : JsonLimits) (d : ℕ) {turns : ℕ} {t : Text}
    (h : t.length < turns) :
    scanItems (scanOnce (F := F) (E := E) lim d) turns t =
        scanItems (scanOnce lim d) (t.length + 1) t ∧
      scanPairs (scanOnce (F := F) (E := E) lim d) turns t =
        scanPairs (scanOnce lim d) (t.length + 1) t :=
  ⟨scanItems_turns (scanOnce_yields lim d) h (Nat.lt_succ_self _),
    scanPairs_turns (scanOnce_yields lim d) h (Nat.lt_succ_self _)⟩

/-- A document is a value with nothing but spaces around it. -/
theorem decodeDocument_eq_ok {lim : JsonLimits} {t : Text} {v : Value F E} :
    decodeDocument lim t = .ok v ↔
      ∃ rest, scanOnce lim lim.nesting (skipSpace t) = .ok (v, rest) ∧ skipSpace rest = [] := by
  rw [decodeDocument]
  cases hscan : scanOnce (F := F) (E := E) lim lim.nesting (skipSpace t) with
  | error e => simp
  | ok vr =>
    cases vr with
    | mk w rest =>
      cases hrest : skipSpace rest with
      | nil => simp [hrest]
      | cons c rest' => simp [hrest]

theorem decodeDocument_read {lim : JsonLimits} {t : Text} {v : Value F E}
    (h : decodeDocument lim t = .ok v) : ReadWithin lim lim.nesting v := by
  obtain ⟨rest, hscan, -⟩ := decodeDocument_eq_ok.mp h
  exact (scanOnce_yields lim lim.nesting _ _ _ hscan).1

/-- A value that `json.loads` returns is JSON within the limits. -/
theorem loads_read {lim : JsonLimits} {t : Text} {v : Value F E} (h : loads lim t = .ok v) :
    ReadWithin lim lim.nesting v := by
  rw [loads] at h
  split_ifs at h
  exact decodeDocument_read h

/-- A text never reads as the string that is the text itself. -/
theorem loads_ne_str (lim : JsonLimits) (t : Text) :
    loads (F := F) (E := E) lim t ≠ .ok (.str t) := by
  intro h
  rw [loads] at h
  split_ifs at h
  obtain ⟨rest, hscan, -⟩ := decodeDocument_eq_ok.mp h
  have hlength := scanOnce_str_length hscan
  have hskip := skipSpace_length_le t
  omega

end Kaskade.Python
