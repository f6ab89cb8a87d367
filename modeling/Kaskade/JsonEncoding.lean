import Kaskade.JsonReading

/-!
# Printed JSON as UTF-8

Printed JSON is ASCII apart from its strings and keys, whose control characters it escapes.
So it encodes exactly when they hold no lone surrogate, and the octets read back as the
value, since `json.loads` recognizes them as UTF-8.
-/

namespace Kaskade.Python

variable {F E : Type}

section CodePoints

variable {p : CodePoint → Bool}

/-- `p` accepts every ASCII code point but NUL. -/
def AcceptsAscii (p : CodePoint → Bool) : Prop := ∀ c, 0 < c.val → c.val < 0x80 → p c = true

/-- What `p` asks of a code point of a string: ASCII is accepted or escaped. -/
def beyondAscii (p : CodePoint → Bool) (c : CodePoint) : Bool := c.val < 0x80 || p c

theorem AcceptsAscii.all (hp : AcceptsAscii p) {t : Text}
    (ht : ∀ c ∈ t, 0 < c.val ∧ c.val < 0x80) : t.all p = true :=
  List.all_eq_true.mpr fun c hc => hp c (ht c hc).1 (ht c hc).2

theorem AcceptsAscii.fixed (hp : AcceptsAscii p) (t : Text)
    (ht : t.all (fun c => 0 < c.val && c.val < 0x80) = true) : t.all p = true :=
  hp.all fun c hc => by simpa using List.all_eq_true.mp ht c hc

theorem AcceptsAscii.escapeChar (hp : AcceptsAscii p) (c : CodePoint) :
    (escapeChar c).all p = beyondAscii p c := by
  have hhex : ∀ n, n < 16 → 0 < (hexDigit n).val ∧ (hexDigit n).val < 0x80 := by decide
  by_cases hc : c.val < 0x80
  · rw [beyondAscii, decide_eq_true hc, Bool.true_or]
    have hite : ∀ {q : Prop} [Decidable q] {a b : Text}, a.all p = true → b.all p = true →
        (if q then a else b).all p = true := by
      intro q _ a b ha hb
      split_ifs
      · exact ha
      · exact hb
    refine hite (hp.fixed _ ?_) (hite (hp.fixed _ ?_) (hite (hp.fixed _ ?_) (hite (hp.fixed _ ?_)
      (hite (hp.fixed _ ?_) (hite (hp.fixed _ ?_) (hite (hp.fixed _ ?_) ?_))))))
    all_goals try decide +kernel
    refine iteInduction (motive := fun t : Text => t.all p = true) (fun hsmall => ?_) fun hprinted => ?_
    · refine hp.all fun d hd => ?_
      rcases List.mem_append.mp hd with hd | hd
      · have hfixed : (text "\\u00").all (fun c => 0 < c.val && c.val < 0x80) = true := by
          decide +kernel
        simpa using List.all_eq_true.mp hfixed d hd
      · rcases List.mem_cons.mp hd with rfl | hd
        · exact hhex _ (by omega)
        · rw [List.mem_singleton.mp hd]
          exact hhex _ (by omega)
    · exact hp.all fun d hd => by
        rw [List.mem_singleton.mp hd]
        omega
  · have hne : ∀ d : Char, d.toNat < 0x80 → c ≠ chr d := by
      rintro d hd rfl
      exact hc hd
    simp only [Python.escapeChar, hne '"' (by decide), hne '\\' (by decide), hne '\n' (by decide),
      hne '\r' (by decide), hne '\t' (by decide), if_false]
    rw [if_neg (by omega), if_neg (by omega), if_neg (by omega)]
    simp [beyondAscii, hc]

theorem AcceptsAscii.quoted (hp : AcceptsAscii p) (s : Text) :
    (quoted s).all p = s.all (beyondAscii p) := by
  have hquote := hp (chr '"') (by decide) (by decide)
  rw [Python.quoted, List.all_cons, List.all_append, List.all_flatMap]
  simp [hquote, hp.escapeChar]

theorem AcceptsAscii.newline (hp : AcceptsAscii p) (L : Layout) (level : ℕ) :
    (L.newline level).all p = true := by
  refine hp.all fun c hc => ?_
  unfold Layout.newline at hc
  split at hc
  · cases hc
  · rcases List.mem_cons.mp hc with rfl | hc
    · decide
    · rw [List.eq_of_mem_replicate hc]
      decide

theorem AcceptsAscii.numberText (hp : AcceptsAscii p) {t : Text} (ht : ∀ c ∈ t, isNumberChr c) :
    t.all p = true := by
  have hothers : (text "+-.e").all p = true := hp.fixed _ (by decide +kernel)
  rw [List.all_eq_true]
  intro c hc
  rcases Bool.or_eq_true _ _ ▸ ht c hc with hdigit | hother
  · rw [isDigit, decide_eq_true_iff] at hdigit
    exact hp c (by omega) (by omega)
  · exact List.all_eq_true.mp hothers c (of_decide_eq_true hother)

variable [PyFloat F] (L : Layout) (default : Value F E → Text)

theorem AcceptsAscii.dumpList (hp : AcceptsAscii p) (level : ℕ) (items : List (Value F E)) :
    (dumpList L default level items).all p =
      items.all (fun v => (dump L default level v).all p) := by
  have hcomma := hp (chr ',') (by decide) (by decide)
  induction items with
  | nil => rfl
  | cons v vs ih =>
    rw [Python.dumpList, List.all_append, List.all_append, List.all_append, hp.newline, ih]
    cases vs <;> simp [hcomma]

theorem AcceptsAscii.dumpItems (hp : AcceptsAscii p) (level : ℕ)
    (items : List (Text × Value F E)) :
    (dumpItems L default level items).all p =
      items.all (fun kv => kv.1.all (beyondAscii p) && (dump L default level kv.2).all p) := by
  have hcomma := hp (chr ',') (by decide) (by decide)
  have hcolon : L.keySeparator.all p = true := by
    unfold Layout.keySeparator
    split <;> exact hp.fixed _ (by decide +kernel)
  induction items with
  | nil => rfl
  | cons kv kvs ih =>
    rw [Python.dumpItems]
    simp only [List.all_append, hp.newline, hp.quoted, hcolon, ih]
    cases kvs <;> simp [hcomma]

/-- Of the code points a value prints, only those of its strings and keys are beyond ASCII. -/
theorem AcceptsAscii.dump (hp : AcceptsAscii p) (level : ℕ) (v : Value F E) :
    (dump L default level v).all p = (v.shown default).stringsAll (beyondAscii p) := by
  induction v generalizing level with
  | null => exact hp.fixed (text "null") (by decide +kernel)
  | bool b =>
    cases b with
    | false => exact hp.fixed (text "false") (by decide +kernel)
    | true => exact hp.fixed (text "true") (by decide +kernel)
  | int i => exact hp.numberText fun _ => isNumberChr_of_mem_intText
  | float f =>
    rw [Python.dump]
    cases PyFloat.repr f with
    | nan => exact hp.fixed (text "NaN") (by decide +kernel)
    | infinity negative =>
      cases negative with
      | false => exact hp.fixed (text "Infinity") (by decide +kernel)
      | true => exact hp.fixed (text "-Infinity") (by decide +kernel)
    | literal l => exact hp.numberText fun _ => isNumberChr_of_mem_literal
  | str s => exact hp.quoted s
  | bytes data => exact hp.quoted _
  | other e => exact hp.quoted _
  | list items ih =>
    have hopen := hp (chr '[') (by decide) (by decide)
    have hclose := hp (chr ']') (by decide) (by decide)
    have hitems : (Python.dumpList L default (level + 1) items).all p =
        (items.map (Value.shown default)).all (Value.stringsAll (beyondAscii p)) := by
      rw [hp.dumpList, List.all_map, Bool.eq_iff_iff, List.all_eq_true, List.all_eq_true]
      exact forall₂_congr fun v hv => by rw [ih v hv (level + 1)]; rfl
    rw [Python.dump, Value.shown, Value.shownList_eq, Value.stringsAll_list, ← hitems]
    split_ifs with hempty
    · rw [List.isEmpty_iff.mp hempty]
      exact hp.fixed (text "[]") (by decide +kernel)
    · simp [hopen, hclose, hp.newline]
  | dict items ih =>
    have hopen := hp (chr '{') (by decide) (by decide)
    have hclose := hp (chr '}') (by decide) (by decide)
    let shownItems := items.map (fun kv => (kv.1, Value.shown default kv.2))
    have hitems : (Python.dumpItems L default (level + 1) items).all p =
        (shownItems.all (fun kv => kv.1.all (beyondAscii p)) &&
          shownItems.all (fun kv => Value.stringsAll (beyondAscii p) kv.2)) := by
      rw [hp.dumpItems, Bool.eq_iff_iff]
      simp only [shownItems, List.all_map, Bool.and_eq_true, List.all_eq_true, Function.comp_apply]
      constructor
      · intro h
        refine ⟨fun kv hkv => (h kv hkv).1, fun kv hkv => ?_⟩
        rw [← ih kv hkv (level + 1), List.all_eq_true]
        exact (h kv hkv).2
      · rintro ⟨hkeys, hvalues⟩ kv hkv
        refine ⟨hkeys kv hkv, ?_⟩
        rw [← List.all_eq_true, ih kv hkv (level + 1)]
        exact hvalues kv hkv
    rw [Python.dump, Value.shown, Value.shownItems_eq, Value.stringsAll_dict, ← hitems]
    split_ifs with hempty
    · rw [List.isEmpty_iff.mp hempty]
      exact hp.fixed (text "\x7b\x7d") (by decide +kernel)
    · simp only [List.all_cons, List.all_append, hp.newline, List.all_nil, Bool.and_true]
      exact (congrArg (· && _) hopen).trans (by simp [hclose])

end CodePoints

theorem beyondAscii_encodable (c : CodePoint) :
    beyondAscii (fun c => !isSurrogate c) c = !isSurrogate c := by
  unfold beyondAscii
  by_cases hc : c.val < 0x80
  · have hs : isSurrogate c = false := by
      rw [isSurrogate, decide_eq_false_iff_not]
      omega
    simp [hs]
  · simp [hc]

theorem acceptsAscii_encodable : AcceptsAscii (fun c => !isSurrogate c) := by
  intro c _ hc
  have hs : isSurrogate c = false := by
    rw [isSurrogate, decide_eq_false_iff_not]
    omega
  simp [hs]

/-- Octets that start with an ASCII character and hold no NUL are taken for UTF-8. -/
theorem decodeDetected_utf8 {a : UInt8} {rest : Bytes} (ha : a.toNat < 0x80)
    (h : ∀ b ∈ a :: rest, b ≠ 0) : decodeDetected (a :: rest) = utf8Decode true (a :: rest) := by
  have hne : ∀ n : UInt8, 0x80 ≤ n.toNat → a ≠ n := by
    rintro n hn rfl
    omega
  have hzero := h a List.mem_cons_self
  unfold decodeDetected
  rw [if_neg (by simp [hzero]), if_neg (by simp [hne 0xff (by decide)]),
    if_neg (by simp [hne 0xfe (by decide)]), if_neg (by simp [hne 0xff (by decide)]),
    if_neg (by simp [hne 0xef (by decide)])]
  match rest with
  | [] => rfl
  | [b] =>
    have hb := h b (by simp)
    simp [hzero, hb]
  | [b, c] => rfl
  | b :: c :: d :: rest =>
    have hb := h b (by simp)
    simp [hzero, hb]

theorem utf8Char_ne_zero {c : CodePoint} (hc : c.val ≠ 0) : ∀ b ∈ utf8Char c, b ≠ 0 := by
  have hlt := c.isLt
  have hbyte : ∀ n, 0 < n → n < 256 → byte n ≠ 0 := by
    intro n hpos hn he
    have := congrArg UInt8.toNat he
    rw [toNat_byte hn] at this
    exact absurd this (by simpa using Nat.pos_iff_ne_zero.mp hpos)
  intro b hb
  unfold utf8Char at hb
  split_ifs at hb
  all_goals
    simp only [List.mem_cons, List.not_mem_nil, or_false] at hb
    rcases hb with rfl | rfl | rfl | rfl <;> exact hbyte _ (by omega) (by omega)

variable [PyFloat F]

/-- Printed JSON can be encoded exactly when its strings and keys can. -/
theorem utf8Encode_dumps (L : Layout) (default : Value F E → Text) (v : Value F E) :
    (utf8Encode (dumps L default v)).isSome ↔ (v.shown default).encodable := by
  have h := acceptsAscii_encodable.dump L default 0 v
  rw [utf8Encode_isSome, Value.encodable, ← funext beyondAscii_encodable, ← h]
  simp [dumps]

theorem decodeDetected_dumps {L : Layout} {default : Value F E → Text} {v : Value F E}
    {data : Bytes} (h : utf8Encode (dumps L default v) = some data) :
    decodeDetected data = some (dumps L default v) := by
  have hnul : ∀ c ∈ dumps L default v, c.val ≠ 0 := by
    have hp : AcceptsAscii (fun c => c.val != 0) := fun c hc _ => by
      simpa using Nat.pos_iff_ne_zero.mp hc
    have hall := hp.dump L default 0 v
    rw [Value.stringsAll_of_forall (fun c => by simp [beyondAscii]; omega), List.all_eq_true] at hall
    exact fun c hc => by simpa using hall c hc
  obtain ⟨c, r, hc, -, -, hascii⟩ := startsValue_dump L default 0 v
  have hdecode := utf8Decode_utf8Encode true h
  have hdata : data = (dumps L default v).flatMap utf8Char := by
    unfold utf8Encode at h
    split_ifs at h
    exact (Option.some.inj h).symm
  have hhead : data = byte c.val :: r.flatMap utf8Char := by
    rw [hdata, dumps, hc, List.flatMap_cons, utf8Char, if_pos hascii, List.singleton_append]
  have hzero : ∀ b ∈ data, b ≠ 0 := by
    intro b hb
    rw [hdata] at hb
    obtain ⟨d, hd, hbd⟩ := List.mem_flatMap.mp hb
    exact utf8Char_ne_zero (hnul d hd) b hbd
  rw [← hdecode]
  rw [hhead] at hzero ⊢
  exact decodeDetected_utf8 (by rw [toNat_byte (by omega)]; exact hascii) hzero

end Kaskade.Python
