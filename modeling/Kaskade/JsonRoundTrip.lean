import Kaskade.JsonTokens

/-!
# Printed JSON reads back

Reading what `dumps` printed gives the value its text shows, in either layout, as long as
its integers and its nesting are within the limits of the reader.
-/

namespace Kaskade.Python

variable {F E : Type} [PyFloat F]

namespace Value

def withinDigits (digits : ℕ) (v : Value F E) : Bool :=
  all (fun | .int i => (natText i.natAbs).length ≤ digits | _ => true) v

end Value

/-- A value can be read from this text: it starts with an ASCII code point that is neither
whitespace nor a closing bracket. -/
def StartsValue (t : Text) : Prop :=
  ∃ c r, t = c :: r ∧ isJsonSpace c = false ∧ c ≠ chr ']' ∧ c.val < 0x80

theorem StartsValue.append {t : Text} (h : StartsValue t) (u : Text) : StartsValue (t ++ u) := by
  obtain ⟨c, r, rfl, hc⟩ := h
  exact ⟨c, r ++ u, rfl, hc⟩

theorem StartsValue.skipSpace {t : Text} (h : StartsValue t) : skipSpace t = t := by
  obtain ⟨c, r, rfl, hspace, -⟩ := h
  exact skipSpace_cons hspace r

private theorem startsValue_of_isDigit {c : CodePoint} (h : isDigit c) (t : Text) :
    StartsValue (c :: t) := by
  refine ⟨c, t, rfl, ?_, ?_, ?_⟩
  · rw [isDigit, decide_eq_true_iff] at h
    have hne : ∀ d : Char, d.toNat < 0x30 → c ≠ chr d := by
      rintro d hd rfl
      rw [chr_val] at h
      omega
    simp [isJsonSpace, hne]
  · rintro rfl
    cases h
  · rw [isDigit, decide_eq_true_iff] at h
    omega

private theorem startsValue_number (negative : Bool) (n : ℕ) (t : Text) :
    StartsValue ((if negative then [chr '-'] else []) ++ natText n ++ t) := by
  cases negative with
  | true => exact ⟨chr '-', natText n ++ t, rfl, by decide, by decide, by decide⟩
  | false =>
    obtain ⟨c, ds, hc, hd⟩ := head_natText_append n t
    rw [if_neg (by decide), List.nil_append, hc]
    exact startsValue_of_isDigit hd ds

theorem startsValue_dump (L : Layout) (default : Value F E → Text) (level : ℕ) (v : Value F E) :
    StartsValue (dump L default level v) := by
  cases v with
  | null => exact ⟨_, _, rfl, by decide, by decide, by decide⟩
  | bool b => cases b <;> exact ⟨_, _, rfl, by decide, by decide, by decide⟩
  | int i =>
    rw [dump, intText_eq, ← List.append_nil (_ ++ _)]
    exact startsValue_number _ _ []
  | float f =>
    rw [dump]
    cases PyFloat.repr f with
    | nan => exact ⟨_, _, rfl, by decide, by decide, by decide⟩
    | infinity negative => cases negative <;> exact ⟨_, _, rfl, by decide, by decide, by decide⟩
    | literal l =>
      rw [FloatRepr.text, FloatLiteral.text, List.append_assoc]
      exact startsValue_number l.negative l.whole _
  | str s => exact ⟨_, _, rfl, by decide, by decide, by decide⟩
  | bytes data => exact ⟨_, _, rfl, by decide, by decide, by decide⟩
  | list items =>
    rw [dump]
    split_ifs <;> exact ⟨_, _, rfl, by decide, by decide, by decide⟩
  | dict items =>
    rw [dump]
    split_ifs <;> exact ⟨_, _, rfl, by decide, by decide, by decide⟩
  | other e => exact ⟨_, _, rfl, by decide, by decide, by decide⟩

theorem endsNumber_nil : EndsNumber [] := fun _ h => by cases h

theorem endsNumber_cons {c : CodePoint} (h : isDigit c = false ∧ c ≠ chr '.' ∧ c ≠ chr 'e' ∧ c ≠ chr 'E')
    (t : Text) : EndsNumber (c :: t) := by
  intro d hd
  cases hd
  exact h

theorem endsNumber_newline (L : Layout) (level : ℕ) {t : Text} (ht : EndsNumber t) :
    EndsNumber (L.newline level ++ t) := by
  unfold Layout.newline
  split
  · exact ht
  · exact endsNumber_cons (by decide) _

/-- A reader of single values reads back what is printed for `v`, at any level and whatever
follows it. -/
def ReadsBack (L : Layout) (default : Value F E → Text) (term : Text → Scan (Value F E))
    (v : Value F E) : Prop :=
  ∀ level rest, EndsNumber rest →
    term (dump L default level v ++ rest) = .ok (v.shown default, rest)

section Containers

variable {L : Layout} {default : Value F E → Text} {term : Text → Scan (Value F E)}

theorem dumpList_singleton (v : Value F E) (level : ℕ) :
    dumpList L default level [v] = L.newline level ++ dump L default level v := by
  simp [dumpList]

theorem dumpList_cons_cons (v w : Value F E) (ws : List (Value F E)) (level : ℕ) :
    dumpList L default level (v :: w :: ws) =
      L.newline level ++ (dump L default level v ++ chr ',' :: dumpList L default level (w :: ws)) := by
  rw [dumpList]
  simp

theorem dumpItems_singleton (kv : Text × Value F E) (level : ℕ) :
    dumpItems L default level [kv] =
      L.newline level ++ (quoted kv.1 ++ (L.keySeparator ++ dump L default level kv.2)) := by
  simp [dumpItems]

theorem dumpItems_cons_cons (kv lw : Text × Value F E) (rest : List (Text × Value F E))
    (level : ℕ) :
    dumpItems L default level (kv :: lw :: rest) =
      L.newline level ++ (quoted kv.1 ++ (L.keySeparator ++
        (dump L default level kv.2 ++ chr ',' :: dumpItems L default level (lw :: rest)))) := by
  rw [dumpItems]
  simp

theorem skipSpace_dump (v : Value F E) (level : ℕ) (t : Text) :
    skipSpace (dump L default level v ++ t) = dump L default level v ++ t :=
  ((startsValue_dump L default level v).append t).skipSpace

theorem dump_length_pos (L : Layout) (default : Value F E → Text) (v : Value F E) (level : ℕ) :
    0 < (dump L default level v).length := by
  obtain ⟨c, r, h, -⟩ := startsValue_dump L default level v
  simp [h]

/-- A printed list has at least as many code points as items, besides whitespace, and its
first one is not the closing bracket. -/
theorem dumpList_scannable (L : Layout) (default : Value F E → Text) (v : Value F E)
    (vs : List (Value F E)) (level : ℕ) (t : Text) :
    (v :: vs).length ≤ (skipSpace (dumpList L default level (v :: vs) ++ t)).length ∧
      (skipSpace (dumpList L default level (v :: vs) ++ t)).head? ≠ some (chr ']') := by
  have hlength : ∀ us : List (Value F E), us.length ≤ (dumpList L default level us).length := by
    intro us
    induction us with
    | nil => exact Nat.zero_le _
    | cons u us ih =>
      have hu := dump_length_pos L default u level
      simp only [dumpList, List.length_append, List.length_cons]
      omega
  have hv := dump_length_pos L default v level
  have hvs := hlength vs
  obtain ⟨c, r, hc, -, hne, -⟩ := startsValue_dump L default level v
  rw [dumpList, List.append_assoc, List.append_assoc, List.append_assoc, skipSpace_newline,
    skipSpace_dump]
  refine ⟨?_, ?_⟩
  · simp only [List.length_append, List.length_cons]
    omega
  · rw [hc]
    simpa using hne

theorem dumpItems_scannable (L : Layout) (default : Value F E → Text) (kv : Text × Value F E)
    (kvs : List (Text × Value F E)) (level : ℕ)
    (t : Text) :
    (kv :: kvs).length ≤ (skipSpace (dumpItems L default level (kv :: kvs) ++ t)).length ∧
      (skipSpace (dumpItems L default level (kv :: kvs) ++ t)).head? ≠ some (chr '}') := by
  have hlength : ∀ us : List (Text × Value F E),
      us.length ≤ (dumpItems L default level us).length := by
    intro us
    induction us with
    | nil => exact Nat.zero_le _
    | cons u us ih =>
      have hu := dump_length_pos L default u.2 level
      simp only [dumpItems, List.length_append, List.length_cons]
      omega
  have hkv := dump_length_pos L default kv.2 level
  have hkvs := hlength kvs
  have hquoted : ∀ t, skipSpace (quoted kv.1 ++ t) = quoted kv.1 ++ t :=
    fun t => skipSpace_cons (by decide) _
  rw [dumpItems]
  simp only [List.append_assoc]
  rw [skipSpace_newline, hquoted]
  refine ⟨?_, ?_⟩
  · simp only [List.length_append, List.length_cons]
    omega
  · simp [quoted]

/-- The items of a printed list are read back up to the bracket. -/
theorem scanItems_dumpList {items : List (Value F E)} (hne : items ≠ [])
    (h : ∀ v ∈ items, ReadsBack L default term v) {turns : ℕ} (ht : items.length ≤ turns)
    (level outer : ℕ) (rest : Text) :
    scanItems term turns
        (skipSpace (dumpList L default level items ++ (L.newline outer ++ chr ']' :: rest))) =
      .ok (items.map (Value.shown default), rest) := by
  induction items generalizing turns with
  | nil => exact absurd rfl hne
  | cons v vs ih =>
    obtain ⟨n, rfl⟩ : ∃ n, turns = n + 1 := Nat.exists_eq_add_one.mpr (by simp at ht; omega)
    have hv := h v List.mem_cons_self level
    cases vs with
    | nil =>
      have hclose : EndsNumber (L.newline outer ++ chr ']' :: rest) :=
        endsNumber_newline L outer (endsNumber_cons (by decide) rest)
      rw [dumpList_singleton, List.append_assoc, skipSpace_newline, skipSpace_dump, scanItems,
        hv _ hclose, Scan.andThen_ok, skipSpace_newline, skipSpace_cons (by decide)]
      rfl
    | cons w ws =>
      have hn : (w :: ws).length ≤ n := by simpa using ht
      have ih := ih (List.cons_ne_nil w ws) (fun x hx => h x (List.mem_cons_of_mem v hx)) hn
      rw [dumpList_cons_cons, List.append_assoc, List.append_assoc, List.cons_append,
        skipSpace_newline, skipSpace_dump, scanItems, hv _ (endsNumber_cons (by decide) _),
        Scan.andThen_ok, skipSpace_cons (by decide)]
      simp only [if_true, ih, Scan.as_ok, List.map_cons]
      rfl

/-- A printed item of a dictionary is read back. -/
theorem scanPair_dump {v : Value F E} (h : ReadsBack L default term v) (k : Text) (level : ℕ)
    {rest : Text} (hrest : EndsNumber rest) :
    scanPair term (quoted k ++ (L.keySeparator ++ (dump L default level v ++ rest))) =
      .ok ((k, v.shown default), rest) := by
  have hseparator : ∀ t, skipSpace (L.keySeparator ++ t) = L.keySeparator ++ t := by
    intro t
    unfold Layout.keySeparator
    split <;> exact skipSpace_cons (by decide) _
  have hcolon : ∀ t, StartsValue t → (L.keySeparator ++ t).head? = some (chr ':') ∧
      skipSpace (L.keySeparator ++ t).tail = t := by
    intro t ht
    unfold Layout.keySeparator
    split
    · refine ⟨rfl, ?_⟩
      obtain ⟨c, r, rfl, hc, -⟩ := ht
      exact (List.dropWhile_cons_of_pos (by rfl)).trans (skipSpace_cons hc r)
    · exact ⟨rfl, ht.skipSpace⟩
  obtain ⟨hhead, htail⟩ := hcolon _ ((startsValue_dump L default level v).append rest)
  rw [scanPair, quoted, List.cons_append, List.append_assoc, List.singleton_append,
    if_neg (by simp), List.tail_cons, scanString_quoted, Scan.andThen_ok, hseparator]
  simp only [hhead, htail, h level rest hrest, Scan.as_ok, ne_eq, not_true_eq_false, if_false]

/-- The items of a printed dictionary are read back up to the brace. -/
theorem scanPairs_dumpItems {items : List (Text × Value F E)} (hne : items ≠ [])
    (h : ∀ kv ∈ items, ReadsBack L default term kv.2) {turns : ℕ} (ht : items.length ≤ turns)
    (level outer : ℕ) (rest : Text) :
    scanPairs term turns
        (skipSpace (dumpItems L default level items ++ (L.newline outer ++ chr '}' :: rest))) =
      .ok (items.map (fun kv => (kv.1, kv.2.shown default)), rest) := by
  induction items generalizing turns with
  | nil => exact absurd rfl hne
  | cons kv kvs ih =>
    obtain ⟨n, rfl⟩ : ∃ n, turns = n + 1 := Nat.exists_eq_add_one.mpr (by simp at ht; omega)
    have hkv := h kv List.mem_cons_self
    have hquoted : ∀ t, skipSpace (quoted kv.1 ++ t) = quoted kv.1 ++ t :=
      fun t => skipSpace_cons (by decide) _
    cases kvs with
    | nil =>
      have hclose : EndsNumber (L.newline outer ++ chr '}' :: rest) :=
        endsNumber_newline L outer (endsNumber_cons (by decide) rest)
      rw [dumpItems_singleton]
      simp only [List.append_assoc]
      rw [skipSpace_newline, hquoted, scanPairs, scanPair_dump hkv kv.1 level hclose,
        Scan.andThen_ok, skipSpace_newline, skipSpace_cons (by decide)]
      rfl
    | cons lw rest' =>
      have hn : (lw :: rest').length ≤ n := by simpa using ht
      have ih := ih (List.cons_ne_nil lw rest') (fun x hx => h x (List.mem_cons_of_mem kv hx)) hn
      rw [dumpItems_cons_cons]
      simp only [List.append_assoc, List.cons_append]
      rw [skipSpace_newline, hquoted, scanPairs,
        scanPair_dump hkv kv.1 level (endsNumber_cons (by decide) _), Scan.andThen_ok,
        skipSpace_cons (by decide)]
      simp only [if_true, ih, Scan.as_ok, List.map_cons]
      rfl

end Containers

variable {deeper : Option (Text → Scan (Value F E))}

theorem scanValue_quoted (lim : JsonLimits) (s rest : Text) :
    scanValue lim deeper (quoted s ++ rest) = .ok (.str s, rest) := by
  rw [quoted, List.cons_append, List.append_assoc, List.singleton_append, scanValue, if_pos rfl,
    scanString_quoted, Scan.as_ok]

private theorem scanValue_number (lim : JsonLimits) (negative : Bool) (n : ℕ) (t : Text) :
    scanValue lim deeper ((if negative then [chr '-'] else []) ++ natText n ++ t) =
      scanNumber lim ((if negative then [chr '-'] else []) ++ natText n ++ t) := by
  obtain ⟨c, ds, hc, hd⟩ := head_natText_append n t
  have hne : ∀ w, isDigit w = false → c ≠ w := by
    rintro w hw rfl
    rw [hw] at hd
    cases hd
  rw [List.append_assoc, hc]
  cases negative with
  | true =>
    rw [if_pos rfl, List.singleton_append, scanValue, if_neg (by decide), if_neg (by decide),
      if_neg (by decide), scanConstant_minus_digit hd]
    rfl
  | false =>
    rw [if_neg (by decide), List.nil_append, scanValue, if_neg (hne _ (by decide)),
      if_neg (hne _ (by decide)), if_neg (hne _ (by decide)), scanConstant_digit hd]
    rfl

variable {L : Layout} {default : Value F E → Text}

theorem scanValue_list (lim : JsonLimits) {term : Text → Scan (Value F E)}
    {items : List (Value F E)} (h : ∀ v ∈ items, ReadsBack L default term v) :
    ReadsBack L default (scanValue lim (some term)) (.list items) := by
  intro level rest _
  rw [dump, Value.shown, Value.shownList_eq]
  cases items with
  | nil => rfl
  | cons v vs =>
    obtain ⟨hlength, hhead⟩ := dumpList_scannable L default v vs (level + 1)
      (L.newline level ++ chr ']' :: rest)
    rw [List.isEmpty_cons, if_neg (by decide), List.cons_append, scanValue, if_neg (by decide),
      if_neg (by decide), if_pos rfl, Option.elim_some, List.append_assoc, List.append_assoc,
      List.singleton_append, scanArray, if_neg hhead,
      scanItems_dumpList (List.cons_ne_nil v vs) h (Nat.le_succ_of_le hlength)]
    rfl

/-- A printed dictionary is read back if each of its values is. -/
theorem scanValue_dict (lim : JsonLimits) {term : Text → Scan (Value F E)}
    {items : List (Text × Value F E)} (hkeys : (items.map Prod.fst).Nodup)
    (h : ∀ kv ∈ items, ReadsBack L default term kv.2) :
    ReadsBack L default (scanValue lim (some term)) (.dict items) := by
  intro level rest _
  rw [dump, Value.shown, Value.shownItems_eq]
  cases items with
  | nil => rfl
  | cons kv kvs =>
    obtain ⟨hlength, hhead⟩ := dumpItems_scannable L default kv kvs (level + 1)
      (L.newline level ++ chr '}' :: rest)
    have hnodup : (((kv :: kvs).map (fun kv => (kv.1, kv.2.shown default))).map Prod.fst).Nodup := by
      rw [List.map_map]
      exact hkeys
    rw [List.isEmpty_cons, if_neg (by decide), List.cons_append, scanValue, if_neg (by decide),
      if_pos rfl, Option.elim_some, List.append_assoc, List.append_assoc,
      List.singleton_append, scanObject, if_neg hhead,
      scanPairs_dumpItems (List.cons_ne_nil kv kvs) h (Nat.le_succ_of_le hlength), Scan.as_ok,
      Value.ofPairs_of_nodup hnodup]

/-- A printed value without nesting is read back. -/
theorem scanValue_scalar (lim : JsonLimits) {v : Value F E} (hdepth : v.depth = 0)
    (hdigits : v.withinDigits lim.digits) : ReadsBack L default (scanValue lim deeper) v := by
  intro level rest hrest
  cases v with
  | null => rfl
  | bool b => cases b <;> rfl
  | int i =>
    have hi : (natText i.natAbs).length ≤ lim.digits := by
      simpa [Value.withinDigits, Value.all] using hdigits
    rw [dump, intText_eq, scanValue_number, ← intText_eq, scanNumber_intText lim i hrest hi]
    rfl
  | float f =>
    change scanValue lim deeper ((PyFloat.repr f).text ++ rest) = .ok (.float f, rest)
    conv_rhs => rw [← PyFloat.ofRepr_repr f]
    cases PyFloat.repr f with
    | nan => rfl
    | infinity negative => cases negative <;> rfl
    | literal l =>
      have htext : l.text ++ rest = (if l.negative then [chr '-'] else []) ++ natText l.whole ++
          (l.fractionText ++ (l.exponent.map exponentText).getD [] ++ rest) := by
        simp [FloatLiteral.text]
      rw [FloatRepr.text, htext, scanValue_number, ← htext, scanNumber_literal lim l hrest]
  | str s => exact scanValue_quoted lim s rest
  | bytes data => exact scanValue_quoted lim _ rest
  | list items => cases hdepth
  | dict items => cases hdepth
  | other e => exact scanValue_quoted lim _ rest

/-- A printed value is scanned back, whatever follows it. -/
theorem scanOnce_dump (L : Layout) (default : Value F E → Text) (lim : JsonLimits) {v : Value F E}
    (hkeys : v.distinctKeys)
    (hdigits : v.withinDigits lim.digits) {d : ℕ} (hdepth : v.depth ≤ d) :
    ReadsBack L default (scanOnce lim d) v := by
  induction v generalizing d with
  | list items ih =>
    obtain ⟨n, rfl⟩ : ∃ n, d = n + 1 := Nat.exists_eq_add_one.mpr (by
      rw [Value.depth] at hdepth
      omega)
    rw [Value.depth, Nat.add_le_add_iff_right, Value.depthList_le] at hdepth
    exact scanValue_list lim (fun v hv => ih v hv ((Value.all_list.mp hkeys).2 v hv)
      ((Value.all_list.mp hdigits).2 v hv) (hdepth v hv))
  | dict items ih =>
    obtain ⟨n, rfl⟩ : ∃ n, d = n + 1 := Nat.exists_eq_add_one.mpr (by
      rw [Value.depth] at hdepth
      omega)
    rw [Value.depth, Nat.add_le_add_iff_right, Value.depthItems_le] at hdepth
    have hnodup := (Value.all_dict.mp hkeys).1
    exact scanValue_dict lim (by simpa using hnodup)
      (fun kv hkv => ih kv hkv ((Value.all_dict.mp hkeys).2 kv hkv)
        ((Value.all_dict.mp hdigits).2 kv hkv) (hdepth kv hkv))
  | _ => cases d <;> exact scanValue_scalar lim rfl hdigits

/-- `json.loads` of what `json.dumps` printed is the value the text shows. -/
theorem loads_dumps (lim : JsonLimits) (L : Layout) (default : Value F E → Text)
    {v : Value F E} (hkeys : v.distinctKeys) (hdigits : v.withinDigits lim.digits)
    (hdepth : v.depth ≤ lim.nesting) : loads lim (dumps L default v) = .ok (v.shown default) := by
  have hscan := scanOnce_dump L default lim hkeys hdigits hdepth 0 []
    endsNumber_nil
  rw [List.append_nil] at hscan
  obtain ⟨c, r, hc, -, -, hascii⟩ := startsValue_dump L default 0 v
  have hbom : c ≠ 0xfeff := fun he => absurd (he ▸ hascii) (by decide)
  have hskip := (startsValue_dump L default 0 v).skipSpace
  rw [loads, dumps, if_neg (by simpa [hc] using hbom), decodeDocument, hskip, hscan]
  rfl

end Kaskade.Python
