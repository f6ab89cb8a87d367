import Kaskade.OffsetResets

/-!
# Reset forms

How the form that resets offsets turns its inputs into a command: `parse_timestamp`,
`parse_partitions`, `target_value` and `reset_command`. The guard `str.isdigit` accepts more texts
than the conversion `int` does.
-/

namespace Kaskade

open Python

def digitRuns : List (ℕ × ℕ) :=
  [(0xb2, 0xb3), (0xb9, 0xb9), (0x1369, 0x1371), (0x19da, 0x19da), (0x2070, 0x2070),
    (0x2074, 0x2079), (0x2080, 0x2089), (0x2460, 0x2468), (0x2474, 0x247c), (0x2488, 0x2490),
    (0x24ea, 0x24ea), (0x24f5, 0x24fd), (0x24ff, 0x24ff), (0x2776, 0x277e), (0x2780, 0x2788),
    (0x278a, 0x2792), (0x10a40, 0x10a43), (0x10e60, 0x10e68), (0x11052, 0x1105a),
    (0x1f100, 0x1f10a)]

/-- A character that `str.isdigit` accepts. -/
def isdigitChr (c : CodePoint) : Bool :=
  (decimalValue? c).isSome || digitRuns.any fun (first, last) => first ≤ c.val && c.val ≤ last

def isdigit (value : Text) : Bool := !value.isEmpty && value.all isdigitChr

/-- What the conversions take from the standard library: the digits `int` converts at most, ISO
times, and the milliseconds of a time, local when it is naive. -/
structure Conversions (D : Type) where
  maxDigits : ℕ
  /-- How `int` words that it refuses a text. -/
  intMessage : Text → Text
  fromisoformat : Text → Outcome D
  /-- `int(moment.astimezone().timestamp() * 1000)`. -/
  localMilliseconds : D → Outcome ℤ

/-- The inputs of `ResetOffsetsScreen` with the topic and the group it is about. -/
structure ResetForm where
  group : Text
  topic : Text
  partitionsCount : ℕ
  target : OffsetTarget
  value : Text
  partitions : Text

inductive ResetInput where
  | value
  | partitions

/-- What `_invalid` reports: the input that gets the focus and the message. -/
structure InvalidReset where
  input : ResetInput
  message : Text

section Parsing

variable {D : Type} (python : Conversions D)

/-- `int(value)`. -/
def Conversions.int (value : Text) : Outcome ℤ :=
  match parseInt? python.maxDigits (strip value) with
  | some number => .ok number
  | none => .error ⟨.valueError, python.intMessage value⟩

def parseTimestamp (value : Text) : Outcome (Option ℤ) :=
  if isdigit value then (python.int value).map some
  else
    match python.fromisoformat value with
    | .error e => if e.isInstance [.valueError] then .ok none else .error e
    | .ok moment => (python.localMilliseconds moment).map some

/-- The items of `parse_partitions`. -/
def partitionItems (value : Text) : List Text := (value.splitOn (chr ',')).map strip

def parsePartitions (value : Text) (count : ℕ) : Outcome (Option (List ℤ)) :=
  if strip value = [] then .ok (some ((List.range count).map Int.ofNat))
  else if !(partitionItems value).all isdigit then .ok none
  else do
    let partitions ← (partitionItems value).mapM python.int
    if ¬ partitions.Nodup ∨ partitions.any (↑count ≤ ·) then return none
    else return some partitions

def targetValue (target : OffsetTarget) (value : Text) : Outcome (ℤ × Option Text) :=
  match target with
  | .timestamp => do
    match ← parseTimestamp python value with
    | none => return (0, some (text "Timestamp: enter an ISO 8601 time or epoch milliseconds"))
    | some timestamp => return (timestamp, none)
  | .offset =>
    if !isdigit value then return (0, some (text "Offset: enter a non-negative integer"))
    else do
      let offset ← python.int value
      return (offset, none)
  | _ => return (0, none)

def partitionsFailure : Text :=
  text "Partitions: enter distinct partition IDs separated by commas, or leave empty for all"

def resetCommand (form : ResetForm) : Outcome (Except InvalidReset ResetOffsetsCommand) := do
  let (value, failure) ← targetValue python form.target (strip form.value)
  match failure with
  | some failure => return .error ⟨.value, failure⟩
  | none =>
    match ← parsePartitions python form.partitions form.partitionsCount with
    | none => return .error ⟨.partitions, partitionsFailure⟩
    | some partitions =>
      return .ok
        { group := form.group, topic := form.topic, partitions := partitions
          target := form.target, value := value }

end Parsing

/-- What `int` asks of digits: decimal ones, and not too many. -/
def Conversions.Convertible {D : Type} (python : Conversions D) (value : Text) : Prop :=
  (∀ c ∈ value, (decimalValue? c).isSome) ∧ value.length ≤ python.maxDigits

theorem isdigitChr_ne {c : CodePoint} (h : isdigitChr c) :
    c ≠ chr '-' ∧ c ≠ chr '+' ∧ c ≠ chr '_' := by
  refine ⟨?_, ?_, ?_⟩ <;>
    rintro rfl <;>
    exact absurd h (by decide)

theorem isSpace_of_isdigitChr {c : CodePoint} (h : isdigitChr c) : isSpace c = false := by
  have hdisjoint : ∀ n ∈ spaceCodes,
      (decimalZeros.find? fun z => z ≤ n ∧ n < z + 10) = none ∧
        digitRuns.any (fun (first, last) => first ≤ n && n ≤ last) = false := by decide
  by_contra hspace
  obtain ⟨hdecimal, hruns⟩ := hdisjoint c.val (by simpa [isSpace] using hspace)
  rw [isdigitChr, decimalValue?, hdecimal, hruns] at h
  exact Bool.false_ne_true h

theorem isdigit_iff {value : Text} : isdigit value ↔ value ≠ [] ∧ ∀ c ∈ value, isdigitChr c := by
  simp [isdigit]

theorem strip_isdigit {value : Text} (h : isdigit value) : strip value = value := by
  obtain ⟨-, hdigits⟩ := isdigit_iff.mp h
  exact strip_eq_self fun c hc => isSpace_of_isdigitChr (hdigits c hc)

/-- A run of digits is converted digit by digit, unless one is no decimal digit. -/
theorem digitRun_eq {t : Text} (hne : t ≠ []) (h : ∀ c ∈ t, isdigitChr c) :
    digitRun t = t.mapM decimalValue? := by
  induction t with
  | nil => exact absurd rfl hne
  | cons c t ih =>
    rw [List.mapM_cons, digitRun]
    cases hc : decimalValue? c with
    | none => rfl
    | some d =>
      cases t with
      | nil => rfl
      | cons u rest =>
        have hu := isdigitChr_ne (h u (by simp))
        have ih := ih (List.cons_ne_nil u rest) fun c hc => h c (List.mem_cons_of_mem _ hc)
        simp only [if_neg hu.2.2, ih]
        cases (u :: rest).mapM decimalValue? <;> rfl

theorem mapM_decimalValue (t : Text) :
    ((∀ c ∈ t, (decimalValue? c).isSome) ∧
      ∃ ds, t.mapM decimalValue? = some ds ∧ ds.length = t.length) ∨
    (¬ (∀ c ∈ t, (decimalValue? c).isSome) ∧ t.mapM decimalValue? = none) := by
  induction t with
  | nil => exact .inl ⟨nofun, [], rfl, rfl⟩
  | cons c t ih =>
    rw [List.mapM_cons, List.forall_mem_cons]
    cases hc : decimalValue? c with
    | none => exact .inr ⟨fun h => by simp at h, rfl⟩
    | some d =>
      rcases ih with ⟨hall, ds, hds, hlength⟩ | ⟨hnot, hnone⟩
      · refine .inl ⟨⟨rfl, hall⟩, d :: ds, ?_, ?_⟩
        · rw [hds]
          rfl
        · rw [List.length_cons, List.length_cons, hlength]
      · refine .inr ⟨fun h => hnot h.2, ?_⟩
        rw [hnone]
        rfl

section Int

variable {D : Type} {python : Conversions D} {value : Text}

theorem parseInt_isdigit (limit : ℕ) (h : isdigit value) :
    parseInt? limit value =
      match value.mapM decimalValue? with
      | none => none
      | some ds => if limit < ds.length then none else some (ds.foldl (fun acc d => 10 * acc + d) 0 : ℕ) := by
  obtain ⟨hne, hdigits⟩ := isdigit_iff.mp h
  have hsign : ∀ c, c = chr '-' ∨ c = chr '+' → (value.head? == some c) = false := by
    intro c hc
    rw [beq_eq_false_iff_ne]
    intro hhead
    have hdigit := isdigitChr_ne (hdigits c (List.mem_of_mem_head? hhead))
    exact hc.elim hdigit.1 hdigit.2.1
  rw [parseInt?, hsign _ (.inl rfl), hsign _ (.inr rfl)]
  cases hvalue : value.mapM decimalValue? with
  | none => simp only [Bool.or_self, Bool.false_eq_true, if_false, digitRun_eq hne hdigits, hvalue]
  | some ds => simp only [Bool.or_self, Bool.false_eq_true, if_false, digitRun_eq hne hdigits, hvalue]

/-- The guard holds of more texts than are converted. -/
theorem int_isdigit (python : Conversions D) (h : isdigit value) :
    (python.Convertible value ∧ ∃ n : ℕ, python.int value = .ok n) ∨
      (¬ python.Convertible value ∧ ∃ e, python.int value = .error e) := by
  rw [Conversions.int, strip_isdigit h, parseInt_isdigit python.maxDigits h]
  rcases mapM_decimalValue value with ⟨hall, ds, hds, hlength⟩ | ⟨hnot, hnone⟩
  · rw [hds]
    by_cases hlimit : value.length ≤ python.maxDigits
    · refine .inl ⟨⟨hall, hlimit⟩, ds.foldl (fun acc d => 10 * acc + d) 0, ?_⟩
      simp only [hlength, if_neg (not_lt.mpr hlimit)]
    · refine .inr ⟨fun hconvertible => hlimit hconvertible.2, ⟨.valueError, python.intMessage value⟩, ?_⟩
      simp only [hlength, if_pos (not_le.mp hlimit)]
  · exact .inr ⟨fun hconvertible => hnot hconvertible.1, _, by rw [hnone]⟩

end Int

/-- The value that the target uses can be converted: digits by `int`, and a time to milliseconds. -/
def ResetForm.ValueConverts {D : Type} (python : Conversions D) (form : ResetForm) : Prop :=
  match form.target with
  | .timestamp =>
    (isdigit (strip form.value) → python.Convertible (strip form.value)) ∧
      (¬ isdigit (strip form.value) → ∀ moment, python.fromisoformat (strip form.value) = .ok moment →
        ∃ milliseconds, python.localMilliseconds moment = .ok milliseconds)
  | .offset => isdigit (strip form.value) → python.Convertible (strip form.value)
  | _ => True

/-- The value is reported: it is neither digits nor, for a time, in ISO format. -/
def ResetForm.ValueReported {D : Type} (python : Conversions D) (form : ResetForm) : Prop :=
  match form.target with
  | .timestamp =>
    ¬ isdigit (strip form.value) ∧ ∀ moment, python.fromisoformat (strip form.value) ≠ .ok moment
  | .offset => ¬ isdigit (strip form.value)
  | _ => False

/-- The partitions can be converted: there are none, some item is no digits, or `int` converts all. -/
def ResetForm.PartitionsConvert {D : Type} (python : Conversions D) (form : ResetForm) : Prop :=
  strip form.partitions = [] ∨ (∃ item ∈ partitionItems form.partitions, ¬ isdigit item) ∨
    ∀ item ∈ partitionItems form.partitions, python.Convertible item

def ResetForm.Converts {D : Type} (python : Conversions D) (form : ResetForm) : Prop :=
  form.ValueConverts python ∧ (¬ form.ValueReported python → form.PartitionsConvert python)

/-- Building the command returns, and what it accepts are partitions of the topic. -/
def ResetForm.Builds {D : Type} (python : Conversions D) (form : ResetForm) : Prop :=
  (∃ result, resetCommand python form = .ok result) ∧
    ∀ command, resetCommand python form = .ok (.ok command) →
      command.partitions ≠ [] ∧ command.partitions.Nodup ∧
        ∀ partition ∈ command.partitions, 0 ≤ partition ∧ partition < form.partitionsCount

section Commands

variable {D : Type} {python : Conversions D} {form : ResetForm}

theorem mapM_int (python : Conversions D) {items : List Text} (h : ∀ item ∈ items, isdigit item) :
    ((∀ item ∈ items, python.Convertible item) ∧
      ∃ numbers : List ℕ, items.mapM python.int = .ok (numbers.map Int.ofNat)  ∧
        numbers.length = items.length) ∨
    (¬ (∀ item ∈ items, python.Convertible item) ∧ ∃ e, items.mapM python.int = .error e) := by
  induction items with
  | nil => exact .inl ⟨nofun, [], rfl, rfl⟩
  | cons item items ih =>
    rw [List.forall_mem_cons] at h
    rw [List.mapM_cons, List.forall_mem_cons]
    rcases int_isdigit python h.1 with ⟨hitem, n, hn⟩ | ⟨hitem, e, he⟩
    · rw [hn]
      rcases ih h.2 with ⟨hall, numbers, hnumbers, hlength⟩ | ⟨hnot, e, he⟩
      · refine .inl ⟨⟨hitem, hall⟩, n :: numbers, ?_, by rw [List.length_cons, hlength]; rfl⟩
        rw [hnumbers]
        rfl
      · refine .inr ⟨fun hall => hnot hall.2, e, ?_⟩
        rw [he]
        rfl
    · exact .inr ⟨fun hall => hitem hall.1, e, by rw [he]; rfl⟩

theorem parsePartitions_iff (python : Conversions D) (form : ResetForm) :
    (∃ partitions, parsePartitions python form.partitions form.partitionsCount = .ok partitions) ↔
      form.PartitionsConvert python := by
  rw [parsePartitions, ResetForm.PartitionsConvert]
  split_ifs with hblank hguard
  · exact ⟨fun _ => .inl hblank, fun _ => ⟨_, rfl⟩⟩
  · refine ⟨fun _ => .inr (.inl ?_), fun _ => ⟨_, rfl⟩⟩
    simpa using hguard
  · have hall : ∀ item ∈ partitionItems form.partitions, isdigit item := by simpa using hguard
    have hnone : ¬ ∃ item ∈ partitionItems form.partitions, ¬ isdigit item :=
      fun ⟨item, hitem, hnot⟩ => hnot (hall item hitem)
    simp only [hblank, hnone, false_or]
    rcases mapM_int python hall with ⟨hconvertible, numbers, hnumbers, -⟩ | ⟨hnot, e, he⟩
    · refine ⟨fun _ => hconvertible, fun _ => ?_⟩
      rw [hnumbers]
      simp only [bind, Except.bind]
      split_ifs <;> exact ⟨_, rfl⟩
    · refine ⟨fun ⟨partitions, h⟩ => ?_, fun h => absurd h hnot⟩
      rw [he] at h
      cases h

theorem parsePartitions_valid {value : Text} {count : ℕ} (hcount : 1 ≤ count) {partitions : List ℤ}
    (h : parsePartitions python value count = .ok (some partitions)) :
    partitions ≠ [] ∧ partitions.Nodup ∧
      ∀ partition ∈ partitions, 0 ≤ partition ∧ partition < count := by
  rw [parsePartitions] at h
  split_ifs at h with hblank hguard
  · obtain rfl := Option.some.inj (Except.ok.inj h)
    refine ⟨?_, List.nodup_range.map fun _ _ => Int.ofNat.inj, ?_⟩
    · rw [ne_eq, List.map_eq_nil_iff, List.range_eq_nil]
      omega
    · intro partition hpartition
      obtain ⟨n, hn, rfl⟩ := List.mem_map.mp hpartition
      rw [List.mem_range] at hn
      simp only [Int.ofNat_eq_natCast]
      omega
  · cases h
  · have hall : ∀ item ∈ partitionItems value, isdigit item := by simpa using hguard
    rcases mapM_int python hall with ⟨-, numbers, hnumbers, hlength⟩ | ⟨-, e, he⟩
    · rw [hnumbers] at h
      simp only [bind, Except.bind] at h
      split_ifs at h with hrefused
      · cases h
      · obtain rfl := Option.some.inj (Except.ok.inj h)
        rw [not_or, not_not] at hrefused
        refine ⟨?_, hrefused.1, ?_⟩
        · rw [ne_eq, List.map_eq_nil_iff, ← List.length_eq_zero_iff, hlength, partitionItems,
            List.length_map, List.length_eq_zero_iff]
          exact List.splitOn_ne_nil _ _
        · intro partition hpartition
          obtain ⟨n, -, rfl⟩ := List.mem_map.mp hpartition
          have hsmall := List.any_eq_false.mp (Bool.not_eq_true _ ▸ hrefused.2) _ hpartition
          simp only [decide_eq_true_eq] at hsmall
          exact ⟨Int.natCast_nonneg n, by omega⟩
    · rw [he] at h
      cases h

theorem targetValue_cases (hiso : ∀ value e, python.fromisoformat value = .error e →
      e.isInstance [.valueError]) :
    (form.ValueConverts python ∧ form.ValueReported python ∧ ∃ failure,
      targetValue python form.target (strip form.value) = .ok (0, some failure)) ∨
    (form.ValueConverts python ∧ ¬ form.ValueReported python ∧ ∃ value,
      targetValue python form.target (strip form.value) = .ok (value, none)) ∨
    (¬ form.ValueConverts python ∧ ∃ e,
      targetValue python form.target (strip form.value) = .error e) := by
  rw [ResetForm.ValueConverts, ResetForm.ValueReported]
  cases form.target with
  | earliest => exact .inr (.inl ⟨trivial, not_false, 0, rfl⟩)
  | latest => exact .inr (.inl ⟨trivial, not_false, 0, rfl⟩)
  | timestamp =>
    simp only [targetValue, parseTimestamp]
    by_cases hdigits : isdigit (strip form.value)
    · simp only [hdigits, if_true, true_implies, not_true_eq_false, false_implies, and_true, false_and]
      rcases int_isdigit python hdigits with ⟨hconvertible, n, hn⟩ | ⟨hnot, e, he⟩
      · refine .inr (.inl ⟨hconvertible, not_false, n, ?_⟩)
        rw [hn]
        rfl
      · refine .inr (.inr ⟨hnot, e, ?_⟩)
        rw [he]
        rfl
    · simp only [hdigits, Bool.false_eq_true, if_false, false_implies, not_false_eq_true, true_implies,
        true_and]
      cases hmoment : python.fromisoformat (strip form.value) with
      | error e =>
        refine .inl ⟨nofun, nofun,
          text "Timestamp: enter an ISO 8601 time or epoch milliseconds", ?_⟩
        simp only [if_pos (hiso _ e hmoment)]
        rfl
      | ok moment =>
        cases hlocal : python.localMilliseconds moment with
        | ok milliseconds =>
          refine .inr (.inl ⟨?_, fun h => h moment rfl, milliseconds, ?_⟩)
          · rintro _ ⟨⟩
            exact ⟨milliseconds, hlocal⟩
          · simp only [hlocal]
            rfl
        | error e =>
          refine .inr (.inr ⟨fun h => ?_, e, ?_⟩)
          · obtain ⟨milliseconds, hok⟩ := h moment rfl
            rw [hlocal] at hok
            cases hok
          · simp only [hlocal]
            rfl
  | offset =>
    simp only [targetValue]
    by_cases hdigits : isdigit (strip form.value)
    · simp only [hdigits, Bool.not_true, Bool.false_eq_true, if_false, true_implies,
        not_true_eq_false]
      rcases int_isdigit python hdigits with ⟨hconvertible, n, hn⟩ | ⟨hnot, e, he⟩
      · refine .inr (.inl ⟨hconvertible, not_false, n, ?_⟩)
        rw [hn]
        rfl
      · refine .inr (.inr ⟨hnot, e, ?_⟩)
        rw [he]
        rfl
    · simp only [hdigits, Bool.false_eq_true, false_implies, not_false_eq_true]
      exact .inl ⟨trivial, trivial, _, rfl⟩

/-- The command is built exactly from inputs that can be converted. -/
theorem builds_iff (hiso : ∀ value e, python.fromisoformat value = .error e →
      e.isInstance [.valueError]) (hcount : 1 ≤ form.partitionsCount) :
    form.Builds python ↔ form.Converts python := by
  rw [ResetForm.Builds, ResetForm.Converts, ← parsePartitions_iff, resetCommand]
  rcases targetValue_cases hiso with ⟨hconverts, hreported, failure, hvalue⟩ |
    ⟨hconverts, hreported, value, hvalue⟩ | ⟨hconverts, e, hvalue⟩
  · rw [hvalue]
    refine ⟨fun _ => ⟨hconverts, fun hnot => absurd hreported hnot⟩, fun _ => ⟨⟨_, rfl⟩, ?_⟩⟩
    intro command hcommand
    cases hcommand
  · rw [hvalue]
    simp only [hconverts, hreported, not_false_eq_true, true_implies, true_and, bind, Except.bind]
    cases hpartitions : parsePartitions python form.partitions form.partitionsCount with
    | error e =>
      constructor
      · rintro ⟨⟨result, hresult⟩, -⟩
        cases hresult
      · rintro ⟨partitions, hresult⟩
        cases hresult
    | ok partitions =>
      refine ⟨fun _ => ⟨partitions, rfl⟩, fun _ => ?_⟩
      cases partitions with
      | none =>
        refine ⟨⟨_, rfl⟩, fun command hcommand => ?_⟩
        cases hcommand
      | some partitions =>
        refine ⟨⟨_, rfl⟩, fun command hcommand => ?_⟩
        cases hcommand
        exact parsePartitions_valid hcount hpartitions
  · rw [hvalue]
    refine ⟨fun ⟨⟨result, hresult⟩, _⟩ => ?_, fun h => absurd h.1 hconverts⟩
    cases hresult

end Commands

def oneTime : Conversions ℤ where
  maxDigits := 4300
  intMessage _ := text "invalid literal for int() with base 10"
  fromisoformat value :=
    if value = text "1970-01-01T00:00:01+00:00" then .ok 1000
    else .error ⟨.valueError, text "Invalid isoformat string"⟩
  localMilliseconds milliseconds := .ok milliseconds

def offsetForm (value : Text) : ResetForm where
  group := text "billing"
  topic := text "orders"
  partitionsCount := 3
  target := .offset
  value := value
  partitions := text " 2, 0 "

theorem oneTime_convertible {value : Text}
    (h : value.all (fun c => (decimalValue? c).isSome) ∧ value.length ≤ 10) :
    oneTime.Convertible value :=
  ⟨List.all_eq_true.mp h.1, h.2.trans (Nat.le_of_ble_eq_true rfl)⟩

theorem builds_iff_seven : (offsetForm (text "7")).Builds oneTime := by
  have hitems : ∀ item ∈ partitionItems (text " 2, 0 "),
      item.all (fun c => (decimalValue? c).isSome) ∧ item.length ≤ 10 := by
    have hsplit : partitionItems (text " 2, 0 ") = [text "2", text "0"] := by decide
    rw [hsplit, List.forall_mem_cons, List.forall_mem_singleton]
    decide
  refine (builds_iff ?_ (by decide)).mpr
    ⟨fun _ => oneTime_convertible (by decide), fun _ => .inr (.inr ?_)⟩
  · intro value e he
    simp only [oneTime] at he
    split_ifs at he
    cases he
    rfl
  · exact fun item hitem => oneTime_convertible (hitems item hitem)

/-- `str.isdigit` accepts a superscript two, and `int` does not. -/
theorem not_builds_superscript : ¬ (offsetForm (text "²")).Builds oneTime := by
  have hraises : resetCommand oneTime (offsetForm (text "²")) =
      .error ⟨.valueError, text "invalid literal for int() with base 10"⟩ := rfl
  rintro ⟨⟨result, hresult⟩, -⟩
  rw [hraises] at hresult
  cases hresult

end Kaskade
