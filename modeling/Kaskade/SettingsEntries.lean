import Kaskade.Dictionaries
import Kaskade.Exceptions
import Kaskade.PythonValues

/-!
# Entries of the settings

The data of the settings file and how its entries are read one by one: key bindings
(`parse_keymap`) and timeouts (`parse_timeout_seconds`). An entry yields a value or a warning.
-/

namespace Kaskade

open Python

/-- A key of a mapping; `O` are the keys that are neither texts nor integers. -/
inductive YamlKey (O : Type) where
  | str (value : Text)
  | int (value : ℤ)
  | other (value : O)
  deriving DecidableEq

/-- What `yaml.safe_load` returns; `F` are the floats and `O` further scalars, such as dates. -/
inductive YamlValue (F O : Type) where
  | null
  | bool (value : Bool)
  | int (value : ℤ)
  | float (value : F)
  | str (value : Text)
  | other (value : O)
  | list (items : List (YamlValue F O))
  | dict (entries : List (YamlKey O × YamlValue F O))

/-- What the settings ask of Python and Textual. -/
structure SettingsPython (F O : Type) where
  /-- The longest integer that is converted to a text. -/
  maxDigits : ℕ
  /-- How the refusal to convert a longer one is worded. -/
  digitsMessage : Text
  reprText : Text → Text
  strOther : O → Text
  reprOther : O → Text
  /-- `float(value)` of an integer. -/
  floatOfInt : ℤ → Outcome F
  isPrintable : CodePoint → Bool
  /-- `_NAMED_KEYS`. -/
  namedKeys : Text → Bool
  /-- `key_to_character`. -/
  keyToCharacter : Text → Outcome (Option Text)

variable {F O : Type}

/-- `str(value)` of an integer. -/
def SettingsPython.strInt (python : SettingsPython F O) (value : ℤ) : Outcome Text :=
  if python.maxDigits < (natText value.natAbs).length then .error ⟨.valueError, python.digitsMessage⟩
  else .ok (intText value)

def SettingsPython.strKey (python : SettingsPython F O) : YamlKey O → Outcome Text
  | .str value => .ok value
  | .int value => python.strInt value
  | .other value => .ok (python.strOther value)

def SettingsPython.reprKey (python : SettingsPython F O) : YamlKey O → Outcome Text
  | .str value => .ok (python.reprText value)
  | .int value => python.strInt value
  | .other value => .ok (python.reprOther value)

/-- What is made of an entry: it is kept under a key, or it is ignored with a warning. -/
inductive EntryResult (κ β : Type) where
  | kept (key : κ) (value : β)
  | ignored (warning : Text)

/-- What a loop over the entries has collected. -/
structure Collected (κ β : Type) where
  values : List (κ × β) := []
  warnings : List Text := []

def Collected.add {κ β : Type} [DecidableEq κ] (collected : Collected κ β) :
    EntryResult κ β → Collected κ β
  | .kept key value => { collected with values := Dictionary.setItem collected.values key value }
  | .ignored warning => { collected with warnings := collected.warnings ++ [warning] }

/-- The loops of `parse_keymap` and `_parse_timeouts`. -/
def collectEntries {α κ β : Type} [DecidableEq κ] (result : α → Outcome (EntryResult κ β))
    (entries : List α) : Outcome (Collected κ β) :=
  entries.foldlM (fun collected entry => collected.add <$> result entry) {}

def navigationBindingIds : List Text :=
  [text "kaskade.navigation.down", text "kaskade.navigation.end",
    text "kaskade.navigation.first", text "kaskade.navigation.home",
    text "kaskade.navigation.last", text "kaskade.navigation.left",
    text "kaskade.navigation.page-down", text "kaskade.navigation.page-left",
    text "kaskade.navigation.page-right", text "kaskade.navigation.page-up",
    text "kaskade.navigation.right", text "kaskade.navigation.select",
    text "kaskade.navigation.up"]

def knownBindingIds : List Text :=
  [text "app.command-palette", text "app.quit", text "help.toggle", text "kaskade.help.close",
    text "kaskade.chunk-size.close", text "kaskade.chunk-size.select",
    text "kaskade.compose.produce", text "kaskade.compose.summary",
    text "kaskade.create-topic.close", text "kaskade.create-topic.save",
    text "kaskade.review-offset-reset.close", text "kaskade.review-offset-reset.apply",
    text "kaskade.reset-offsets.review", text "kaskade.reset-offsets.close",
    text "kaskade.describe-topic.reset-offsets", text "kaskade.describe-topic.delete-group",
    text "kaskade.delete-group.confirm", text "kaskade.delete-group.cancel",
    text "kaskade.delete-topic.cancel", text "kaskade.delete-topic.confirm",
    text "kaskade.describe-topic.close", text "kaskade.edit-topic.close",
    text "kaskade.edit-topic.save", text "kaskade.filter-records.close",
    text "kaskade.filter-records.apply", text "kaskade.filter-topics.close",
    text "kaskade.filter-topics.apply", text "kaskade.headers.delete",
    text "kaskade.record-details.close", text "kaskade.record-details.next",
    text "kaskade.record-details.previous", text "kaskade.records.chunk-size",
    text "kaskade.records.consume", text "kaskade.records.copy", text "kaskade.records.export",
    text "kaskade.records.filter", text "kaskade.records.show", text "kaskade.records.show-all",
    text "kaskade.review-topic-changes.apply", text "kaskade.review-topic-changes.close",
    text "kaskade.topics.create", text "kaskade.topics.copy", text "kaskade.topics.delete",
    text "kaskade.topics.describe", text "kaskade.topics.edit", text "kaskade.topics.filter",
    text "kaskade.topics.refresh", text "kaskade.topics.show-all"] ++ navigationBindingIds

def keyModifiers : List Text := [text "alt", text "ctrl", text "meta", text "shift", text "super"]

section Keys

variable (python : SettingsPython F O)

def isPlainKey (key : Text) : Bool :=
  python.namedKeys key ||
    match key with
    | [c] => python.isPrintable c
    | _ => false

def isValidKey (key : Text) : Outcome Bool :=
  if key = [] then .ok false
  else if isPlainKey python key then .ok true
  else do
    if (← python.keyToCharacter key).isSome then return true
    let parts := key.splitOn (chr '+')
    if parts.length < 2 ∨ parts.dropLast.any (fun modifier => !keyModifiers.contains modifier) then
      return false
    let baseKey := parts.getLastD []
    if isPlainKey python baseKey then return true
    return (← python.keyToCharacter baseKey).isSome

def invalidKeys : List Text → Outcome (List Text)
  | [] => .ok []
  | key :: keys => do
    let valid ← isValidKey python (strip key)
    let invalid ← invalidKeys keys
    return if valid then invalid else key :: invalid

/-- What the loop of `parse_keymap` makes of the keys of a known binding. -/
def keysResult (bindingId : Text) : YamlValue F O → Outcome (EntryResult Text Text)
  | .str keys =>
    if strip keys = [] then
      return .ignored (text "Ignoring " ++ python.reprText bindingId ++
        text ": keys must be a non-empty string")
    else do
      let invalid ← invalidKeys python (keys.splitOn (chr ','))
      if invalid ≠ [] then
        return .ignored (text "Ignoring " ++ python.reprText bindingId ++
          text ": invalid key name(s) " ++ (text ", ").intercalate invalid)
      else return .kept bindingId keys
  | _ =>
    return .ignored (text "Ignoring " ++ python.reprText bindingId ++
      text ": keys must be a non-empty string")

/-- The body of the loop of `parse_keymap`. -/
def bindingResult (entry : YamlKey O × YamlValue F O) : Outcome (EntryResult Text Text) :=
  match entry with
  | (.str bindingId, value) =>
    if knownBindingIds.contains bindingId then keysResult python bindingId value
    else return .ignored (text "Ignoring unknown binding ID: " ++ python.reprText bindingId)
  | (key, _) => do
    let shown ← python.reprKey key
    return .ignored (text "Ignoring unknown binding ID: " ++ shown)

def parseKeymap (settingsPath : Text) (configured : YamlValue F O) : Outcome (Collected Text Text) :=
  match configured with
  | .dict entries => collectEntries (bindingResult python) entries
  | _ => return { warnings := [text "Ignoring " ++ settingsPath ++ text ": 'keymap' must be a mapping"] }

end Keys

/-- The names of `TIMEOUT_PROPERTIES`. -/
inductive TimeoutProperty where
  | consumerPoll
  | consumerIdle
  | consumerAssignment
  | consumerRequest
  | adminRead
  | adminWrite
  | producerDelivery
  | producerFlush
  deriving DecidableEq

def TimeoutProperty.name : TimeoutProperty → Text
  | .consumerPoll => text "consumer.poll"
  | .consumerIdle => text "consumer.idle"
  | .consumerAssignment => text "consumer.assignment"
  | .consumerRequest => text "consumer.request"
  | .adminRead => text "admin.read"
  | .adminWrite => text "admin.write"
  | .producerDelivery => text "producer.delivery"
  | .producerFlush => text "producer.flush"

/-- `property_name.partition(".")[2]`. -/
def TimeoutProperty.setting (property : TimeoutProperty) : Text :=
  (property.name.dropWhile (· ≠ chr '.')).drop 1

/-- The default in `TimeoutConfig`. -/
def TimeoutProperty.default : TimeoutProperty → FloatLiteral
  | .consumerPoll => ⟨false, 0, [5], none, .inl (by decide)⟩
  | .consumerIdle => ⟨false, 2, [5], none, .inl (by decide)⟩
  | .consumerAssignment => ⟨false, 15, [0], none, .inl (by decide)⟩
  | .consumerRequest => ⟨false, 10, [0], none, .inl (by decide)⟩
  | .adminRead => ⟨false, 10, [0], none, .inl (by decide)⟩
  | .adminWrite => ⟨false, 60, [0], none, .inl (by decide)⟩
  | .producerDelivery => ⟨false, 45, [0], none, .inl (by decide)⟩
  | .producerFlush => ⟨false, 5, [0], none, .inl (by decide)⟩

def adminTimeoutProperties : List TimeoutProperty := [.adminRead, .adminWrite]

def consumerTimeoutProperties : List TimeoutProperty :=
  [.consumerPoll, .consumerIdle, .consumerAssignment, .consumerRequest]

def producerTimeoutProperties : List TimeoutProperty := [.producerDelivery, .producerFlush]

/-- The fields of a `TimeoutConfig` by their property. -/
abbrev TimeoutConfig (F : Type) := TimeoutProperty → F

section Timeouts

variable [PyFloat F] (python : SettingsPython F O)

/-- A finite number of seconds greater than zero. -/
def isTimeout (seconds : F) : Bool :=
  match PyFloat.repr seconds with
  | .literal _ => PyFloat.compareInt seconds 0 = some .gt
  | _ => false

/-- `float(value)` of an integer or a float. -/
def SettingsPython.toFloat (python : SettingsPython F O) : ℤ ⊕ F → Outcome F
  | .inl value => python.floatOfInt value
  | .inr value => .ok value

def parseTimeoutSeconds (property : TimeoutProperty) (rawValue : ℤ ⊕ F) : Outcome F := do
  let value ← Outcome.tryExcept (python.toFloat rawValue) [.valueError] fun _ =>
    .error ⟨.valueError, property.name ++ text " must be a number of seconds"⟩
  if !isTimeout value then throw ⟨.valueError, property.name ++ text " must be greater than zero"⟩
  return value

/-- `_is_timeout_seconds`; a Boolean is no number here. -/
def isTimeoutSeconds (property : TimeoutProperty) (value : YamlValue F O) : Outcome (Option (ℤ ⊕ F)) :=
  match value with
  | .int number => accepted (.inl number)
  | .float number => accepted (.inr number)
  | _ => .ok none
where
  accepted (rawValue : ℤ ⊕ F) : Outcome (Option (ℤ ⊕ F)) :=
    Outcome.tryExcept (parseTimeoutSeconds python property rawValue >>= fun _ => .ok (some rawValue))
      [.valueError] fun _ => .ok none

/-- `property_names.get(name)`; the names are texts. -/
def propertyNamed (properties : List TimeoutProperty) : YamlKey O → Option TimeoutProperty
  | .str name => properties.find? (·.setting = name)
  | _ => none

/-- The body of the loop of `_parse_timeouts`. -/
def timeoutResult (path : Text) (properties : List TimeoutProperty)
    (entry : YamlKey O × YamlValue F O) : Outcome (EntryResult TimeoutProperty F) :=
  match propertyNamed properties entry.1 with
  | none => do
    let shown ← python.strKey entry.1
    return .ignored (text "Ignoring '" ++ path ++ text "." ++ shown ++ text "': unknown setting")
  | some property => do
    match ← isTimeoutSeconds python property entry.2 with
    | some value =>
      let seconds ← python.toFloat value
      return .kept property seconds
    | none => do
      let shown ← python.strKey entry.1
      return .ignored (text "Ignoring '" ++ path ++ text "." ++ shown ++
        text "': it must be a number of seconds greater than zero")

end Timeouts

section Collecting

variable {α κ β : Type} [DecidableEq κ] {result : α → Outcome (EntryResult κ β)}

/-- A loop that returns has read every entry. -/
theorem foldlM_ok_iff (entries : List α) (collected final : Collected κ β) :
    entries.foldlM (fun (collected : Collected κ β) entry => collected.add <$> result entry) collected =
        .ok final ↔
      ∃ results : List (EntryResult κ β), entries.map result = results.map .ok ∧
        final = results.foldl Collected.add collected := by
  induction entries generalizing collected with
  | nil =>
    constructor
    · rintro ⟨⟩
      exact ⟨[], rfl, rfl⟩
    · rintro ⟨results, hresults, rfl⟩
      obtain rfl := List.map_eq_nil_iff.mp hresults.symm
      rfl
  | cons entry entries ih =>
    rw [List.foldlM_cons, List.map_cons]
    cases hentry : result entry with
    | error e =>
      constructor
      · rintro ⟨⟩
      · rintro ⟨_ | ⟨_, _⟩, hresults, -⟩
        · cases hresults
        · cases (List.cons.inj hresults).1
    | ok entryResult =>
      refine (ih (collected.add entryResult)).trans ⟨?_, ?_⟩
      · rintro ⟨results, hresults, rfl⟩
        exact ⟨entryResult :: results, by rw [hresults]; rfl, rfl⟩
      · rintro ⟨_ | ⟨first, results⟩, hresults, rfl⟩
        · cases hresults
        · obtain ⟨hfirst, hrest⟩ := List.cons.inj hresults
          cases hfirst
          exact ⟨results, hrest, rfl⟩

theorem collectEntries_ok_iff {entries : List α} {collected : Collected κ β} :
    collectEntries result entries = .ok collected ↔
      ∃ results : List (EntryResult κ β), entries.map result = results.map .ok ∧
        collected = results.foldl Collected.add {} :=
  foldlM_ok_iff entries {} collected

/-- The loop returns if it can read every entry. -/
theorem collectEntries_returns_iff {entries : List α} :
    (∃ collected, collectEntries result entries = .ok collected) ↔
      ∀ entry ∈ entries, ∃ entryResult, result entry = .ok entryResult := by
  simp only [collectEntries_ok_iff]
  constructor
  · rintro ⟨_, results, hresults, -⟩ entry hentry
    have hmem : result entry ∈ results.map Except.ok := hresults ▸ List.mem_map_of_mem hentry
    obtain ⟨entryResult, -, hresult⟩ := List.mem_map.mp hmem
    exact ⟨entryResult, hresult.symm⟩
  · intro h
    obtain ⟨results, hresults⟩ : ∃ results : List (EntryResult κ β),
        entries.map result = results.map .ok := by
      induction entries with
      | nil => exact ⟨[], rfl⟩
      | cons entry entries ih =>
        obtain ⟨entryResult, hentry⟩ := h entry List.mem_cons_self
        obtain ⟨results, hresults⟩ := ih fun other hother => h other (List.mem_cons_of_mem _ hother)
        exact ⟨entryResult :: results, by rw [List.map_cons, List.map_cons, hentry, hresults]⟩
    exact ⟨_, results, hresults, rfl⟩

/-- Warnings only come after those there were, and nothing else depends on them. -/
theorem foldl_add_warnings (results : List (EntryResult κ β)) (values : List (κ × β))
    (warnings : List Text) :
    results.foldl Collected.add ⟨values, warnings⟩ =
      ⟨(results.foldl Collected.add ⟨values, []⟩).values,
        warnings ++ (results.foldl Collected.add ⟨values, []⟩).warnings⟩ := by
  induction results generalizing values warnings with
  | nil => simp
  | cons entryResult results ih =>
    cases entryResult with
    | kept key value => exact ih _ _
    | ignored warning =>
      simp only [List.foldl_cons, Collected.add]
      rw [ih values (warnings ++ [warning]), ih values ([] ++ [warning])]
      simp

/-- An ignored entry leaves its warning and nothing else. -/
theorem collectEntries_drop {before after : List α} {entry : α} {warning : Text}
    (hentry : result entry = .ok (.ignored warning)) {collected : Collected κ β}
    (h : collectEntries result (before ++ entry :: after) = .ok collected) :
    ∃ earlier later, collected.warnings = earlier ++ warning :: later ∧
      collectEntries result (before ++ after) = .ok { collected with warnings := earlier ++ later } := by
  obtain ⟨results, hresults, rfl⟩ := collectEntries_ok_iff.mp h
  rw [List.map_append, List.map_cons, hentry] at hresults
  obtain ⟨first, rest, rfl, hfirst, hrest⟩ := List.map_eq_append_iff.mp hresults.symm
  obtain ⟨_, second, rfl, ⟨⟩, hsecond⟩ := List.map_eq_cons_iff.mp hrest
  let state := first.foldl Collected.add {}
  have hstate : (first ++ .ignored warning :: second).foldl Collected.add {} =
      second.foldl Collected.add ⟨state.values, state.warnings ++ [warning]⟩ := by
    rw [List.foldl_append]
    rfl
  refine ⟨state.warnings, (second.foldl Collected.add ⟨state.values, []⟩).warnings, ?_,
    collectEntries_ok_iff.mpr ⟨first ++ second, ?_, ?_⟩⟩
  · rw [hstate, foldl_add_warnings, List.append_assoc]
    rfl
  · rw [List.map_append, List.map_append, hfirst, hsecond]
  · rw [hstate, foldl_add_warnings, List.foldl_append]
    exact (foldl_add_warnings second state.values state.warnings).symm

theorem collectEntries_mem {entries : List α} {collected : Collected κ β}
    (h : collectEntries result entries = .ok collected) :
    ∀ value ∈ collected.values, ∃ entry ∈ entries, result entry = .ok (.kept value.1 value.2) := by
  obtain ⟨results, hresults, rfl⟩ := collectEntries_ok_iff.mp h
  have hkept : ∀ value ∈ (results.foldl Collected.add {}).values, .kept value.1 value.2 ∈ results := by
    clear hresults h
    induction results using List.reverseRecOn with
    | nil => exact fun value hvalue => absurd hvalue List.not_mem_nil
    | append_singleton before entryResult ih =>
      intro value hvalue
      rw [List.foldl_append] at hvalue
      cases entryResult with
      | ignored warning => exact List.mem_append_left _ (ih value hvalue)
      | kept key kept =>
        rcases Dictionary.mem_setItem hvalue with hold | rfl
        · exact List.mem_append_left _ (ih value hold)
        · exact List.mem_append_right _ List.mem_cons_self
  intro value hvalue
  have hmem : (.ok (.kept value.1 value.2) : Outcome (EntryResult κ β)) ∈ entries.map result :=
    hresults ▸ List.mem_map_of_mem (hkept value hvalue)
  obtain ⟨entry, hentry, hresult⟩ := List.mem_map.mp hmem
  exact ⟨entry, hentry, hresult⟩

end Collecting

/-- The key can be shown: it is no integer that is too long to be converted to a text. -/
def KeyPrints (python : SettingsPython F O) : YamlKey O → Prop
  | .int value => (natText value.natAbs).length ≤ python.maxDigits
  | _ => True

/-- `key_to_character` answers what it is asked to decide whether the key is valid: the key, unless
it is plain, and the key after the modifiers, unless that is plain. -/
def KeyResolves (python : SettingsPython F O) (key : Text) : Prop :=
  key = [] ∨ isPlainKey python key ∨ (∃ character, python.keyToCharacter key = .ok (some character)) ∨
    python.keyToCharacter key = .ok none ∧
      let parts := key.splitOn (chr '+')
      parts.length < 2 ∨ parts.dropLast.any (fun modifier => !keyModifiers.contains modifier) ∨
        isPlainKey python (parts.getLastD []) ∨
          ∃ character, python.keyToCharacter (parts.getLastD []) = .ok character

/-- What an entry of the keymap asks can be answered. -/
def BindingReads (python : SettingsPython F O) (entry : YamlKey O × YamlValue F O) : Prop :=
  match entry with
  | (.str bindingId, .str keys) => bindingId ∈ knownBindingIds → strip keys ≠ [] →
      ∀ key ∈ keys.splitOn (chr ','), KeyResolves python (strip key)
  | (key, _) => KeyPrints python key

def ValidBinding (python : SettingsPython F O) (bindingId keys : Text) : Prop :=
  bindingId ∈ knownBindingIds ∧ strip keys ≠ [] ∧
    ∀ key ∈ keys.splitOn (chr ','), isValidKey python (strip key) = .ok true

section Reading

variable {python : SettingsPython F O}

theorem strInt_returns_iff {value : ℤ} :
    (∃ shown, python.strInt value = .ok shown) ↔ (natText value.natAbs).length ≤ python.maxDigits := by
  rw [SettingsPython.strInt]
  split_ifs with hlong
  · exact ⟨nofun, fun h => absurd h (not_le.mpr hlong)⟩
  · exact ⟨fun _ => not_lt.mp hlong, fun _ => ⟨_, rfl⟩⟩

theorem strKey_returns_iff {key : YamlKey O} :
    (∃ shown, python.strKey key = .ok shown) ↔ KeyPrints python key := by
  cases key with
  | int value => exact strInt_returns_iff
  | str value => exact ⟨fun _ => trivial, fun _ => ⟨_, rfl⟩⟩
  | other value => exact ⟨fun _ => trivial, fun _ => ⟨_, rfl⟩⟩

theorem reprKey_returns_iff {key : YamlKey O} :
    (∃ shown, python.reprKey key = .ok shown) ↔ KeyPrints python key := by
  cases key with
  | int value => exact strInt_returns_iff
  | str value => exact ⟨fun _ => trivial, fun _ => ⟨_, rfl⟩⟩
  | other value => exact ⟨fun _ => trivial, fun _ => ⟨_, rfl⟩⟩

theorem isValidKey_returns_iff {key : Text} :
    (∃ valid, isValidKey python key = .ok valid) ↔ KeyResolves python key := by
  rw [isValidKey, KeyResolves]
  split_ifs with hempty hplain
  · exact ⟨fun _ => .inl hempty, fun _ => ⟨_, rfl⟩⟩
  · exact ⟨fun _ => .inr (.inl hplain), fun _ => ⟨_, rfl⟩⟩
  · cases hkey : python.keyToCharacter key with
    | error e => simp [hempty, hplain, bind, Except.bind]
    | ok character =>
      cases character with
      | some character => simp [bind, Except.bind, pure, Except.pure]
      | none =>
        simp only [hempty, hplain, bind, Except.bind, Option.isSome_none, Bool.false_eq_true, if_false,
          pure, Except.pure, false_or, reduceCtorEq, exists_false, Except.ok.injEq, true_and]
        split_ifs with hmodified hbase
        · exact ⟨fun _ => by tauto, fun _ => ⟨_, rfl⟩⟩
        · exact ⟨fun _ => .inr (.inr (.inl hbase)), fun _ => ⟨_, rfl⟩⟩
        · rw [not_or] at hmodified
          simp only [hmodified.1, hmodified.2, hbase, false_or]
          cases python.keyToCharacter ((key.splitOn (chr '+')).getLastD []) with
          | error e => simp
          | ok character => simp

/-- Some key is not valid, or the list of those is empty. -/
theorem invalidKeys_returns_iff {keys : List Text} :
    (∃ invalid, invalidKeys python keys = .ok invalid) ↔
      ∀ key ∈ keys, KeyResolves python (strip key) := by
  induction keys with
  | nil => exact ⟨fun _ => nofun, fun _ => ⟨_, rfl⟩⟩
  | cons key keys ih =>
    rw [List.forall_mem_cons, ← isValidKey_returns_iff, ← ih, invalidKeys]
    cases isValidKey python (strip key) with
    | error e => simp [bind, Except.bind]
    | ok valid =>
      cases invalidKeys python keys with
      | error e => simp [bind, Except.bind]
      | ok invalid => simp [bind, Except.bind, pure, Except.pure]

theorem invalidKeys_nil {keys : List Text} (h : invalidKeys python keys = .ok []) :
    ∀ key ∈ keys, isValidKey python (strip key) = .ok true := by
  induction keys with
  | nil => exact nofun
  | cons key keys ih =>
    rw [invalidKeys] at h
    cases hkey : isValidKey python (strip key) with
    | error e =>
      rw [hkey] at h
      cases h
    | ok valid =>
      cases hkeys : invalidKeys python keys with
      | error e =>
        rw [hkey, hkeys] at h
        cases h
      | ok invalid =>
        rw [hkey, hkeys] at h
        have hnone : (if valid then invalid else key :: invalid) = [] := Except.ok.inj h
        cases valid with
        | false => cases hnone
        | true =>
          rw [if_pos rfl] at hnone
          rw [List.forall_mem_cons]
          exact ⟨hkey, ih (hnone ▸ hkeys)⟩

theorem keysResult_returns_iff {bindingId keys : Text} :
    (∃ entryResult, keysResult (F := F) (O := O) python bindingId (.str keys) = .ok entryResult) ↔
      (strip keys ≠ [] → ∀ key ∈ keys.splitOn (chr ','), KeyResolves python (strip key)) := by
  rw [keysResult]
  split_ifs with hblank
  · exact ⟨fun _ hne => absurd hblank hne, fun _ => ⟨_, rfl⟩⟩
  · rw [← invalidKeys_returns_iff]
    cases invalidKeys python (keys.splitOn (chr ',')) with
    | error e => simp [hblank, bind, Except.bind]
    | ok invalid =>
      simp only [bind, Except.bind]
      split_ifs <;> simp [pure, Except.pure]

theorem bind_returns_iff {α β : Type} {call : Outcome α} {next : α → β} :
    (∃ value, (call >>= fun a => pure (next a)) = .ok value) ↔ ∃ value, call = .ok value := by
  cases call with
  | error e => exact ⟨nofun, nofun⟩
  | ok value => exact ⟨fun _ => ⟨value, rfl⟩, fun _ => ⟨next value, rfl⟩⟩

theorem bindingResult_returns_iff {entry : YamlKey O × YamlValue F O} :
    (∃ entryResult, bindingResult python entry = .ok entryResult) ↔ BindingReads python entry := by
  obtain ⟨key, value⟩ := entry
  cases key with
  | int i => exact bind_returns_iff.trans reprKey_returns_iff
  | other o => exact bind_returns_iff.trans reprKey_returns_iff
  | str bindingId =>
    simp only [bindingResult]
    by_cases hknown : bindingId ∈ knownBindingIds
    · rw [if_pos (List.contains_iff_mem.mpr hknown)]
      cases value with
      | str keys => exact keysResult_returns_iff.trans ⟨fun h _ => h, fun h => h hknown⟩
      | _ => exact ⟨fun _ => trivial, fun _ => ⟨_, rfl⟩⟩
    · rw [if_neg (mt List.contains_iff_mem.mp hknown)]
      cases value with
      | str keys => exact ⟨fun _ hmem => absurd hmem hknown, fun _ => ⟨_, rfl⟩⟩
      | _ => exact ⟨fun _ => trivial, fun _ => ⟨_, rfl⟩⟩

theorem bindingResult_kept {entry : YamlKey O × YamlValue F O} {bindingId keys : Text}
    (h : bindingResult python entry = .ok (.kept bindingId keys)) :
    entry = (.str bindingId, .str keys) ∧ ValidBinding python bindingId keys := by
  obtain ⟨key, value⟩ := entry
  have hraises : ∀ key : YamlKey O, (python.reprKey key >>= fun shown =>
      pure (EntryResult.ignored (text "Ignoring unknown binding ID: " ++ shown))) ≠
        (.ok (.kept bindingId keys) : Outcome (EntryResult Text Text)) := by
    intro key
    cases python.reprKey key <;> exact nofun
  cases key with
  | int i => exact absurd h (hraises _)
  | other o => exact absurd h (hraises _)
  | str other =>
    simp only [bindingResult] at h
    split_ifs at h with hknown
    · cases value with
      | str configured =>
        simp only [keysResult] at h
        split_ifs at h with hblank
        · cases h
        · cases hinvalid : invalidKeys python (configured.splitOn (chr ',')) with
          | error e =>
            rw [hinvalid] at h
            cases h
          | ok invalid =>
            rw [hinvalid] at h
            simp only [bind, Except.bind] at h
            split_ifs at h with hsome
            · cases h
            · cases h
              obtain rfl := not_not.mp hsome
              exact ⟨rfl, List.contains_iff_mem.mp hknown, hblank, invalidKeys_nil hinvalid⟩
      | _ => cases h
    · cases h

theorem bindingResult_ignored {entry : YamlKey O × YamlValue F O} {entryResult : EntryResult Text Text}
    (h : bindingResult python entry = .ok entryResult)
    (hinvalid : ∀ bindingId keys, entry = (.str bindingId, .str keys) →
      ¬ ValidBinding python bindingId keys) :
    ∃ warning, entryResult = .ignored warning := by
  cases entryResult with
  | ignored warning => exact ⟨warning, rfl⟩
  | kept bindingId keys =>
    obtain ⟨hentry, hvalid⟩ := bindingResult_kept h
    exact absurd hvalid (hinvalid bindingId keys hentry)

end Reading

/-- What an entry of the timeouts asks can be answered: an unknown name can be shown, and an integer
is not too large for a float. -/
def TimeoutReads (python : SettingsPython F O) (properties : List TimeoutProperty)
    (entry : YamlKey O × YamlValue F O) : Prop :=
  match propertyNamed properties entry.1 with
  | none => KeyPrints python entry.1
  | some _ => ∀ number e, entry.2 = .int number → python.floatOfInt number = .error e →
      e.isInstance [.valueError]

def NumberIs (python : SettingsPython F O) (value : YamlValue F O) (seconds : F) : Prop :=
  (∃ number, value = .int number ∧ python.floatOfInt number = .ok seconds) ∨ value = .float seconds

/-- The entry sets a timeout of the section to a finite number of seconds greater than zero. -/
def ValidTimeout [PyFloat F] (python : SettingsPython F O) (properties : List TimeoutProperty)
    (entry : YamlKey O × YamlValue F O) : Prop :=
  (propertyNamed properties entry.1).isSome ∧
    ∃ seconds, NumberIs python entry.2 seconds ∧ isTimeout seconds

section ReadingTimeouts

variable [PyFloat F] {python : SettingsPython F O}

/-- The value error of a number of seconds is caught, another one is not. -/
theorem accepted_eq {property : TimeoutProperty} {rawValue : ℤ ⊕ F} :
    isTimeoutSeconds.accepted (O := O) python property rawValue =
      match python.toFloat rawValue with
      | .ok seconds => .ok (if isTimeout seconds then some rawValue else none)
      | .error e => if e.isInstance [.valueError] then .ok none else .error e := by
  rw [isTimeoutSeconds.accepted, parseTimeoutSeconds]
  cases python.toFloat rawValue with
  | error e =>
    simp only [Outcome.tryExcept]
    split_ifs with he
    · rfl
    · simp [bind, Except.bind, he]
  | ok seconds =>
    simp only [Outcome.tryExcept, bind, Except.bind]
    cases isTimeout seconds <;> rfl

theorem propertyNamed_key {properties : List TimeoutProperty} {key : YamlKey O}
    {property : TimeoutProperty} (h : propertyNamed properties key = some property) :
    ∃ name, key = .str name := by
  cases key with
  | str name => exact ⟨name, rfl⟩
  | int value => cases h
  | other value => cases h

theorem timeoutResult_number {path name : Text} {properties : List TimeoutProperty}
    {property : TimeoutProperty} {value : YamlValue F O} (rawValue : ℤ ⊕ F)
    (hproperty : propertyNamed (O := O) properties (.str name) = some property)
    (hvalue : isTimeoutSeconds python property value =
      isTimeoutSeconds.accepted (O := O) python property rawValue) :
    timeoutResult python path properties (.str name, value) =
      match python.toFloat rawValue with
      | .ok seconds =>
        if isTimeout seconds then .ok (.kept property seconds)
        else .ok (.ignored (text "Ignoring '" ++ path ++ text "." ++ name ++
          text "': it must be a number of seconds greater than zero"))
      | .error e =>
        if e.isInstance [.valueError] then
          .ok (.ignored (text "Ignoring '" ++ path ++ text "." ++ name ++
            text "': it must be a number of seconds greater than zero"))
        else .error e := by
  rw [timeoutResult, hproperty]
  simp only [hvalue, accepted_eq]
  cases hseconds : python.toFloat rawValue with
  | error e => dsimp only; split_ifs <;> rfl
  | ok seconds =>
    dsimp only
    split_ifs with htimeout
    · simp [bind, Except.bind, hseconds, pure, Except.pure]
    · rfl

theorem timeoutResult_returns_iff {path : Text} {properties : List TimeoutProperty}
    {entry : YamlKey O × YamlValue F O} :
    (∃ entryResult, timeoutResult python path properties entry = .ok entryResult) ↔
      TimeoutReads python properties entry := by
  obtain ⟨key, value⟩ := entry
  rw [TimeoutReads]
  cases hproperty : propertyNamed properties key with
  | none =>
    simp only [timeoutResult, hproperty]
    exact bind_returns_iff.trans strKey_returns_iff
  | some property =>
    obtain ⟨name, rfl⟩ := propertyNamed_key hproperty
    cases value with
    | int number =>
      rw [timeoutResult_number (.inl number) hproperty rfl]
      simp only [SettingsPython.toFloat]
      cases hseconds : python.floatOfInt number with
      | ok seconds =>
        refine ⟨fun _ _ _ hvalue he => ?_, fun _ => ?_⟩
        · cases hvalue
          rw [hseconds] at he
          cases he
        · dsimp only
          split_ifs <;> exact ⟨_, rfl⟩
      | error e =>
        constructor
        · rintro ⟨entryResult, hresult⟩ _ _ ⟨⟩ he
          rw [hseconds] at he
          cases he
          by_contra hnot
          simp only [hnot, if_false] at hresult
          cases hresult
        · intro h
          exact ⟨_, if_pos (h number e rfl hseconds)⟩
    | float seconds =>
      rw [timeoutResult_number (.inr seconds) hproperty rfl]
      simp only [SettingsPython.toFloat]
      refine ⟨fun _ => nofun, fun _ => ?_⟩
      split_ifs <;> exact ⟨_, rfl⟩
    | _ =>
      simp only [timeoutResult, hproperty]
      exact ⟨fun _ => nofun, fun _ => ⟨_, rfl⟩⟩

theorem timeoutResult_kept {path : Text} {properties : List TimeoutProperty}
    {entry : YamlKey O × YamlValue F O} {property : TimeoutProperty} {seconds : F}
    (h : timeoutResult python path properties entry = .ok (.kept property seconds)) :
    propertyNamed properties entry.1 = some property ∧ NumberIs python entry.2 seconds ∧
      isTimeout seconds := by
  obtain ⟨key, value⟩ := entry
  cases hproperty : propertyNamed properties key with
  | none =>
    simp only [timeoutResult, hproperty] at h
    cases hshown : python.strKey key with
    | error e =>
      rw [hshown] at h
      cases h
    | ok shown =>
      rw [hshown] at h
      cases h
  | some named =>
    obtain ⟨name, rfl⟩ := propertyNamed_key hproperty
    cases value with
    | int number =>
      rw [timeoutResult_number (.inl number) hproperty rfl] at h
      simp only [SettingsPython.toFloat] at h
      cases hseconds : python.floatOfInt number with
      | ok converted =>
        rw [hseconds] at h
        dsimp only at h
        split_ifs at h with htimeout
        · cases h
          exact ⟨rfl, .inl ⟨number, rfl, hseconds⟩, htimeout⟩
        · cases h
      | error e =>
        rw [hseconds] at h
        dsimp only at h
        split_ifs at h
        cases h
    | float converted =>
      rw [timeoutResult_number (.inr converted) hproperty rfl] at h
      simp only [SettingsPython.toFloat] at h
      split_ifs at h with htimeout
      · cases h
        exact ⟨rfl, .inr rfl, htimeout⟩
      · cases h
    | _ =>
      simp only [timeoutResult, hproperty] at h
      cases h

theorem timeoutResult_ignored {path : Text} {properties : List TimeoutProperty}
    {entry : YamlKey O × YamlValue F O} {entryResult : EntryResult TimeoutProperty F}
    (h : timeoutResult python path properties entry = .ok entryResult)
    (hinvalid : ¬ ValidTimeout python properties entry) :
    ∃ warning, entryResult = .ignored warning := by
  cases entryResult with
  | ignored warning => exact ⟨warning, rfl⟩
  | kept property seconds =>
    obtain ⟨hproperty, hnumber, htimeout⟩ := timeoutResult_kept h
    exact absurd ⟨by rw [hproperty]; rfl, seconds, hnumber, htimeout⟩ hinvalid

end ReadingTimeouts

end Kaskade
