import Kaskade.BoundedSteps
import Kaskade.Dictionaries
import Kaskade.Exceptions

/-!
# Property options

`kaskade.cli.properties`: options that are given several times, as `property=value` or as lists
separated by commas. Brokers and include folders become one list without blanks and repetitions.
-/

namespace Kaskade

open Python

abbrev Properties := List (Text × Text)

/-- `str.capitalize`, as far as ASCII letters go. -/
def capitalize : Text → Text
  | [] => []
  | c :: t =>
    (if 0x61 ≤ c.val ∧ c.val ≤ 0x7a then Fin.ofNat 0x110000 (c.val - 0x20) else c) ::
      t.map fun d => if 0x41 ≤ d.val ∧ d.val ≤ 0x5a then Fin.ofNat 0x110000 (d.val + 0x20) else d

/-- `pair.partition("=")`, without the separator. -/
def partitionPair (pair : Text) : Text × Text :=
  (pair.takeWhile (· ≠ chr '='), (pair.dropWhile (· ≠ chr '=')).tail)

def tuplePropertiesToDict (value : List Text) : Outcome Properties :=
  if value.any (fun pair => !pair.contains (chr '=')) then
    .error ⟨.badParameter, text "Should be property=value."⟩
  else .ok (Dictionary.ofEntries (value.map partitionPair))

section Entries

variable (reprText : Text → Text) (label : Text)

/-- The body of the inner loop of `_join_entries`. -/
def joinItem (raw : Text) (entries : List Text) (item : Text) : Outcome (List Text) :=
  let entry := strip item
  if entry = [] then
    .error ⟨.badParameter, text "Empty " ++ label ++ text " in " ++ reprText raw ++ text "."⟩
  else if entries.contains entry then
    .error ⟨.badParameter,
      capitalize label ++ text " " ++ reprText entry ++ text " was specified more than once."⟩
  else .ok (entries ++ [entry])

def joinEntries (values : List Text) : Outcome Text := do
  let entries ← values.foldlM
    (fun entries raw => (raw.splitOn (chr ',')).foldlM (joinItem reprText label raw) entries) []
  return (text ",").intercalate entries

end Entries

def protobufPropertiesToDict (reprText : Text → Text) (value : List Text) : Outcome Properties := do
  let config ← tuplePropertiesToDict value
  let includes := (value.map partitionPair).filterMap fun (key, item) =>
    if key = text "include" then some item else none
  if includes.isEmpty then return config
  else
    let joined ← joinEntries reprText (text "include folder") includes
    return Dictionary.setItem config (text "include") joined

def joinBootstrapServers (reprText : Text → Text) (value : List Text) : Outcome (Option Text) :=
  if value.isEmpty then .ok none
  else (joinEntries reprText (text "broker") value).map some

/-- The entries of option values: what stands between their commas, without the blanks around. -/
def entriesOf (values : List Text) : List Text :=
  values.flatMap fun raw => (raw.splitOn (chr ',')).map strip

/-- New entries that may follow: none is empty, and none repeats another. -/
def Accepts (entries new : List Text) : Prop := (∀ entry ∈ new, entry ≠ []) ∧ (entries ++ new).Nodup

/-- A call that appends new entries if they may follow, and fails if they may not. -/
def Collects (call : List Text → Outcome (List Text)) (new : List Text) : Prop :=
  ∀ entries, entries.Nodup → ∀ result,
    call entries = .ok result ↔ Accepts entries new ∧ result = entries ++ new

variable {reprText : Text → Text} {label : Text}

theorem collects_nil : Collects .ok [] := by
  intro entries hdistinct result
  rw [Except.ok.injEq, List.append_nil, Accepts, List.append_nil]
  exact ⟨fun h => ⟨⟨nofun, hdistinct⟩, h.symm⟩, fun h => h.2.symm⟩

theorem collects_bind {first second : List Text → Outcome (List Text)} {new later : List Text}
    (hfirst : Collects first new) (hsecond : Collects second later) :
    Collects (fun entries => first entries >>= second) (new ++ later) := by
  intro entries hdistinct result
  rw [bind_eq_ok]
  constructor
  · rintro ⟨mid, hmid, hresult⟩
    obtain ⟨hnew, rfl⟩ := (hfirst entries hdistinct mid).mp hmid
    obtain ⟨hlater, rfl⟩ := (hsecond _ hnew.2 result).mp hresult
    refine ⟨⟨List.forall_mem_append.mpr ⟨hnew.1, hlater.1⟩, ?_⟩, List.append_assoc _ _ _⟩
    rw [← List.append_assoc]
    exact hlater.2
  · rintro ⟨⟨hnonempty, hnodup⟩, rfl⟩
    rw [List.forall_mem_append] at hnonempty
    rw [← List.append_assoc] at hnodup ⊢
    have hnew : Accepts entries new := ⟨hnonempty.1, hnodup.sublist (List.sublist_append_left _ _)⟩
    exact ⟨entries ++ new, (hfirst entries hdistinct _).mpr ⟨hnew, rfl⟩,
      (hsecond _ hnew.2 _).mpr ⟨⟨hnonempty.2, hnodup⟩, rfl⟩⟩

/-- A loop whose turns append new entries appends them all. -/
theorem collects_foldlM {α : Type} {step : List Text → α → Outcome (List Text)}
    {new : α → List Text} (hstep : ∀ a, Collects (step · a) (new a)) (items : List α) :
    Collects (fun entries => items.foldlM step entries) (items.flatMap new) := by
  induction items with
  | nil => exact collects_nil
  | cons item items ih => exact collects_bind (hstep item) ih

theorem collects_joinItem (reprText : Text → Text) (label raw item : Text) :
    Collects (fun entries => joinItem reprText label raw entries item) [strip item] := by
  intro entries hdistinct result
  change joinItem reprText label raw entries item = .ok result ↔ _
  rw [joinItem, Accepts, ← List.concat_eq_append, List.nodup_concat, List.forall_mem_singleton]
  split_ifs with hempty hrepeated
  · simp [hempty]
  · have hmem : strip item ∈ entries := List.contains_iff_mem.mp hrepeated
    simp [hmem]
  · have hmem : strip item ∉ entries := fun hmem => hrepeated (List.contains_iff_mem.mpr hmem)
    rw [Except.ok.injEq, List.concat_eq_append]
    exact ⟨fun h => ⟨⟨hempty, hmem, hdistinct⟩, h.symm⟩, fun h => h.2.symm⟩

theorem joinEntries_eq_ok {values : List Text} {result : Text} :
    joinEntries reprText label values = .ok result ↔
      (∀ entry ∈ entriesOf values, entry ≠ []) ∧ (entriesOf values).Nodup ∧
        result = (text ",").intercalate (entriesOf values) := by
  have hvalues : entriesOf values = values.flatMap fun raw =>
      (raw.splitOn (chr ',')).flatMap fun item => [strip item] := by
    rw [entriesOf]
    exact List.flatMap_congr fun raw _ => List.map_eq_flatMap
  have hcollects := collects_foldlM (fun raw => collects_foldlM
    (fun item => collects_joinItem reprText label raw item) (raw.splitOn (chr ','))) values []
      List.nodup_nil
  rw [← hvalues] at hcollects
  rw [joinEntries, bind_eq_ok]
  constructor
  · rintro ⟨entries, hentries, hresult⟩
    obtain ⟨haccepts, rfl⟩ := (hcollects entries).mp hentries
    exact ⟨haccepts.1, haccepts.2, (Except.ok.inj hresult).symm⟩
  · rintro ⟨hnonempty, hdistinct, rfl⟩
    exact ⟨entriesOf values, (hcollects _).mpr ⟨⟨hnonempty, hdistinct⟩, rfl⟩, rfl⟩

theorem strip_strip (t : Text) : strip (strip t) = strip t := by
  have hprefixed : strip t <+: t.dropWhile isSpace := List.rdropWhile_prefix _ _
  have hhead : (strip t).dropWhile isSpace = strip t := by
    cases hstrip : strip t with
    | nil => rfl
    | cons c rest =>
      rw [hstrip] at hprefixed
      obtain ⟨later, hlater⟩ := hprefixed
      have hc : ¬ isSpace c := by
        have hdrop := List.head?_dropWhile_not isSpace t
        rw [← hlater] at hdrop
        simpa using hdrop
      exact List.dropWhile_cons_of_neg hc
  rw [strip, hhead, strip, List.rdropWhile_idempotent]

theorem notMem_of_mem_splitOn {c : CodePoint} {t item : Text} (h : item ∈ t.splitOn c) :
    c ∉ item := by
  induction t generalizing item with
  | nil =>
    rw [List.splitOn_nil, List.mem_singleton] at h
    rw [h]
    exact List.not_mem_nil
  | cons d t ih =>
    rw [List.splitOn_cons_eq_if_modifyHead] at h
    obtain ⟨first, later, hsplit⟩ := List.exists_cons_of_ne_nil (List.splitOn_ne_nil c t)
    rw [hsplit] at h ih
    split_ifs at h with heq
    · rcases List.mem_cons.mp h with rfl | h
      · exact List.not_mem_nil
      · exact ih h
    · rw [List.modifyHead_cons] at h
      rcases List.mem_cons.mp h with rfl | h
      · rw [List.mem_cons, not_or]
        exact ⟨fun hc => heq (beq_iff_eq.mpr hc.symm), ih List.mem_cons_self⟩
      · exact ih (List.mem_cons_of_mem _ h)

theorem mem_entriesOf {values : List Text} {entry : Text} (h : entry ∈ entriesOf values) :
    strip entry = entry ∧ chr ',' ∉ entry := by
  obtain ⟨raw, -, hraw⟩ := List.mem_flatMap.mp h
  obtain ⟨item, hitem, rfl⟩ := List.mem_map.mp hraw
  refine ⟨strip_strip item, fun hmem => notMem_of_mem_splitOn hitem ?_⟩
  exact ((List.rdropWhile_prefix _ _).sublist.trans (List.dropWhile_sublist _)).subset hmem

theorem entriesOf_ne_nil {values : List Text} (h : values ≠ []) : entriesOf values ≠ [] := by
  obtain ⟨raw, later, rfl⟩ := List.exists_cons_of_ne_nil h
  rw [entriesOf, List.flatMap_cons, ne_eq, List.append_eq_nil_iff, List.map_eq_nil_iff]
  exact fun hnil => List.splitOn_ne_nil _ _ hnil.1

theorem entriesOf_joined {values : List Text} (h : values ≠ []) :
    entriesOf [(text ",").intercalate (entriesOf values)] = entriesOf values := by
  have hsplit : ((text ",").intercalate (entriesOf values)).splitOn (chr ',') = entriesOf values :=
    List.splitOn_intercalate (chr ',') (fun entry hentry => (mem_entriesOf hentry).2)
      (entriesOf_ne_nil h)
  rw [entriesOf, List.flatMap_singleton, hsplit]
  exact (List.map_congr_left fun entry hentry => (mem_entriesOf hentry).1).trans (List.map_id _)

theorem joinEntries_joined {values : List Text} {result : Text} (hne : values ≠ [])
    (h : joinEntries reprText label values = .ok result) :
    joinEntries reprText label [result] = .ok result := by
  obtain ⟨hnonempty, hdistinct, rfl⟩ := joinEntries_eq_ok.mp h
  rw [joinEntries_eq_ok, entriesOf_joined hne]
  exact ⟨hnonempty, hdistinct, rfl⟩

/-- The outcome depends on the entries only: other option values with the same entries give the same
result or fail as well; the entries are joined exactly when none is empty and none is repeated; they
keep their order; and the result, given back as the only value, stays as it is. -/
theorem joinEntries_flattens (reprText : Text → Text) (label : Text) (values : List Text) :
    (∀ values', entriesOf values' = entriesOf values → ∀ result,
        joinEntries reprText label values' = .ok result ↔
          joinEntries reprText label values = .ok result) ∧
      ((∃ result, joinEntries reprText label values = .ok result) ↔
        (∀ entry ∈ entriesOf values, entry ≠ []) ∧ (entriesOf values).Nodup) ∧
      (∀ result, joinEntries reprText label values = .ok result →
        result = (text ",").intercalate (entriesOf values)) ∧
      (∀ result, values ≠ [] → joinEntries reprText label values = .ok result →
        joinEntries reprText label [result] = .ok result) := by
  refine ⟨fun values' hsame result => ?_, ?_, fun result h => (joinEntries_eq_ok.mp h).2.2,
    fun result hne h => joinEntries_joined hne h⟩
  · rw [joinEntries_eq_ok, joinEntries_eq_ok, hsame]
  · simp only [joinEntries_eq_ok, exists_and_left, exists_eq, and_true]

/-- Without option values the result is the empty text, which is refused when it is given back. -/
theorem joinEntries_none :
    joinEntries (fun t => text "'" ++ t ++ text "'") (text "broker") [] = .ok [] ∧
      joinEntries (fun t => text "'" ++ t ++ text "'") (text "broker") [[]] =
        .error ⟨.badParameter, text "Empty broker in ''."⟩ :=
  ⟨rfl, rfl⟩

/-- The brokers that an option gives stay as they are when they are given back. -/
theorem joinBootstrapServers_joined {value : List Text} {servers : Text}
    (h : joinBootstrapServers reprText value = .ok (some servers)) :
    joinBootstrapServers reprText [servers] = .ok (some servers) := by
  by_cases hne : value = []
  · rw [joinBootstrapServers, if_pos (List.isEmpty_iff.mpr hne)] at h
    cases h
  · rw [joinBootstrapServers, if_neg (mt List.isEmpty_iff.mp hne)] at h
    cases hjoin : joinEntries reprText (text "broker") value with
    | error e =>
      rw [hjoin] at h
      cases h
    | ok result =>
      rw [hjoin] at h
      cases h
      rw [joinBootstrapServers, if_neg (by simp), joinEntries_joined hne hjoin]
      rfl

def propertyPair (property : Text × Text) : Text := property.1 ++ text "=" ++ property.2

theorem partitionPair_propertyPair {property : Text × Text} (h : chr '=' ∉ property.1) :
    partitionPair (propertyPair property) = property := by
  obtain ⟨key, item⟩ := property
  have hkey : ∀ c ∈ key, decide (c ≠ chr '=') = true := fun c hc => decide_eq_true fun heq => h (heq ▸ hc)
  have htext : propertyPair (key, item) = key ++ chr '=' :: item := List.append_assoc _ _ _
  rw [partitionPair, htext, List.takeWhile_append_of_pos hkey, List.dropWhile_append_of_pos hkey]
  simp

theorem tuplePropertiesToDict_eq_ok {value : List Text} {config : Properties}
    (h : tuplePropertiesToDict value = .ok config) :
    config = Dictionary.ofEntries (value.map partitionPair) := by
  rw [tuplePropertiesToDict] at h
  split_ifs at h
  exact (Except.ok.inj h).symm

/-- A dictionary of properties whose keys can be given is read back from its entries. -/
theorem tuplePropertiesToDict_given_back {config : Properties} (hnodup : (config.map Prod.fst).Nodup)
    (hkeys : ∀ property ∈ config, chr '=' ∉ property.1) :
    (config.map propertyPair).map partitionPair = config ∧
      tuplePropertiesToDict (config.map propertyPair) = .ok config := by
  have hpairs : (config.map propertyPair).map partitionPair = config := by
    rw [List.map_map]
    refine (List.map_congr_left fun property hproperty => ?_).trans (List.map_id config)
    exact partitionPair_propertyPair (hkeys property hproperty)
  refine ⟨hpairs, ?_⟩
  rw [tuplePropertiesToDict, if_neg, hpairs, Dictionary.ofEntries_eq hnodup]
  simp [propertyPair, text]

def includeFolders (properties : Properties) : List Text :=
  properties.filterMap fun property => if property.1 = text "include" then some property.2 else none

theorem protobufPropertiesToDict_eq {value : List Text} {config : Properties}
    (h : tuplePropertiesToDict value = .ok config) :
    protobufPropertiesToDict reprText value =
      if (includeFolders (value.map partitionPair)).isEmpty then .ok config
      else do
        let joined ← joinEntries reprText (text "include folder") (includeFolders (value.map partitionPair))
        return Dictionary.setItem config (text "include") joined := by
  rw [protobufPropertiesToDict, h]
  rfl

theorem includeFolders_eq_nil {properties : Properties} :
    includeFolders properties = [] ↔ text "include" ∉ properties.map Prod.fst := by
  rw [includeFolders, List.filterMap_eq_nil_iff]
  constructor
  · intro h hmem
    obtain ⟨property, hproperty, hkey⟩ := List.mem_map.mp hmem
    simpa [hkey] using h property hproperty
  · exact fun h property hproperty => if_neg fun hkey => h (List.mem_map.mpr ⟨property, hproperty, hkey⟩)

/-- The properties that options give stay as they are when they are given back, with the include
folders as one list. -/
theorem protobufPropertiesToDict_given_back {value : List Text} {config : Properties}
    (h : protobufPropertiesToDict reprText value = .ok config) :
    protobufPropertiesToDict reprText (config.map propertyPair) = .ok config := by
  obtain ⟨dict, htuple, -⟩ := bind_eq_ok.mp h
  have hdict := tuplePropertiesToDict_eq_ok htuple
  have hnodup : (dict.map Prod.fst).Nodup := hdict ▸ Dictionary.nodup_ofEntries _
  have hkeys : ∀ property ∈ dict, chr '=' ∉ property.1 := by
    intro property hproperty
    obtain ⟨pair, -, rfl⟩ := List.mem_map.mp (Dictionary.mem_ofEntries (hdict ▸ hproperty))
    intro hmem
    simpa using List.mem_takeWhile_imp hmem
  rw [protobufPropertiesToDict_eq htuple] at h
  split_ifs at h with hempty
  · obtain rfl := Except.ok.inj h
    obtain ⟨hpairs, hback⟩ := tuplePropertiesToDict_given_back hnodup hkeys
    have hnone : includeFolders dict = [] := by
      rw [List.isEmpty_iff, includeFolders_eq_nil] at hempty
      rw [includeFolders_eq_nil]
      intro hmem
      obtain ⟨property, hproperty, hkey⟩ := List.mem_map.mp hmem
      exact hempty (List.mem_map.mpr ⟨property, Dictionary.mem_ofEntries (hdict ▸ hproperty), hkey⟩)
    rw [protobufPropertiesToDict_eq hback, hpairs, hnone]
    rfl
  · obtain ⟨joined, hjoined, hconfig⟩ := bind_eq_ok.mp h
    obtain rfl := Except.ok.inj hconfig
    have hnodup' := Dictionary.nodup_setItem hnodup (text "include") joined
    have hkeys' : ∀ property ∈ Dictionary.setItem dict (text "include") joined,
        chr '=' ∉ property.1 := by
      intro property hproperty
      rcases Dictionary.mem_setItem hproperty with hproperty | rfl
      · exact hkeys property hproperty
      · exact (by decide : chr '=' ∉ text "include")
    obtain ⟨hpairs, hback⟩ := tuplePropertiesToDict_given_back hnodup' hkeys'
    have hlookup : (Dictionary.setItem dict (text "include") joined).lookup (text "include") =
        some joined := by
      rw [Dictionary.lookup_setItem, if_pos rfl]
    have hfolders : includeFolders (Dictionary.setItem dict (text "include") joined) = [joined] := by
      rw [includeFolders, Dictionary.filterMap_key hnodup', hlookup]
      rfl
    have hne : includeFolders (value.map partitionPair) ≠ [] := mt List.isEmpty_iff.mpr hempty
    rw [protobufPropertiesToDict_eq hback, hpairs, hfolders, if_neg (by simp),
      joinEntries_joined hne hjoined]
    exact congrArg Except.ok (Dictionary.setItem_self hnodup' hlookup)

end Kaskade
