import Kaskade.PythonText
import Mathlib.Data.List.Forall2
import Mathlib.Data.List.TakeWhile

/-!
# Partition selections

The values of `--partition`: a partition number, and perhaps an absolute offset or `earliest`
behind a colon. Each partition can be selected once, however its number is written.
-/

namespace Kaskade

open Python

/-- `int | PartitionOffset`. -/
inductive SelectionOffset where
  | absolute (offset : ℤ)
  | earliest
  deriving DecidableEq

structure PartitionSelection where
  partition : ℤ
  offset : Option SelectionOffset := none
  deriving DecidableEq

structure BadParameter where
  message : Text
  deriving DecidableEq

namespace PartitionSelection

def earliestText : Text := text "earliest"

/-- `[0-9]+` -/
def isNumber (t : Text) : Bool := t ≠ [] && t.all isDigit

/-- The groups of `PARTITION_SELECTION_PATTERN.fullmatch`, a partition and perhaps an offset. -/
def fullmatch (raw : Text) : Option (Text × Option Text) :=
  match raw.span isDigit with
  | ([], _) => none
  | (partition, []) => some (partition, none)
  | (partition, c :: offset) =>
    if c = chr ':' ∧ (isNumber offset ∨ offset = earliestText) then some (partition, some offset)
    else none

def ofGroups (partition : Text) (offset : Option Text) : PartitionSelection where
  partition := digitsValue partition
  offset := offset.map fun offset =>
    if offset = earliestText then .earliest else .absolute (digitsValue offset)

/-- The message for a text without a match; `repr` shows a text as Python does. -/
def malformedMessage (repr : Text → Text) (raw : Text) : Text :=
  text "Should be <partition>[:<absolute-offset|earliest>] with non-negative numbers; got "
    ++ repr raw ++ text "."

def duplicateMessage (partition : ℤ) : Text :=
  text "Partition " ++ intText partition ++ text " was specified more than once."

/-- The loop of `parse_partition_selections`, after it has seen some partitions. -/
def parseFrom (repr : Text → Text) (seen : List ℤ) :
    List Text → Except BadParameter (List PartitionSelection)
  | [] => .ok []
  | raw :: rest =>
    match fullmatch raw with
    | none => .error ⟨malformedMessage repr raw⟩
    | some (partition, offset) =>
      let selection := ofGroups partition offset
      if selection.partition ∈ seen then .error ⟨duplicateMessage selection.partition⟩
      else (parseFrom repr (selection.partition :: seen) rest).map (selection :: ·)

/-- `parse_partition_selections`. -/
def parse (repr : Text → Text) (values : List Text) :
    Except BadParameter (List PartitionSelection) :=
  parseFrom repr [] values

inductive Form : Text → PartitionSelection → Prop where
  | partition (digits : Text) : isNumber digits → Form digits ⟨digitsValue digits, none⟩
  | absolute (digits offset : Text) : isNumber digits → isNumber offset →
      Form (digits ++ text ":" ++ offset)
        ⟨digitsValue digits, some (.absolute (digitsValue offset))⟩
  | earliest (digits : Text) : isNumber digits →
      Form (digits ++ text ":" ++ text "earliest") ⟨digitsValue digits, some .earliest⟩

theorem isNumber_iff {t : Text} : isNumber t ↔ t ≠ [] ∧ ∀ c ∈ t, isDigit c := by
  simp [isNumber]

theorem not_isNumber_earliest : ¬ isNumber earliestText := by decide

/-- A number ends at the first code point that is no digit. -/
theorem span_number {digits rest : Text} (hdigits : isNumber digits)
    (hrest : ∀ c, rest.head? = some c → isDigit c = false) :
    (digits ++ rest).span isDigit = (digits, rest) := by
  have hall := (isNumber_iff.mp hdigits).2
  rw [List.span_eq_takeWhile_dropWhile, List.takeWhile_append_of_pos hall,
    List.dropWhile_append_of_pos hall]
  cases rest with
  | nil => simp
  | cons c rest => simp [hrest c rfl]

theorem of_span {raw digits rest : Text} (h : raw.span isDigit = (digits, rest))
    (hdigits : digits ≠ []) : raw = digits ++ rest ∧ isNumber digits := by
  rw [List.span_eq_takeWhile_dropWhile] at h
  obtain ⟨rfl, rfl⟩ := Prod.mk.inj h
  exact ⟨List.takeWhile_append_dropWhile.symm,
    isNumber_iff.mpr ⟨hdigits, fun c hc => List.mem_takeWhile_imp hc⟩⟩

theorem fullmatch_number {digits : Text} (hdigits : isNumber digits) :
    fullmatch digits = some (digits, none) := by
  have hspan : (digits ++ []).span isDigit = (digits, []) := span_number hdigits nofun
  rw [List.append_nil] at hspan
  rw [fullmatch, hspan]
  cases digits with
  | nil => exact absurd rfl (isNumber_iff.mp hdigits).1
  | cons d digits => rfl

theorem fullmatch_offset {digits offset : Text} (hdigits : isNumber digits)
    (hoffset : isNumber offset ∨ offset = earliestText) :
    fullmatch (digits ++ text ":" ++ offset) = some (digits, some offset) := by
  have hcolon : ∀ c, (chr ':' :: offset).head? = some c → isDigit c = false := by
    rintro _ ⟨⟩
    rfl
  have hspan : (digits ++ (text ":" ++ offset)).span isDigit = (digits, chr ':' :: offset) :=
    span_number hdigits hcolon
  rw [List.append_assoc, fullmatch, hspan]
  cases digits with
  | nil => exact absurd rfl (isNumber_iff.mp hdigits).1
  | cons d digits => exact if_pos ⟨rfl, hoffset⟩

theorem of_fullmatch {raw partition : Text} {offset : Option Text}
    (h : fullmatch raw = some (partition, offset)) :
    isNumber partition ∧ (offset = none ∧ raw = partition ∨
      ∃ t, offset = some t ∧ raw = partition ++ text ":" ++ t ∧
        (isNumber t ∨ t = earliestText)) := by
  rw [fullmatch] at h
  split at h
  · cases h
  · rename_i digits hne hspan
    obtain ⟨hraw, hdigits⟩ := of_span hspan hne
    cases h
    exact ⟨hdigits, .inl ⟨rfl, by simpa using hraw⟩⟩
  · rename_i digits c t hne hspan
    obtain ⟨hraw, hdigits⟩ := of_span hspan hne
    split_ifs at h with hc
    obtain ⟨rfl, hoffset⟩ := hc
    cases h
    exact ⟨hdigits, .inr ⟨t, rfl, by rw [hraw, List.append_assoc]; rfl, hoffset⟩⟩

theorem form_iff {raw : Text} {s : PartitionSelection} :
    Form raw s ↔
      ∃ partition offset, fullmatch raw = some (partition, offset) ∧ ofGroups partition offset = s := by
  constructor
  · intro h
    cases h with
    | partition _ hdigits => exact ⟨raw, none, fullmatch_number hdigits, rfl⟩
    | absolute digits offset hdigits hoffset =>
      refine ⟨digits, some offset, fullmatch_offset hdigits (.inl hoffset), ?_⟩
      have hne : offset ≠ earliestText := by
        rintro rfl
        exact not_isNumber_earliest hoffset
      simp [ofGroups, hne]
    | earliest digits hdigits =>
      exact ⟨digits, some earliestText, fullmatch_offset hdigits (.inr rfl), rfl⟩
  · rintro ⟨partition, offset, h, rfl⟩
    obtain ⟨hpartition, ⟨rfl, rfl⟩ | ⟨t, rfl, rfl, hnumber | rfl⟩⟩ := of_fullmatch h
    · exact .partition _ hpartition
    · have hne : t ≠ earliestText := by
        rintro rfl
        exact not_isNumber_earliest hnumber
      simpa [ofGroups, hne] using Form.absolute _ _ hpartition hnumber
    · exact .earliest _ hpartition

/-- Exactly the texts of these forms that name partitions not seen before, each once. -/
theorem parseFrom_eq_ok {repr : Text → Text} {seen : List ℤ} {values : List Text}
    {selections : List PartitionSelection} :
    parseFrom repr seen values = .ok selections ↔
      List.Forall₂ Form values selections ∧ (selections.map (·.partition)).Nodup ∧
        ∀ s ∈ selections, s.partition ∉ seen := by
  induction values generalizing seen selections with
  | nil =>
    rw [parseFrom, List.forall₂_nil_left_iff]
    constructor
    · rintro ⟨⟩
      simp
    · rintro ⟨rfl, -, -⟩
      rfl
  | cons raw rest ih =>
    rw [parseFrom, List.forall₂_cons_left_iff]
    cases hmatch : fullmatch raw with
    | none =>
      refine iff_of_false nofun ?_
      rintro ⟨⟨s, _, hform, -⟩, -⟩
      obtain ⟨_, _, h, -⟩ := form_iff.mp hform
      cases hmatch.symm.trans h
    | some groups =>
      obtain ⟨partition, offset⟩ := groups
      have hform : ∀ s, Form raw s ↔ ofGroups partition offset = s := by
        intro s
        rw [form_iff, hmatch]
        simp
      simp only [hform]
      generalize ofGroups partition offset = first
      by_cases hseen : first.partition ∈ seen
      · rw [if_pos hseen]
        refine iff_of_false nofun ?_
        rintro ⟨⟨_, _, rfl, -, rfl⟩, -, hnew⟩
        exact hnew _ List.mem_cons_self hseen
      · rw [if_neg hseen]
        constructor
        · intro h
          cases hrest : parseFrom repr (first.partition :: seen) rest with
          | error e => simp [hrest, Except.map] at h
          | ok later =>
            rw [hrest] at h
            cases h
            obtain ⟨hforms, hnodup, hnew⟩ := ih.mp hrest
            refine ⟨⟨first, later, rfl, hforms, rfl⟩, ?_, ?_⟩
            · rw [List.map_cons, List.nodup_cons]
              refine ⟨fun hmem => ?_, hnodup⟩
              obtain ⟨s, hs, hsame⟩ := List.mem_map.mp hmem
              exact hnew s hs (hsame ▸ List.mem_cons_self)
            · simp only [List.forall_mem_cons]
              exact ⟨hseen, fun s hs hmem => hnew s hs (List.mem_cons_of_mem _ hmem)⟩
        · rintro ⟨⟨_, later, rfl, hforms, rfl⟩, hnodup, hnew⟩
          rw [List.map_cons, List.nodup_cons] at hnodup
          have hlater : parseFrom repr (first.partition :: seen) rest = .ok later := by
            refine ih.mpr ⟨hforms, hnodup.2, fun s hs hmem => ?_⟩
            rcases List.mem_cons.mp hmem with hsame | hmem
            · exact hnodup.1 (hsame ▸ List.mem_map_of_mem hs)
            · exact hnew s (List.mem_cons_of_mem _ hs) hmem
          rw [hlater]
          rfl

/-- `parse_partition_selections` accepts texts of these forms that name pairwise distinct
partitions, and no others. -/
theorem parse_eq_ok {repr : Text → Text} {values : List Text}
    {selections : List PartitionSelection} :
    parse repr values = .ok selections ↔
      List.Forall₂ Form values selections ∧ (selections.map (·.partition)).Nodup := by
  rw [parse, parseFrom_eq_ok]
  simp

end PartitionSelection

end Kaskade
