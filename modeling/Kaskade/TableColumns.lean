import Mathlib.Algebra.BigOperators.Group.List.Basic
import Mathlib.Algebra.Order.Field.Basic
import Mathlib.Algebra.Order.Field.Rat
import Mathlib.Tactic.Linarith
import Mathlib.Tactic.Ring

/-!
# Columns that fill a table

`StretchyDataTable.restretch` divides the width that a table has left between its columns, by their
stretch factors. A column gets the difference of two cumulative shares, each rounded down.
-/

namespace Kaskade

section FloorShares

variable {before share total : ℤ}

/-- The differences of cumulative floor divisions are less than one off the exact shares. -/
theorem abs_floorShare_lt (before share : ℤ) (h : 0 < total) :
    |((before + share) / total - before / total) * total - share| < total := by
  have hboth := Int.mul_ediv_add_emod (before + share) total
  have hbefore := Int.mul_ediv_add_emod before total
  have hboth₀ := Int.emod_nonneg (before + share) h.ne'
  have hbefore₀ := Int.emod_nonneg before h.ne'
  have hboth₁ := Int.emod_lt_of_pos (before + share) h
  have hbefore₁ := Int.emod_lt_of_pos before h
  rw [abs_lt, sub_mul, mul_comm _ total, mul_comm _ total]
  constructor <;> linarith

theorem floorShare_nonneg (before : ℤ) (h : 0 < total) (hshare : 0 ≤ share) :
    before / total ≤ (before + share) / total :=
  Int.ediv_le_ediv h (by linarith)

theorem abs_sub_div_lt_one {width : ℤ} (h : 0 < total) (hwidth : |width * total - share| < total) :
    |(width : ℚ) - share / total| < 1 := by
  have htotal : (0 : ℚ) < total := by exact_mod_cast h
  have hquotient : (width : ℚ) - share / total = ((width * total - share : ℤ) : ℚ) / total := by
    push_cast
    rw [sub_div, mul_div_cancel_right₀ _ htotal.ne']
  rw [hquotient, abs_div, abs_of_pos htotal, div_lt_one htotal]
  exact_mod_cast hwidth

end FloorShares

structure StretchColumn where
  /-- The entry of `_column_minimums`. -/
  minimum : ℕ
  /-- The entry of `_column_stretches`. -/
  stretch : ℕ
  width : ℤ

structure StretchyDataTable where
  /-- `ordered_columns`. -/
  columns : List StretchColumn
  /-- `scrollable_content_region.width`. -/
  regionWidth : ℤ
  cellPadding : ℕ
  showRowLabels : Bool
  /-- The lengths in cells of the labels of the rows, where they have one. -/
  labels : List (Option ℕ)
  stretchedWidth : Option ℤ
  virtualWidth : ℤ
  /-- `column.get_render_width(self)`. -/
  renderWidth : StretchColumn → ℤ

namespace StretchyDataTable

variable (table : StretchyDataTable)

def rowLabelWidth : ℕ :=
  let labels := table.labels.filterMap id
  if table.showRowLabels = false ∨ labels.isEmpty then 0
  else labels.foldl max 0 + 2 * table.cellPadding

def availableContentWidth : ℤ :=
  let availableWidth := max 0 (table.regionWidth - table.rowLabelWidth)
  let paddingWidth : ℕ := 2 * table.cellPadding * table.columns.length
  max 0 (availableWidth - paddingWidth)

def minimums : ℕ := (table.columns.map StretchColumn.minimum).sum

def totalStretch : ℕ := (table.columns.map StretchColumn.stretch).sum

def extraWidth : ℤ := max 0 (table.availableContentWidth - table.minimums)

/-- The loop over the columns, with the width allocated so far and the stretch factors before. -/
def stretchFrom (extraWidth : ℤ) (totalStretch : ℕ) (allocatedWidth : ℤ) (cumulativeStretch : ℕ) :
    List StretchColumn → List StretchColumn
  | [] => []
  | column :: columns =>
    let cumulativeStretch := cumulativeStretch + column.stretch
    let stretchedWidth :=
      if totalStretch ≠ 0 then extraWidth * cumulativeStretch / totalStretch else 0
    { column with width := column.minimum + stretchedWidth - allocatedWidth } ::
      stretchFrom extraWidth totalStretch stretchedWidth cumulativeStretch columns

def restretch : StretchyDataTable :=
  if table.columns.isEmpty then table
  else
    let columns := stretchFrom table.extraWidth table.totalStretch 0 0 table.columns
    { table with
      columns
      stretchedWidth := some table.regionWidth
      virtualWidth := (columns.map table.renderWidth).sum + table.rowLabelWidth }

/-- A column has at least its minimum, exactly that if nothing stretches it, and less than one cell
more or less than its exact share of the extra width in addition. -/
structure GetsShare (extraWidth : ℤ) (totalStretch : ℕ) (column : StretchColumn) : Prop where
  minimum_le : column.minimum ≤ column.width
  unstretched : column.stretch = 0 ∨ totalStretch = 0 → column.width = column.minimum
  share : |(column.width : ℚ) -
    (column.minimum + extraWidth * column.stretch / totalStretch)| < 1

def allocated (extraWidth : ℤ) (totalStretch cumulativeStretch : ℕ) : ℤ :=
  if totalStretch ≠ 0 then extraWidth * cumulativeStretch / totalStretch else 0

variable {extraWidth : ℤ} {totalStretch : ℕ}

theorem stretchFrom_cons (allocatedWidth : ℤ) (cumulativeStretch : ℕ) (column : StretchColumn)
    (columns : List StretchColumn) :
    stretchFrom extraWidth totalStretch allocatedWidth cumulativeStretch (column :: columns) =
      { column with
        width := column.minimum + allocated extraWidth totalStretch (cumulativeStretch + column.stretch)
          - allocatedWidth } ::
        stretchFrom extraWidth totalStretch
          (allocated extraWidth totalStretch (cumulativeStretch + column.stretch))
          (cumulativeStretch + column.stretch) columns := rfl

theorem allocated_zero (cumulativeStretch : ℕ) : allocated extraWidth 0 cumulativeStretch = 0 :=
  if_neg fun h => h rfl

theorem allocated_add (h : totalStretch ≠ 0) (cumulativeStretch stretch : ℕ) :
    allocated extraWidth totalStretch (cumulativeStretch + stretch) =
      (extraWidth * cumulativeStretch + extraWidth * stretch) / totalStretch := by
  rw [allocated, if_pos h, Nat.cast_add, mul_add]

/-- One turn of the loop gives a column its share. -/
theorem getsShare_step (h : 0 ≤ extraWidth) (cumulativeStretch : ℕ) (column : StretchColumn) :
    GetsShare extraWidth totalStretch
      { column with
        width := column.minimum + allocated extraWidth totalStretch (cumulativeStretch + column.stretch)
          - allocated extraWidth totalStretch cumulativeStretch } := by
  rcases Nat.eq_zero_or_pos totalStretch with rfl | hpos
  · simp only [allocated_zero]
    exact ⟨by simp, fun _ => by simp, by simp⟩
  · have htotal : (0 : ℤ) < totalStretch := by exact_mod_cast hpos
    have hbefore : allocated extraWidth totalStretch cumulativeStretch =
        extraWidth * cumulativeStretch / totalStretch := if_pos hpos.ne'
    have hshare : 0 ≤ extraWidth * column.stretch := mul_nonneg h (Int.natCast_nonneg _)
    have hnonneg := floorShare_nonneg (extraWidth * cumulativeStretch) htotal hshare
    have habs := abs_sub_div_lt_one htotal
      (abs_floorShare_lt (extraWidth * cumulativeStretch) (extraWidth * column.stretch) htotal)
    rw [allocated_add hpos.ne', hbefore]
    refine ⟨by simp only; linarith, fun hzero => ?_, ?_⟩
    · rcases hzero with hzero | hzero
      · simp only at hzero
        simp [hzero]
      · exact absurd hzero hpos.ne'
    · push_cast at habs ⊢
      refine lt_of_eq_of_lt (congrArg _ ?_) habs
      ring

/-- Every column gets its share, whatever was allocated before. -/
theorem getsShare_stretchFrom (h : 0 ≤ extraWidth) (columns : List StretchColumn)
    (cumulativeStretch : ℕ) :
    ∀ column ∈ stretchFrom extraWidth totalStretch
      (allocated extraWidth totalStretch cumulativeStretch) cumulativeStretch columns,
        GetsShare extraWidth totalStretch column := by
  induction columns generalizing cumulativeStretch with
  | nil => nofun
  | cons column columns ih =>
    rw [stretchFrom_cons]
    intro stretched hmem
    rcases List.mem_cons.mp hmem with rfl | hmem
    · exact getsShare_step h cumulativeStretch column
    · exact ih _ stretched hmem

/-- The widths add up to the minimums and what is allocated to the columns. -/
theorem sum_stretchFrom (columns : List StretchColumn) (cumulativeStretch : ℕ) :
    ((stretchFrom extraWidth totalStretch (allocated extraWidth totalStretch cumulativeStretch)
        cumulativeStretch columns).map StretchColumn.width).sum =
      (columns.map StretchColumn.minimum).sum +
        (allocated extraWidth totalStretch
          (cumulativeStretch + (columns.map StretchColumn.stretch).sum)
            - allocated extraWidth totalStretch cumulativeStretch) := by
  induction columns generalizing cumulativeStretch with
  | nil => simp [stretchFrom]
  | cons column columns ih =>
    have hlater := ih (cumulativeStretch + column.stretch)
    rw [Nat.add_assoc] at hlater
    rw [stretchFrom_cons]
    simp only [List.map_cons, List.sum_cons, Nat.cast_add]
    rw [hlater]
    ring

theorem stretchFrom_keeps (allocatedWidth : ℤ) (cumulativeStretch : ℕ)
    (columns : List StretchColumn) :
    (stretchFrom extraWidth totalStretch allocatedWidth cumulativeStretch columns).map
        (fun column => (column.minimum, column.stretch)) =
      columns.map fun column => (column.minimum, column.stretch) := by
  induction columns generalizing allocatedWidth cumulativeStretch with
  | nil => rfl
  | cons column columns ih => rw [stretchFrom, List.map_cons, List.map_cons, ih]

/-- The columns keep their minimums and stretch factors, each gets its share of the extra width, and
if anything stretches they fill the larger of their minimums and the available width. -/
theorem restretch_shares (table : StretchyDataTable) :
    table.restretch.columns.map (fun column => (column.minimum, column.stretch)) =
        table.columns.map (fun column => (column.minimum, column.stretch)) ∧
      (∀ column ∈ table.restretch.columns,
        GetsShare table.extraWidth table.totalStretch column) ∧
      (0 < table.totalStretch → (table.restretch.columns.map StretchColumn.width).sum =
        max (table.minimums : ℤ) table.availableContentWidth) := by
  have hextra : 0 ≤ table.extraWidth := le_max_left 0 _
  by_cases hempty : table.columns = []
  · have hsame : table.restretch = table := if_pos (List.isEmpty_iff.mpr hempty)
    have hstretch : table.totalStretch = 0 := by
      rw [totalStretch, hempty]
      rfl
    rw [hsame, hempty, hstretch]
    exact ⟨rfl, nofun, nofun⟩
  · have hcolumns : table.restretch.columns =
        stretchFrom table.extraWidth table.totalStretch
          (allocated table.extraWidth table.totalStretch 0) 0 table.columns := by
      have hstart : allocated table.extraWidth table.totalStretch 0 = 0 := by
        rw [allocated]
        split_ifs <;> simp
      rw [restretch, if_neg (mt List.isEmpty_iff.mp hempty), hstart]
    rw [hcolumns]
    refine ⟨stretchFrom_keeps _ _ _, getsShare_stretchFrom hextra _ _, fun hpos => ?_⟩
    have htotal : (table.totalStretch : ℤ) ≠ 0 := by exact_mod_cast hpos.ne'
    have hall : allocated table.extraWidth table.totalStretch table.totalStretch =
        table.extraWidth := by
      rw [allocated, if_pos hpos.ne', Int.mul_ediv_cancel _ htotal]
    have hnone : allocated table.extraWidth table.totalStretch 0 = 0 := by
      simp [allocated]
    rw [sum_stretchFrom, Nat.zero_add, ← totalStretch, hall, hnone, ← minimums, sub_zero,
      StretchyDataTable.extraWidth]
    rcases le_total table.availableContentWidth table.minimums with hle | hle
    · rw [max_eq_left (by linarith), max_eq_left hle, add_zero]
    · rw [max_eq_right (by linarith), max_eq_right hle, add_sub_cancel]

end StretchyDataTable

end Kaskade
