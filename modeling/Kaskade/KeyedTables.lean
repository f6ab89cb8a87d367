import Mathlib.Data.List.Basic
import Mathlib.Data.List.Nodup
import Mathlib.Data.List.Zip

/-!
# Tables with keyed rows

A table of rows with a key and a value for each column. Rows are added under fresh keys and
cells are updated in place; a table that already has the rows of a list of items is brought up
to date cell by cell, and another one is rebuilt. Both lead to the same table.
-/

namespace Kaskade

structure KeyedRow (K C V : Type) where
  key : K
  cells : List (C × V)
  deriving DecidableEq

def KeyedRow.cell {K C V : Type} [DecidableEq C] (row : KeyedRow K C V) (column : C) : Option V :=
  (row.cells.find? (·.1 = column)).map (·.2)

namespace KeyedTable

variable {K C V ι : Type} [DecidableEq K] [DecidableEq C]

/-- A row is added under its key, which no row of the table may have. -/
def addRow (columns : List C) (rows : List (KeyedRow K C V)) (key : K) (values : List V) :
    Option (List (KeyedRow K C V)) :=
  if rows.any (·.key = key) then none else some (rows ++ [⟨key, columns.zip values⟩])

def updateCells (cells : List (C × V)) (column : C) (value : V) : List (C × V) :=
  cells.map fun cell => if cell.1 = column then (column, value) else cell

def updateCell (rows : List (KeyedRow K C V)) (key : K) (column : C) (value : V) :
    Option (List (KeyedRow K C V)) :=
  if rows.any fun row => row.key = key && row.cells.any (·.1 = column) then
    some (rows.map fun row =>
      if row.key = key then { row with cells := updateCells row.cells column value } else row)
  else none

def updateRow (columns : List C) (rows : List (KeyedRow K C V)) (key : K) (values : List V) :
    Option (List (KeyedRow K C V)) :=
  (columns.zip values).foldlM (fun rows cell => updateCell rows key cell.1 cell.2) rows

/-- A table with the keys of the items in their order is updated, and another one is cleared and
filled again. -/
def render (columns : List C) (key : ι → K) (values : ι → List V) (rows : List (KeyedRow K C V))
    (items : List ι) : Option (List (KeyedRow K C V)) :=
  if rows.map (·.key) = items.map key then
    items.foldlM (fun rows item => updateRow columns rows (key item) (values item)) rows
  else items.foldlM (fun rows item => addRow columns rows (key item) (values item)) []

def rowsOf (columns : List C) (key : ι → K) (values : ι → List V) (items : List ι) :
    List (KeyedRow K C V) :=
  items.map fun item => ⟨key item, columns.zip (values item)⟩

theorem updateCells_columns (cells : List (C × V)) (column : C) (value : V) :
    (updateCells cells column value).map (·.1) = cells.map (·.1) := by
  rw [updateCells, List.map_map]
  apply List.map_congr_left
  intro cell _
  rw [Function.comp_apply]
  split_ifs with hcolumn
  · exact hcolumn.symm
  · rfl

theorem updateCells_fresh {cells : List (C × V)} {column : C} (h : column ∉ cells.map (·.1))
    (value : V) : updateCells cells column value = cells := by
  rw [updateCells]
  refine (List.map_congr_left fun cell hcell => ?_).trans (List.map_id cells)
  rw [if_neg, id]
  exact fun hcolumn => h (hcolumn ▸ List.mem_map_of_mem hcell)

/-- Updates in the order of the columns, after those that have their values already. -/
theorem foldl_updateCells (updated : List (C × V)) {columns : List C} {old values : List V}
    (hdistinct : (updated.map (·.1) ++ columns).Nodup) (hold : old.length = columns.length)
    (hvalues : values.length = columns.length) :
    (columns.zip values).foldl (fun cells cell => updateCells cells cell.1 cell.2)
        (updated ++ columns.zip old) = updated ++ columns.zip values := by
  induction columns generalizing updated old values with
  | nil => simp
  | cons column columns ih =>
    obtain ⟨first, old, rfl⟩ := List.exists_cons_of_length_eq_add_one hold
    obtain ⟨value, values, rfl⟩ := List.exists_cons_of_length_eq_add_one hvalues
    simp only [List.length_cons, Nat.add_right_cancel_iff] at hold hvalues
    have hfresh : column ∉ updated.map (·.1) ∧ column ∉ columns := by
      rw [List.nodup_middle, List.nodup_cons, List.mem_append, not_or] at hdistinct
      exact hdistinct.1
    have hlater : column ∉ (columns.zip old).map (·.1) := by
      rw [List.map_fst_zip (Nat.le_of_eq hold.symm)]
      exact hfresh.2
    have hupdate : updateCells (updated ++ (column, first) :: columns.zip old) column value =
        (updated ++ [(column, value)]) ++ columns.zip old := by
      have hparts : updateCells (updated ++ (column, first) :: columns.zip old) column value =
          updateCells updated column value ++
            (column, value) :: updateCells (columns.zip old) column value := by
        simp [updateCells]
      rw [hparts, updateCells_fresh hfresh.1, updateCells_fresh hlater, List.append_assoc,
        List.singleton_append]
    rw [List.zip_cons_cons, List.zip_cons_cons, List.foldl_cons, hupdate, ih _ ?_ hold hvalues,
      List.append_assoc, List.singleton_append]
    simpa using hdistinct

section Row

variable {before after : List (KeyedRow K C V)} {row : KeyedRow K C V}
  (hbefore : row.key ∉ before.map (·.key)) (hafter : row.key ∉ after.map (·.key))

include hbefore hafter

theorem updateCell_at {column : C} (hcolumn : column ∈ row.cells.map (·.1)) (value : V) :
    updateCell (before ++ row :: after) row.key column value =
      some (before ++ { row with cells := updateCells row.cells column value } :: after) := by
  have hfound : (before ++ row :: after).any (fun other =>
      other.key = row.key && other.cells.any (·.1 = column)) = true := by
    obtain ⟨cell, hcell, hname⟩ := List.mem_map.mp hcolumn
    refine List.any_eq_true.mpr ⟨row, by simp, ?_⟩
    simpa using ⟨cell.2, hname ▸ hcell⟩
  have hkept : ∀ rows : List (KeyedRow K C V), row.key ∉ rows.map (·.key) →
      (rows.map fun other => if other.key = row.key then
        { other with cells := updateCells other.cells column value } else other) = rows := by
    intro rows hother
    refine (List.map_congr_left fun other hmem => ?_).trans (List.map_id rows)
    rw [if_neg, id]
    exact fun hkey => hother (hkey ▸ List.mem_map_of_mem hmem)
  rw [updateCell, if_pos hfound, List.map_append, List.map_cons, hkept before hbefore,
    hkept after hafter, if_pos rfl]

theorem foldlM_updateCell (updates : List (C × V))
    (hcolumns : ∀ update ∈ updates, update.1 ∈ row.cells.map (·.1)) :
    updates.foldlM (fun rows cell => updateCell rows row.key cell.1 cell.2) (before ++ row :: after) =
      some (before ++ ⟨row.key, updates.foldl
        (fun cells cell => updateCells cells cell.1 cell.2) row.cells⟩ :: after) := by
  induction updates generalizing row with
  | nil => rfl
  | cons update updates ih =>
    have hcolumn := hcolumns update List.mem_cons_self
    rw [List.foldlM_cons, updateCell_at hbefore hafter hcolumn, List.foldl_cons]
    have hlater : ∀ later ∈ updates,
        later.1 ∈ (updateCells row.cells update.1 update.2).map (·.1) := by
      intro later hlater
      rw [updateCells_columns]
      exact hcolumns later (List.mem_cons_of_mem _ hlater)
    exact @ih ⟨row.key, updateCells row.cells update.1 update.2⟩ hbefore hafter hlater

/-- The values of one row change, and nothing else does. -/
theorem updateRow_at {columns : List C} (hdistinct : columns.Nodup)
    (hrow : row.cells.map (·.1) = columns) {values : List V}
    (hvalues : values.length = columns.length) :
    updateRow columns (before ++ row :: after) row.key values =
      some (before ++ ⟨row.key, columns.zip values⟩ :: after) := by
  have hcells : row.cells = columns.zip (row.cells.map (·.2)) := by
    rw [← hrow]
    exact List.zip_of_prod rfl rfl
  have hupdated : (columns.zip values).foldl (fun cells cell => updateCells cells cell.1 cell.2)
      row.cells = columns.zip values := by
    have hlength : (row.cells.map (·.2)).length = columns.length := by simp [← hrow]
    rw [hcells]
    exact foldl_updateCells [] (by simpa using hdistinct) hlength hvalues
  rw [updateRow, foldlM_updateCell hbefore hafter, hupdated]
  intro update hupdate
  rw [hrow]
  exact (List.of_mem_zip hupdate).1

end Row

section Render

variable {columns : List C} {key : ι → K} {values : ι → List V}

theorem foldlM_updateRow (hcolumns : columns.Nodup)
    (hvalues : ∀ item, (values item).length = columns.length) (items : List ι)
    {before after : List (KeyedRow K C V)} (hkeys : after.map (·.key) = items.map key)
    (hdistinct : (before.map (·.key) ++ items.map key).Nodup)
    (hrows : ∀ row ∈ after, row.cells.map (·.1) = columns) :
    items.foldlM (fun rows item => updateRow columns rows (key item) (values item))
        (before ++ after) = some (before ++ rowsOf columns key values items) := by
  induction items generalizing before after with
  | nil =>
    obtain rfl := List.map_eq_nil_iff.mp hkeys
    rfl
  | cons item items ih =>
    obtain ⟨row, after, rfl, hkey, hkeys⟩ := List.map_eq_cons_iff.mp hkeys
    rw [List.map_cons, List.nodup_middle, List.nodup_cons, List.mem_append, not_or] at hdistinct
    have hbefore : row.key ∉ before.map (·.key) := hkey ▸ hdistinct.1.1
    have hafter : row.key ∉ after.map (·.key) := by
      rw [hkeys, hkey]
      exact hdistinct.1.2
    have hupdate := updateRow_at hbefore hafter hcolumns (hrows row List.mem_cons_self)
      (hvalues item)
    rw [hkey] at hupdate
    rw [List.foldlM_cons, hupdate, List.append_cons]
    refine (ih hkeys ?_ fun row hrow => hrows row (List.mem_cons_of_mem _ hrow)).trans ?_
    · rw [List.map_append, List.append_assoc]
      exact List.nodup_middle.mpr (List.nodup_cons.mpr ⟨by simpa using hdistinct.1, hdistinct.2⟩)
    · rw [List.append_assoc]
      rfl

omit [DecidableEq C] in
theorem foldlM_addRow (items : List ι) {rows : List (KeyedRow K C V)}
    (hdistinct : (rows.map (·.key) ++ items.map key).Nodup) :
    items.foldlM (fun rows item => addRow columns rows (key item) (values item)) rows =
      some (rows ++ rowsOf columns key values items) := by
  induction items generalizing rows with
  | nil => simp [rowsOf]
  | cons item items ih =>
    rw [List.map_cons, List.nodup_middle, List.nodup_cons, List.mem_append, not_or] at hdistinct
    have hfresh : ¬ rows.any (·.key = key item) = true := by
      intro hany
      obtain ⟨row, hrow, hkey⟩ := List.any_eq_true.mp hany
      exact hdistinct.1.1 (List.mem_map.mpr ⟨row, hrow, of_decide_eq_true hkey⟩)
    rw [List.foldlM_cons, addRow, if_neg hfresh]
    refine (ih ?_).trans ?_
    · rw [List.map_append, List.append_assoc]
      exact List.nodup_middle.mpr (List.nodup_cons.mpr ⟨by simpa using hdistinct.1, hdistinct.2⟩)
    · rw [List.append_assoc]
      rfl

/-- Whether the rows are updated in place or built again, the table shows the items in their
order, and neither way fails. -/
theorem render_eq {rows : List (KeyedRow K C V)} {items : List ι} (hcolumns : columns.Nodup)
    (hvalues : ∀ item, (values item).length = columns.length)
    (hrows : ∀ row ∈ rows, row.cells.map (·.1) = columns) (hdistinct : (items.map key).Nodup) :
    render columns key values rows items = some (rowsOf columns key values items) := by
  rw [render]
  split_ifs with hkeys
  · have hall : ([].map (KeyedRow.key (C := C) (V := V)) ++ items.map key).Nodup := hdistinct
    exact foldlM_updateRow hcolumns hvalues items hkeys hall hrows
  · have hall : ([].map (KeyedRow.key (C := C) (V := V)) ++ items.map key).Nodup := hdistinct
    exact foldlM_addRow items hall

omit [DecidableEq K] [DecidableEq C]

theorem rowsOf_keys (items : List ι) :
    (rowsOf columns key values items).map (·.key) = items.map key := by
  rw [rowsOf, List.map_map]
  rfl

theorem rowsOf_columns (hvalues : ∀ item, (values item).length = columns.length) (items : List ι) :
    ∀ row ∈ rowsOf columns key values items, row.cells.map (·.1) = columns := by
  intro row hrow
  obtain ⟨item, -, rfl⟩ := List.mem_map.mp hrow
  exact List.map_fst_zip (Nat.le_of_eq (hvalues item).symm)

end Render

end KeyedTable

end Kaskade
