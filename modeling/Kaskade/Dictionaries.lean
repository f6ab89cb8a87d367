import Mathlib.Data.List.Induction
import Mathlib.Data.List.Nodup

/-!
# Dictionaries

Dictionaries as lists of entries in the order in which their keys came up: assignment to a key,
items collected under their keys, and loops that fill or go through them.
-/

namespace Kaskade.Dictionary

section Assignment

variable {κ β : Type*} [DecidableEq κ]

/-- `entries[key] = value`. -/
def setItem (entries : List (κ × β)) (key : κ) (value : β) : List (κ × β) :=
  if entries.any (·.1 = key) then
    entries.map fun entry => if entry.1 = key then (key, value) else entry
  else entries ++ [(key, value)]

theorem setItem_new {entries : List (κ × β)} {key : κ} (h : key ∉ entries.map Prod.fst) (value : β) :
    setItem entries key value = entries ++ [(key, value)] := by
  rw [setItem, if_neg]
  rw [List.any_eq_true]
  rintro ⟨entry, hentry, hkey⟩
  exact h (of_decide_eq_true hkey ▸ List.mem_map_of_mem hentry)

theorem mem_setItem_self (entries : List (κ × β)) (key : κ) (value : β) :
    (key, value) ∈ setItem entries key value := by
  rw [setItem]
  split_ifs with hany
  · obtain ⟨entry, hentry, hkey⟩ := List.any_eq_true.mp hany
    exact List.mem_map.mpr ⟨entry, hentry, if_pos (of_decide_eq_true hkey)⟩
  · exact List.mem_append_right entries List.mem_cons_self

theorem mem_setItem {entries : List (κ × β)} {key : κ} {value : β} {entry : κ × β}
    (h : entry ∈ setItem entries key value) : entry ∈ entries ∨ entry = (key, value) := by
  rw [setItem] at h
  split_ifs at h
  · obtain ⟨other, hother, rfl⟩ := List.mem_map.mp h
    split_ifs
    · exact .inr rfl
    · exact .inl hother
  · exact (List.mem_append.mp h).imp_right List.mem_singleton.mp

/-- `{key: value for ...}`. -/
def ofEntries (entries : List (κ × β)) : List (κ × β) :=
  entries.foldl (fun dict entry => setItem dict entry.1 entry.2) []

theorem ofEntries_eq {entries : List (κ × β)} (h : (entries.map Prod.fst).Nodup) :
    ofEntries entries = entries := by
  induction entries using List.reverseRecOn with
  | nil => rfl
  | append_singleton before entry ih =>
    rw [List.map_append, List.map_singleton, ← List.concat_eq_append, List.nodup_concat] at h
    have hbefore := ih h.2
    rw [ofEntries] at hbefore ⊢
    rw [List.foldl_append, hbefore]
    exact setItem_new h.1 entry.2

theorem ofEntries_concat (before : List (κ × β)) (entry : κ × β) :
    ofEntries (before ++ [entry]) = setItem (ofEntries before) entry.1 entry.2 :=
  List.foldl_concat _ _ _ _

theorem mem_ofEntries {entries : List (κ × β)} {entry : κ × β} (h : entry ∈ ofEntries entries) :
    entry ∈ entries := by
  induction entries using List.reverseRecOn with
  | nil => exact h
  | append_singleton before last ih =>
    rw [ofEntries_concat] at h
    rcases mem_setItem h with h | rfl
    · exact List.mem_append_left _ (ih h)
    · exact List.mem_append_right _ List.mem_cons_self

theorem exists_mem_ofEntries {entries : List (κ × β)} {key : κ} (h : key ∈ entries.map Prod.fst) :
    key ∈ (ofEntries entries).map Prod.fst := by
  induction entries using List.reverseRecOn with
  | nil => exact h
  | append_singleton before last ih =>
    rw [ofEntries_concat]
    by_cases hlast : last.1 = key
    · exact List.mem_map.mpr ⟨_, mem_setItem_self _ last.1 last.2, hlast⟩
    · rw [List.map_append, List.mem_append, List.map_singleton, List.mem_singleton] at h
      obtain ⟨entry, hentry, rfl⟩ := List.mem_map.mp (ih (h.resolve_right (Ne.symm hlast)))
      rw [setItem]
      split_ifs
      · exact List.mem_map.mpr
          ⟨entry, List.mem_map.mpr ⟨entry, hentry, if_neg (Ne.symm hlast)⟩, rfl⟩
      · exact List.mem_map_of_mem (List.mem_append_left _ hentry)

theorem filter_setItem (entries : List (κ × β)) (key : κ) (value : β) :
    (setItem entries key value).filter (·.1 ≠ key) = entries.filter (·.1 ≠ key) := by
  rw [setItem]
  split_ifs with hany
  · clear hany
    induction entries with
    | nil => rfl
    | cons entry entries ih =>
      rw [List.map_cons]
      by_cases hkey : entry.1 = key
      · simpa [hkey] using ih
      · simpa [hkey] using ih
  · simp

theorem keys_setItem {entries : List (κ × β)} {key : κ} (h : key ∈ entries.map Prod.fst) (value : β) :
    (setItem entries key value).map Prod.fst = entries.map Prod.fst := by
  obtain ⟨entry, hentry, hkey⟩ := List.mem_map.mp h
  rw [setItem, if_pos (List.any_eq_true.mpr ⟨entry, hentry, decide_eq_true hkey⟩), List.map_map]
  refine List.map_congr_left fun other _ => ?_
  rw [Function.comp_apply]
  split_ifs with hother
  · exact hother.symm
  · rfl

theorem nodup_setItem {entries : List (κ × β)} (h : (entries.map Prod.fst).Nodup) (key : κ) (value : β) :
    ((setItem entries key value).map Prod.fst).Nodup := by
  by_cases hkey : key ∈ entries.map Prod.fst
  · rwa [keys_setItem hkey]
  · rw [setItem_new hkey, List.map_append, List.map_singleton, ← List.concat_eq_append,
      List.nodup_concat]
    exact ⟨hkey, h⟩

theorem nodup_ofEntries (entries : List (κ × β)) : ((ofEntries entries).map Prod.fst).Nodup := by
  induction entries using List.reverseRecOn with
  | nil => exact List.nodup_nil
  | append_singleton before last ih =>
    rw [ofEntries_concat]
    exact nodup_setItem ih last.1 last.2

/-- `entries | later`. -/
def union (entries later : List (κ × β)) : List (κ × β) :=
  later.foldl (fun dict entry => setItem dict entry.1 entry.2) entries

theorem union_eq_append {entries later : List (κ × β)} (h : ((entries ++ later).map Prod.fst).Nodup) :
    union entries later = entries ++ later := by
  induction later generalizing entries with
  | nil => rw [List.append_nil, union, List.foldl_nil]
  | cons entry later ih =>
    have hnew : entry.1 ∉ entries.map Prod.fst := by
      rw [List.map_append, List.map_cons] at h
      exact fun hmem => List.disjoint_of_nodup_append h hmem List.mem_cons_self
    rw [List.append_cons] at h
    rw [union, List.foldl_cons, setItem_new hnew, ← union, ih h, ← List.append_cons]

section Lookup

variable [BEq κ] [LawfulBEq κ]

omit [DecidableEq κ] in
theorem lookup_eq_some_iff {entries : List (κ × β)} (h : (entries.map Prod.fst).Nodup) {key : κ}
    {value : β} : entries.lookup key = some value ↔ (key, value) ∈ entries := by
  induction entries with
  | nil => simp
  | cons entry entries ih =>
    rw [List.map_cons, List.nodup_cons] at h
    rw [List.lookup_cons, List.mem_cons, Prod.ext_iff]
    cases hkey : key == entry.1 with
    | false => simp only [ih h.2, beq_eq_false_iff_ne.mp hkey, false_and, false_or]
    | true =>
      obtain rfl := eq_of_beq hkey
      have hnot : (entry.1, value) ∉ entries := fun hmem => h.1 (List.mem_map.mpr ⟨_, hmem, rfl⟩)
      simp only [Option.some.injEq, true_and, hnot, or_false, eq_comm]

/-- Among entries with distinct keys, one has a key at most. -/
theorem filterMap_key {entries : List (κ × β)} (h : (entries.map Prod.fst).Nodup) (key : κ) :
    entries.filterMap (fun entry => if entry.1 = key then some entry.2 else none) =
      (entries.lookup key).toList := by
  induction entries with
  | nil => rfl
  | cons entry entries ih =>
    rw [List.map_cons, List.nodup_cons] at h
    rw [List.filterMap_cons, List.lookup_cons, ih h.2]
    by_cases hkey : entry.1 = key
    · have hnone : entries.lookup key = none := by
        refine List.lookup_eq_none_iff.mpr fun other hother => bne_iff_ne.mpr fun hsame => h.1 ?_
        exact hkey ▸ hsame ▸ List.mem_map_of_mem hother
      simp [hkey, hnone]
    · rw [if_neg hkey, beq_eq_false_iff_ne.mpr (Ne.symm hkey)]

theorem setItem_self {entries : List (κ × β)} (h : (entries.map Prod.fst).Nodup) {key : κ} {value : β}
    (hvalue : entries.lookup key = some value) : setItem entries key value = entries := by
  have hmem := (lookup_eq_some_iff h).mp hvalue
  rw [setItem, if_pos (List.any_eq_true.mpr ⟨_, hmem, decide_eq_true rfl⟩)]
  refine (List.map_congr_left fun entry hentry => ?_).trans (List.map_id entries)
  split_ifs with hkey
  · have hentry' := (lookup_eq_some_iff h).mpr hentry
    rw [hkey, hvalue] at hentry'
    exact Prod.ext hkey.symm (Option.some.inj hentry')
  · rfl

/-- What is found after the entries of a key were removed. -/
theorem lookup_filter_ne (entries : List (κ × β)) (removed key : κ) :
    (entries.filter (·.1 ≠ removed)).lookup key =
      if key = removed then none else entries.lookup key := by
  induction entries with
  | nil => simp
  | cons entry entries ih =>
    by_cases hremoved : entry.1 = removed
    · rw [List.filter_cons_of_neg (by simp [hremoved]), ih, List.lookup_cons]
      split_ifs with hkey
      · rfl
      · rw [beq_eq_false_iff_ne.mpr fun h => hkey (h.trans hremoved)]
    · rw [List.filter_cons_of_pos (by simp [hremoved]), List.lookup_cons, List.lookup_cons, ih]
      cases hkey : key == entry.1 with
      | true => exact (if_neg fun h => hremoved ((eq_of_beq hkey).symm.trans h)).symm
      | false => rfl

/-- What is found after the values of a key were changed. -/
theorem lookup_map_update (entries : List (κ × β)) (changed key : κ) (change : β → β) :
    (entries.map fun entry => if entry.1 = changed then (entry.1, change entry.2) else entry).lookup key =
      if key = changed then (entries.lookup key).map change else entries.lookup key := by
  induction entries with
  | nil => simp
  | cons entry entries ih =>
    rw [List.map_cons, List.lookup_cons, List.lookup_cons]
    by_cases hchanged : entry.1 = changed
    · simp only [hchanged, if_true, ih]
      cases hkey : key == changed with
      | true => simp [eq_of_beq hkey]
      | false => simp [beq_eq_false_iff_ne.mp hkey]
    · simp only [hchanged, if_false, ih]
      cases hkey : key == entry.1 with
      | true =>
        obtain rfl := eq_of_beq hkey
        simp [hchanged]
      | false => rfl

theorem lookup_setItem (entries : List (κ × β)) (key : κ) (value : β) (name : κ) :
    (setItem entries key value).lookup name = if name = key then some value else entries.lookup name := by
  have hupdate : (entries.map fun entry => if entry.1 = key then (key, value) else entry).lookup name =
      if name = key then (entries.lookup name).map (fun _ => value) else entries.lookup name := by
    rw [← lookup_map_update]
    congr 1
    exact List.map_congr_left fun other _ => ite_congr rfl (fun h => by rw [h]) fun _ => rfl
  rw [setItem]
  split_ifs with hany hname hname
  · obtain ⟨entry, hentry, hkey⟩ := List.any_eq_true.mp hany
    obtain ⟨current, hcurrent⟩ := Option.isSome_iff_exists.mp (List.lookup_isSome_iff.mpr
      ⟨entry, hentry, beq_iff_eq.mpr (of_decide_eq_true hkey).symm⟩)
    rw [hupdate, if_pos hname, hname, hcurrent, Option.map_some]
  · rw [hupdate, if_neg hname]
  · have hnone : entries.lookup name = none := by
      refine List.lookup_eq_none_iff.mpr fun entry hentry => bne_iff_ne.mpr fun h => hany ?_
      exact List.any_eq_true.mpr ⟨entry, hentry, decide_eq_true (h.symm.trans hname)⟩
    rw [List.lookup_append, hnone, List.lookup_cons, hname, beq_self_eq_true]
    rfl
  · rw [List.lookup_append, List.lookup_cons, beq_eq_false_iff_ne.mpr hname]
    exact Option.or_none

end Lookup

/-- An entry under a key of its own, and the entries without it. -/
theorem exists_split {entries : List (κ × β)} (h : (entries.map Prod.fst).Nodup) {entry : κ × β}
    (hentry : entry ∈ entries) :
    ∃ before after, entries = before ++ entry :: after ∧
      entries.filter (·.1 ≠ entry.1) = before ++ after := by
  obtain ⟨before, after, rfl⟩ := List.append_of_mem hentry
  rw [List.map_append, List.map_cons, List.nodup_middle, List.nodup_cons, List.mem_append, not_or] at h
  refine ⟨before, after, rfl, ?_⟩
  rw [List.filter_append, List.filter_cons_of_neg (by simp)]
  congr 1 <;> rw [List.filter_eq_self] <;> intro other hother <;>
    refine decide_eq_true fun hkey => ?_
  · exact h.1.1 (hkey ▸ List.mem_map_of_mem hother)
  · exact h.1.2 (hkey ▸ List.mem_map_of_mem hother)

end Assignment

section Grouping

variable {κ β : Type*} [DecidableEq κ]

/-- Append the item to those under the key, which comes last if it is new. -/
def addUnder (entries : List (κ × List β)) (key : κ) (item : β) : List (κ × List β) :=
  if entries.any (·.1 = key) then
    entries.map fun (name, list) => (name, if name = key then list ++ [item] else list)
  else entries ++ [(key, [item])]

def grouped (key : β → κ) (items : List β) : List (κ × List β) :=
  items.foldl (fun entries item => addUnder entries (key item) item) []

theorem any_filter_key (entries : List (κ × List β)) (key : κ) :
    ((entries.filter (·.1 = key)).any (·.1 = key)) = entries.any (·.1 = key) := by
  rw [List.any_filter]
  congr 1
  funext entry
  exact Bool.and_self _

/-- The entries under one key only change with an item of that key. -/
theorem addUnder_filter (entries : List (κ × List β)) (key other : κ) (item : β) :
    (addUnder entries other item).filter (·.1 = key) =
      if other = key then addUnder (entries.filter (·.1 = key)) key item
      else entries.filter (·.1 = key) := by
  rw [addUnder]
  split_ifs with hany hkey hkey
  · subst hkey
    rw [addUnder, any_filter_key, if_pos hany, List.filter_map]
    rfl
  · rw [List.filter_map]
    refine (List.map_congr_left ?_).trans (List.map_id (entries.filter (·.1 = key)))
    intro entry hentry
    have hname : entry.1 = key := by simpa using (List.mem_filter.mp hentry).2
    exact Prod.ext rfl (if_neg fun hother => hkey (hother.symm.trans hname))
  · subst hkey
    rw [addUnder, any_filter_key, if_neg hany, List.filter_append]
    simp
  · rw [List.filter_append]
    simp [hkey]

/-- Under a key are the items of that key in their order, and there is no empty entry. -/
theorem grouped_filter (key : β → κ) (items : List β) (k : κ) :
    (grouped key items).filter (·.1 = k) =
      if items.filter (key · = k) = [] then [] else [(k, items.filter (key · = k))] := by
  induction items using List.reverseRecOn with
  | nil => rfl
  | append_singleton before item ih =>
    have hstep : grouped key (before ++ [item]) = addUnder (grouped key before) (key item) item := by
      rw [grouped, List.foldl_append]
      rfl
    rw [hstep, addUnder_filter, ih, List.filter_append]
    by_cases hkey : key item = k
    · rw [if_pos hkey]
      split_ifs with hnone <;> simp_all [addUnder]
    · simp [hkey]

end Grouping

section Loops

variable {α β : Type*}

/-- A loop that maps a list at each step maps it by the loops over the single elements. -/
theorem foldl_map_eq (step : α → β → β) (items : List α) (list : List β) :
    items.foldl (fun list item => list.map (step item)) list =
      list.map fun element => items.foldl (fun element item => step item element) element := by
  induction items generalizing list with
  | nil => exact (List.map_id list).symm
  | cons item items ih => rw [List.foldl_cons, ih, List.map_map]; rfl

/-- A loop may leave out the items that change nothing, as long as an invariant of it holds. -/
theorem foldl_filter_eq (keep : α → Bool) (step : β → α → β) (Inv : β → Prop)
    (hstep : ∀ b item, Inv b → Inv (step b item))
    (hskip : ∀ b item, Inv b → keep item = false → step b item = b)
    (items : List α) (b : β) (hb : Inv b) :
    items.foldl step b = (items.filter keep).foldl step b := by
  induction items generalizing b with
  | nil => rfl
  | cons item items ih =>
    cases hkeep : keep item with
    | false =>
      rw [List.foldl_cons, hskip b item hb hkeep, List.filter_cons_of_neg (by simp [hkeep])]
      exact ih b hb
    | true =>
      rw [List.foldl_cons, List.filter_cons_of_pos hkeep, List.foldl_cons]
      exact ih _ (hstep b item hb)

theorem filterMap_sublist_map {f : α → Option β} {g : α → β} {items : List α}
    (h : ∀ item ∈ items, ∀ b ∈ f item, b = g item) : (items.filterMap f).Sublist (items.map g) := by
  induction items with
  | nil => exact List.nil_sublist []
  | cons item items ih =>
    have ih := ih fun other hother => h other (List.mem_cons_of_mem _ hother)
    cases hitem : f item with
    | none => rw [List.filterMap_cons_none hitem]; exact ih.cons _
    | some b =>
      rw [List.filterMap_cons_some hitem, h item List.mem_cons_self b hitem]
      exact ih.cons_cons _

end Loops

end Kaskade.Dictionary
