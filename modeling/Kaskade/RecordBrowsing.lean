import Kaskade.ChunkSizes

/-!
# Browsing records

`ListRecords` as a whole: what the table shows, over the workers of `ChunkSizes`, and which consumer
each call of `consume()` and of `aclose()` is made on. A filter change builds a new consumer and shows
the topic again from the configured position.
-/

namespace Kaskade

open Python

variable {F E : Type}

/-- A page, with the consumer and the filters of the call of `consume()` that it is of. -/
structure BrowsedPage (F E : Type) where
  consumer : ℕ
  filters : RecordFilters
  page : Outcome (List (Record F E))

/-- `ListRecords`. Its consumers are numbered as they are built. -/
structure RecordBrowsing (F E : Type) where
  list : ConsumingList
  shown : ListRecords F E := {}
  /-- `self.consumer`. -/
  current : ℕ := 0
  built : ℕ := 1
  /-- `previous` of `replace_consumer`, while it closes. -/
  closing : Option ℕ := none
  closed : List ℕ := []
  /-- The consumer and the filters of the call of `consume()` that runs. -/
  call : Option (ℕ × RecordFilters) := none
  /-- The pages since the filters were last applied. -/
  pages : List (BrowsedPage F E) := []

inductive BrowsingAction (F E : Type) where
  | act (action : RecordsAction)
  | receivePage (page : Outcome (List (Record F E)))

def RecordsAction.isBinding : RecordsAction → Bool
  | .consume | .changeChunk | .filter | .showAll => true
  | _ => false

namespace ConsumingList

/-- There is one worker at most, exactly while `_is_consuming` is set, and no screen is open then. -/
structure OneWorker (list : ConsumingList) (worker : Option RecordsWorker) : Prop where
  workers : list.workers = worker.toList
  consuming : list.isConsuming = worker.isSome
  screens : worker.isSome = true → list.screens = []
  screen : list.screens.length ≤ 1

inductive Transition :
    Option RecordsWorker → RecordsAction → Option RecordsWorker → Prop where
  | consume : Transition none .consume (some .starting)
  | changeChunk : Transition none .changeChunk none
  | chooseChunk (current : ℕ) (result : Option ℕ) : Transition none (.chooseChunk current result) none
  | filter : Transition none .filter none
  | keepFilters : Transition none (.chooseFilters none) none
  | chooseFilters (filters : RecordFilters) :
      Transition none (.chooseFilters (some filters)) (some .replacing)
  | showAll : Transition none .showAll (some .replacing)
  | build (previous : PagedConsumer) :
      Transition (some .replacing) (.buildConsumer (.ok ())) (some (.closing previous))
  | buildFails (e : PyException) (worker : Option RecordsWorker)
      (hworker : worker = none ∨ worker = some .starting) :
      Transition (some .replacing) (.buildConsumer (.error e)) worker
  | close (previous : PagedConsumer) (result : Except PyException Unit)
      (worker : Option RecordsWorker) (hworker : worker = none ∨ worker = some .starting) :
      Transition (some (.closing previous)) (.closePrevious previous result) worker
  | call : Transition (some .starting) .callConsume (some .consuming)
  | receive (result : Except PyException Unit) :
      Transition (some .consuming) (.receivePage result) none

def filtersAfter (list : ConsumingList) : RecordsAction → RecordFilters
  | .chooseFilters (some filters) => filters
  | .showAll => {}
  | _ => list.filters

variable {list list' : ConsumingList} {worker : Option RecordsWorker}

theorem OneWorker.of_contains (h : list.OneWorker worker) {at_ : RecordsWorker}
    (hcontains : list.workers.contains at_ = true) : worker = some at_ := by
  rw [h.workers, List.contains_iff_mem, Option.mem_toList] at hcontains
  exact hcontains

/-- A list without workers whose screens are closed starts one. -/
theorem OneWorker.start (hworkers : list.workers = []) (hconsuming : list.isConsuming = false)
    (hscreens : list.screens = []) : list.actionConsume.OneWorker (some .starting) := by
  rw [actionConsume, hconsuming, if_neg Bool.false_ne_true, hworkers]
  exact ⟨rfl, rfl, fun _ => hscreens, by rw [hscreens]; exact Nat.zero_le 1⟩

theorem finishReplacing_one (result : Except PyException Unit) (hworkers : list.workers = [])
    (hscreens : list.screens = []) :
    (list.finishReplacing result).filters = list.filters ∧
      ∃ worker, (worker = none ∨ worker = some .starting) ∧
        (list.finishReplacing result).OneWorker worker := by
  have hstarts : ({ list with isConsuming := false } : ConsumingList).actionConsume.OneWorker
      (some .starting) := OneWorker.start hworkers rfl hscreens
  have hfilters : ({ list with isConsuming := false } : ConsumingList).actionConsume.filters =
      list.filters := rfl
  cases result with
  | ok _ => exact ⟨hfilters, _, .inr rfl, hstarts⟩
  | error e =>
    rw [finishReplacing]
    split_ifs
    · exact ⟨hfilters, _, .inr rfl, hstarts⟩
    · refine ⟨rfl, none, .inl rfl, ⟨hworkers, rfl, fun _ => hscreens, ?_⟩⟩
      rw [hscreens]
      exact Nat.zero_le 1

theorem finishConsuming_one (result : Except PyException Unit) (hworkers : list.workers = [])
    (hscreen : list.screens.length ≤ 1) :
    (list.finishConsuming result).filters = list.filters ∧
      (list.finishConsuming result).OneWorker none := by
  cases result with
  | ok _ => exact ⟨rfl, hworkers, rfl, fun h => (by cases h), hscreen⟩
  | error e =>
    rw [finishConsuming]
    split_ifs
    · exact ⟨rfl, hworkers, rfl, fun h => (by cases h), hscreen⟩
    · exact ⟨rfl, hworkers, rfl, fun h => (by cases h), hscreen⟩

theorem OneWorker.screens_nil (h : list.OneWorker worker) {screen : RecordsScreen}
    (hscreen : list.screens.contains screen = true) : worker = none := by
  cases worker with
  | none => rfl
  | some at_ =>
    rw [h.screens rfl] at hscreen
    cases hscreen

def Moves (list : ConsumingList) (worker : Option RecordsWorker) (action : RecordsAction)
    (list' : ConsumingList) : Prop :=
  list'.filters = list.filtersAfter action ∧
    ∃ worker', Transition worker action worker' ∧ list'.OneWorker worker'

theorem OneWorker.idle (h : list.OneWorker worker) (hconsuming : ¬ list.isConsuming = true) :
    worker = none := by
  rw [h.consuming] at hconsuming
  exact Option.not_isSome_iff_eq_none.mp hconsuming

/-- What the user may do where no screen is open and nothing is consumed. -/
theorem OneWorker.moves_binding {action : RecordsAction} (h : list.OneWorker worker)
    (hstep : list.step action = some list') (haction : action.isBinding = true)
    (hscreens : list.screens = []) : list.Moves worker action list' := by
  cases action with
  | consume =>
    simp only [ConsumingList.step] at hstep
    split_ifs at hstep with hconsuming
    obtain rfl := h.idle hconsuming
    cases hstep
    refine ⟨?_, _, .consume, OneWorker.start h.workers (Bool.eq_false_iff.mpr hconsuming) (hscreens)⟩
    rw [actionConsume, if_neg hconsuming]
    rfl
  | changeChunk =>
    simp only [ConsumingList.step] at hstep
    split_ifs at hstep with hconsuming
    obtain rfl := h.idle hconsuming
    cases hstep
    refine ⟨rfl, _, .changeChunk, h.workers, h.consuming, fun hsome => (by cases hsome), ?_⟩
    rw [hscreens]
    exact Nat.le_refl 1
  | filter =>
    simp only [ConsumingList.step] at hstep
    split_ifs at hstep with hconsuming
    obtain rfl := h.idle hconsuming
    cases hstep
    refine ⟨rfl, _, .filter, h.workers, h.consuming, fun hsome => (by cases hsome), ?_⟩
    rw [hscreens]
    exact Nat.le_refl 1
  | showAll =>
    simp only [ConsumingList.step] at hstep
    split_ifs at hstep with hactive
    simp only [Bool.or_eq_true, not_or] at hactive
    obtain rfl := h.idle hactive.1
    cases hstep
    refine ⟨rfl, _, .showAll, ?_, rfl, fun _ => hscreens, h.screen⟩
    rw [startFilter, h.workers]
    rfl
  | _ => cases haction

theorem OneWorker.moves_chooseChunk {current : ℕ} {result : Option ℕ} (h : list.OneWorker worker)
    (hstep : list.step (.chooseChunk current result) = some list') :
    list.Moves worker (.chooseChunk current result) list' := by
  simp only [ConsumingList.step] at hstep
  split_ifs at hstep with hscreen
  obtain rfl := h.screens_nil hscreen
  have hscreens : (list.screens.erase (.chunkSize current)).length ≤ 1 :=
    (List.erase_sublist.length_le).trans h.screen
  cases result with
  | none =>
    cases hstep
    exact ⟨rfl, _, .chooseChunk current none, h.workers, h.consuming, fun hsome => (by cases hsome),
      hscreens⟩
  | some size =>
    cases hstep
    exact ⟨rfl, _, .chooseChunk current (some size), h.workers, h.consuming,
      fun hsome => (by cases hsome), hscreens⟩

theorem OneWorker.moves_chooseFilters {result : Option RecordFilters} (h : list.OneWorker worker)
    (hstep : list.step (.chooseFilters result) = some list') :
    list.Moves worker (.chooseFilters result) list' := by
  simp only [ConsumingList.step] at hstep
  split_ifs at hstep with hscreen
  obtain rfl := h.screens_nil hscreen
  have hmem : RecordsScreen.filterRecords ∈ list.screens := List.contains_iff_mem.mp hscreen
  have hclosed : list.screens.erase .filterRecords = [] := by
    have hone := h.screen
    rw [List.eq_nil_iff_length_eq_zero, List.length_erase_of_mem hmem]
    omega
  cases result with
  | none =>
    cases hstep
    refine ⟨rfl, _, .keepFilters, h.workers, h.consuming, fun hsome => (by cases hsome), ?_⟩
    exact (List.erase_sublist.length_le).trans h.screen
  | some filters =>
    cases hstep
    refine ⟨rfl, _, .chooseFilters filters, ?_, rfl, fun _ => hclosed, ?_⟩
    · rw [startFilter, h.workers]
      rfl
    · exact (List.erase_sublist.length_le).trans h.screen

theorem OneWorker.moves_buildConsumer {result : Except PyException Unit} (h : list.OneWorker worker)
    (hstep : list.step (.buildConsumer result) = some list') :
    list.Moves worker (.buildConsumer result) list' := by
  simp only [ConsumingList.step] at hstep
  split_ifs at hstep with hcontains
  obtain rfl := h.of_contains hcontains
  have hworkers := h.workers
  have hscreens := h.screens rfl
  cases result with
  | ok _ =>
    cases hstep
    refine ⟨rfl, _, .build list.consumer, ?_, h.consuming, fun _ => hscreens, h.screen⟩
    simp [hworkers]
  | error e =>
    cases hstep
    have hnone : ({ list with workers := list.workers.erase .replacing } : ConsumingList).workers =
        [] := by simp [hworkers]
    obtain ⟨hfilters, worker', hworker, hone⟩ := finishReplacing_one (.error e) hnone hscreens
    exact ⟨hfilters, worker', .buildFails e worker' hworker, hone⟩

theorem OneWorker.moves_closePrevious {previous : PagedConsumer} {result : Except PyException Unit}
    (h : list.OneWorker worker) (hstep : list.step (.closePrevious previous result) = some list') :
    list.Moves worker (.closePrevious previous result) list' := by
  simp only [ConsumingList.step] at hstep
  split_ifs at hstep with hcontains
  obtain rfl := h.of_contains hcontains
  have hworkers := h.workers
  cases hstep
  have hnone : ({ list with workers := list.workers.erase (.closing previous) } :
      ConsumingList).workers = [] := by simp [hworkers]
  obtain ⟨hfilters, worker', hworker, hone⟩ := finishReplacing_one result hnone (h.screens rfl)
  exact ⟨hfilters, worker', .close previous result worker' hworker, hone⟩

theorem OneWorker.moves_callConsume (h : list.OneWorker worker)
    (hstep : list.step .callConsume = some list') : list.Moves worker .callConsume list' := by
  simp only [ConsumingList.step] at hstep
  split_ifs at hstep with hcontains
  obtain rfl := h.of_contains hcontains
  have hworkers := h.workers
  cases hstep
  refine ⟨rfl, _, .call, ?_, h.consuming, fun _ => h.screens rfl, h.screen⟩
  simp [hworkers]

theorem OneWorker.moves_receivePage {result : Except PyException Unit} (h : list.OneWorker worker)
    (hstep : list.step (.receivePage result) = some list') :
    list.Moves worker (.receivePage result) list' := by
  simp only [ConsumingList.step] at hstep
  split_ifs at hstep with hcontains
  obtain rfl := h.of_contains hcontains
  have hworkers := h.workers
  cases hstep
  have hnone : ({ list with workers := list.workers.erase .consuming } : ConsumingList).workers =
      [] := by simp [hworkers]
  obtain ⟨hfilters, hone⟩ := finishConsuming_one result hnone h.screen
  exact ⟨hfilters, none, .receive result, hone⟩

/-- An action that the screens do not keep from the user moves the one worker. -/
theorem OneWorker.step {action : RecordsAction} (h : list.OneWorker worker)
    (hstep : list.step action = some list')
    (hbinding : action.isBinding = true → list.screens = []) : list.Moves worker action list' := by
  cases action with
  | chooseChunk current result => exact h.moves_chooseChunk hstep
  | chooseFilters result => exact h.moves_chooseFilters hstep
  | buildConsumer result => exact h.moves_buildConsumer hstep
  | closePrevious previous result => exact h.moves_closePrevious hstep
  | callConsume => exact h.moves_callConsume hstep
  | receivePage result => exact h.moves_receivePage hstep
  | _ => exact h.moves_binding hstep rfl (hbinding rfl)

end ConsumingList

namespace RecordBrowsing

def mounted : RecordBrowsing F E where
  list := ConsumingList.actionConsume {}

/-- What an action does beside what it does to the workers. -/
def effect (s : RecordBrowsing F E) (list : ConsumingList) : RecordsAction → RecordBrowsing F E
  | .chooseFilters (some _) => { s with list := list, shown := s.shown.filter, pages := [] }
  | .showAll => { s with list := list, shown := s.shown.filter, pages := [] }
  | .buildConsumer (.ok ()) =>
    { s with list := list, current := s.built, built := s.built + 1, closing := some s.current }
  | .closePrevious _ _ =>
    { s with list := list, closed := s.closed ++ s.closing.toList, closing := none }
  | .callConsume => { s with list := list, call := some (s.current, s.list.filters) }
  | _ => { s with list := list }

section Steps

variable (py : Interpreter F E) (localTime : UtcDateTime → Outcome Text)

def step (s : RecordBrowsing F E) : BrowsingAction F E → Option (RecordBrowsing F E)
  | .act (.receivePage _) => none
  | .act action =>
    if action.isBinding && !s.list.screens.isEmpty then none
    else (s.list.step action).map (s.effect · action)
  | .receivePage page =>
    match s.call with
    | none => none
    | some (consumer, filters) =>
      let shown := s.shown.consumeRecords py localTime page
      (s.list.step (.receivePage shown.1)).map fun list =>
        { s with
          list := list
          shown := shown.2
          call := none
          pages := s.pages ++ [⟨consumer, filters, page⟩] }

def Step (s : RecordBrowsing F E) (action : BrowsingAction F E) (t : RecordBrowsing F E) : Prop :=
  s.step py localTime action = some t

def showPages (pages : List (Outcome (List (Record F E)))) : ListRecords F E :=
  pages.foldl (fun list page => (list.consumeRecords py localTime page).2) {}

end Steps

def pagesAfter (pages : List (Outcome (List (Record F E)))) :
    BrowsingAction F E → List (Outcome (List (Record F E)))
  | .act (.chooseFilters (some _)) => []
  | .act .showAll => []
  | .act _ => pages
  | .receivePage page => pages ++ [page]

def pagesSinceFilter (actions : List (BrowsingAction F E)) : List (Outcome (List (Record F E))) :=
  actions.foldl pagesAfter []

structure WorkerAt (s : RecordBrowsing F E) (worker : Option RecordsWorker) : Prop where
  one : s.list.OneWorker worker
  call : s.call = if worker = some .consuming then some (s.current, s.list.filters) else none
  closing : s.closing.isSome = true ↔ ∃ previous, worker = some (.closing previous)
  /-- `_filter` clears the list before it replaces the consumer. -/
  pages : worker = some .replacing → s.pages = []

/-- Each consumer that was built is the current one, is being closed, or was closed once. -/
def ClosesOnce (s : RecordBrowsing F E) : Prop :=
  (s.closed ++ s.closing.toList ++ [s.current]).Perm (List.range s.built)

def PagesCurrent (s : RecordBrowsing F E) : Prop :=
  ∀ page ∈ s.pages, page.consumer = s.current ∧ page.filters = s.list.filters

def SameRows (list other : ListRecords F E) : Prop :=
  list.records = other.records ∧ list.table = other.table

variable {py : Interpreter F E} {localTime : UtcDateTime → Outcome Text} {s t : RecordBrowsing F E}

structure Browses (py : Interpreter F E) (localTime : UtcDateTime → Outcome Text)
    (s : RecordBrowsing F E) : Prop where
  worker : ∃ worker, WorkerAt s worker
  closes : ClosesOnce s
  current : PagesCurrent s
  shown : SameRows s.shown (showPages py localTime (s.pages.map BrowsedPage.page))

theorem showRecord_congr (py : Interpreter F E) (localTime : UtcDateTime → Outcome Text)
    (record : Record F E) {list other : ListRecords F E}
    (h : SameRows list other) :
    (list.showRecord py localTime record).1 = (other.showRecord py localTime record).1 ∧
      SameRows (list.showRecord py localTime record).2 (other.showRecord py localTime record).2 := by
  obtain ⟨hrecords, htable⟩ := h
  simp only [ListRecords.showRecord, hrecords, htable]
  cases recordRow py localTime record >>= fun cells => other.table.addRow cells record.id with
  | error e => exact ⟨rfl, rfl, rfl⟩
  | ok table =>
    cases hcells : addCellTooltips table other.table.rows.length record with
    | error e =>
      simp only [hcells]
      exact ⟨trivial, rfl, rfl⟩
    | ok table =>
      simp only [hcells]
      exact ⟨trivial, rfl, rfl⟩

/-- What the loop over a page shows depends on what was shown before, and on nothing else. -/
theorem showRecords_congr (py : Interpreter F E) (localTime : UtcDateTime → Outcome Text)
    (page : List (Record F E)) {list other : ListRecords F E}
    (h : SameRows list other) :
    (list.showRecords py localTime page).1 = (other.showRecords py localTime page).1 ∧
      SameRows (list.showRecords py localTime page).2 (other.showRecords py localTime page).2 := by
  induction page generalizing list other with
  | nil => exact ⟨rfl, h⟩
  | cons record page ih =>
    obtain ⟨houtcome, hsame⟩ := showRecord_congr py localTime record h
    rw [ListRecords.showRecords, ListRecords.showRecords]
    cases hlist : list.showRecord py localTime record with
    | mk outcome shown =>
      cases hother : other.showRecord py localTime record with
      | mk outcome' shown' =>
        rw [hlist, hother] at houtcome hsame
        obtain rfl : outcome = outcome' := houtcome
        cases outcome with
        | error e => exact ⟨rfl, hsame⟩
        | ok _ => exact ih hsame

theorem consumeRecords_congr (py : Interpreter F E) (localTime : UtcDateTime → Outcome Text)
    (page : Outcome (List (Record F E))) {list other : ListRecords F E}
    (h : SameRows list other) :
    SameRows (list.consumeRecords py localTime page).2 (other.consumeRecords py localTime page).2 := by
  cases page with
  | error e =>
    simp only [ListRecords.consumeRecords]
    split_ifs <;> exact h
  | ok records =>
    obtain ⟨houtcome, hsame⟩ := showRecords_congr py localTime records h
    simp only [ListRecords.consumeRecords]
    cases hlist : list.showRecords py localTime records with
    | mk outcome shown =>
      cases hother : other.showRecords py localTime records with
      | mk outcome' shown' =>
        rw [hlist, hother] at houtcome hsame
        obtain rfl : outcome = outcome' := houtcome
        cases outcome with
        | ok _ => exact hsame
        | error e =>
          dsimp only
          split_ifs <;> exact hsame

theorem step_act {action : RecordsAction} (hstep : Step py localTime s (.act action) t) :
    (action.isBinding = true → s.list.screens = []) ∧
      ∃ list, s.list.step action = some list ∧ t = s.effect list action := by
  have hgeneral : ∀ binding : Bool, (if binding && !s.list.screens.isEmpty then none
      else (s.list.step action).map (s.effect · action)) = some t →
      (binding = true → s.list.screens = []) ∧
        ∃ list, s.list.step action = some list ∧ t = s.effect list action := by
    intro binding h
    split_ifs at h with hkept
    obtain ⟨list, hlist, rfl⟩ := Option.map_eq_some_iff.mp h
    refine ⟨fun hbinding => ?_, list, hlist, rfl⟩
    simpa [hbinding] using hkept
  cases action with
  | receivePage result => cases hstep
  | _ => exact hgeneral _ hstep

theorem Browses.withList (h : Browses py localTime s) {list : ConsumingList}
    (hfilters : list.filters = s.list.filters) {worker : Option RecordsWorker}
    (hworker : WorkerAt { s with list := list } worker) :
    Browses py localTime { s with list := list } where
  worker := ⟨worker, hworker⟩
  closes := h.closes
  current page hpage := by
    obtain ⟨hconsumer, hsame⟩ := h.current page hpage
    exact ⟨hconsumer, hsame.trans hfilters.symm⟩
  shown := h.shown

theorem Browses.filtered (h : Browses py localTime s) {list : ConsumingList}
    {worker : Option RecordsWorker}
    (hworker : WorkerAt { s with list := list, shown := s.shown.filter, pages := [] } worker) :
    Browses py localTime { s with list := list, shown := s.shown.filter, pages := [] } where
  worker := ⟨worker, hworker⟩
  closes := h.closes
  current _ hpage := absurd hpage List.not_mem_nil
  shown := ⟨rfl, rfl⟩

/-- A consumer is built while no page is shown, and the previous one is left to close. -/
theorem ClosesOnce.build (h : ClosesOnce s) (hclosing : s.closing = none) (list : ConsumingList) :
    ClosesOnce (s.effect list (.buildConsumer (.ok ()))) := by
  rw [ClosesOnce, hclosing] at h
  simp only [effect, ClosesOnce, List.range_succ]
  apply List.Perm.append_right
  simpa using h

theorem ClosesOnce.close (h : ClosesOnce s) (list : ConsumingList) (previous : PagedConsumer)
    (result : Except PyException Unit) :
    ClosesOnce (s.effect list (.closePrevious previous result)) := by
  simp only [effect, ClosesOnce, Option.toList_none, List.append_nil]
  exact h

theorem Browses.act {action : RecordsAction} (h : Browses py localTime s)
    (hstep : Step py localTime s (.act action) t) : Browses py localTime t := by
  obtain ⟨hbinding, list, hlist, rfl⟩ := step_act hstep
  obtain ⟨worker, hworker⟩ := h.worker
  obtain ⟨hfilters, worker', htransition, hone⟩ := hworker.one.step hlist hbinding
  have hcall := hworker.call
  have hclosing := hworker.closing
  have hpages := hworker.pages
  have hidle : (none : Option RecordsWorker) = some .replacing → s.pages = [] := fun h => nomatch h
  cases htransition with
  | consume =>
    exact h.withList hfilters ⟨hone, hcall, by simpa using hclosing, fun h => by cases h⟩
  | changeChunk => exact h.withList hfilters ⟨hone, hcall, hclosing, hidle⟩
  | chooseChunk current result => exact h.withList hfilters ⟨hone, hcall, hclosing, hidle⟩
  | filter => exact h.withList hfilters ⟨hone, hcall, hclosing, hidle⟩
  | keepFilters => exact h.withList hfilters ⟨hone, hcall, hclosing, hidle⟩
  | chooseFilters filters =>
    exact h.filtered ⟨hone, hcall, by simpa using hclosing, fun _ => rfl⟩
  | showAll => exact h.filtered ⟨hone, hcall, by simpa using hclosing, fun _ => rfl⟩
  | build previous =>
    have hempty : s.pages = [] := hpages rfl
    refine ⟨⟨_, hone, hcall, ?_, fun h => by cases h⟩, h.closes.build (by simpa using hclosing) list,
      fun page hpage => ?_, h.shown⟩
    · exact ⟨fun _ => ⟨previous, rfl⟩, fun _ => rfl⟩
    · have hshown : page ∈ s.pages := hpage
      rw [hempty] at hshown
      cases hshown
  | buildFails e worker' hstarts =>
    have hnone : s.closing = none := by simpa using hclosing
    apply h.withList hfilters
    refine ⟨hone, ?_, ?_, ?_⟩
    · rcases hstarts with rfl | rfl <;> exact hcall
    · rcases hstarts with rfl | rfl <;> simp [hnone]
    · rcases hstarts with rfl | rfl <;> exact fun h => by cases h
  | close previous result worker' hstarts =>
    refine ⟨⟨worker', hone, ?_, ?_, ?_⟩, h.closes.close list previous result, fun page hpage => ?_,
      h.shown⟩
    · rcases hstarts with rfl | rfl <;> exact hcall
    · rcases hstarts with rfl | rfl <;> simp [effect]
    · rcases hstarts with rfl | rfl <;> exact fun h => by cases h
    · obtain ⟨hconsumer, hsame⟩ := h.current page hpage
      exact ⟨hconsumer, hsame.trans hfilters.symm⟩
  | call =>
    refine ⟨⟨_, hone, ?_, ?_, fun h => by cases h⟩, h.closes, fun page hpage => ?_, h.shown⟩
    · rw [if_pos rfl]
      exact congrArg (fun filters => some (s.current, filters)) hfilters.symm
    · simpa [effect] using hclosing
    · obtain ⟨hconsumer, hsame⟩ := h.current page hpage
      exact ⟨hconsumer, hsame.trans hfilters.symm⟩
  | receive result => cases hstep

/-- A page is of the consumer and the filters that are still the current ones when it comes. -/
theorem Browses.receivePage {page : Outcome (List (Record F E))} (h : Browses py localTime s)
    (hstep : Step py localTime s (.receivePage page) t) : Browses py localTime t := by
  obtain ⟨worker, hworker⟩ := h.worker
  have hcall := hworker.call
  simp only [Step, step] at hstep
  cases hs : s.call with
  | none => simp [hs] at hstep
  | some call =>
    obtain ⟨consumer, filters⟩ := call
    rw [hs] at hstep hcall
    obtain ⟨list, hlist, rfl⟩ := Option.map_eq_some_iff.mp hstep
    obtain ⟨hfilters, worker', htransition, hone⟩ := hworker.one.step hlist (fun h => by cases h)
    cases htransition
    rw [if_pos rfl, Option.some_inj, Prod.mk.injEq] at hcall
    obtain ⟨rfl, rfl⟩ := hcall
    refine ⟨⟨none, hone, rfl, ?_, fun h => by cases h⟩, h.closes, fun shown hmem => ?_, ?_⟩
    · simpa using hworker.closing
    · rcases List.mem_append.mp hmem with hbefore | hnow
      · obtain ⟨hconsumer, hsame⟩ := h.current shown hbefore
        exact ⟨hconsumer, hsame.trans hfilters.symm⟩
      · obtain rfl := List.mem_singleton.mp hnow
        exact ⟨rfl, hfilters.symm⟩
    · rw [List.map_append, showPages, List.foldl_append]
      exact consumeRecords_congr py localTime page h.shown

theorem browses_mounted : Browses py localTime (mounted : RecordBrowsing F E) where
  worker := by
    have hone : (ConsumingList.actionConsume {}).OneWorker (some .starting) :=
      ConsumingList.OneWorker.start rfl rfl rfl
    exact ⟨some .starting, hone, rfl, by simp [mounted], fun _ => rfl⟩
  closes := List.Perm.refl _
  current _ hpage := absurd hpage List.not_mem_nil
  shown := ⟨rfl, rfl⟩

theorem browses_run {actions : List (BrowsingAction F E)}
    (hrun : Run (Step py localTime) mounted actions s) : Browses py localTime s :=
  hrun.invariant (fun _ action _ h hstep =>
    match action with
    | .act _ => h.act hstep
    | .receivePage _ => h.receivePage hstep) browses_mounted

theorem Step.pages {action : BrowsingAction F E} (hstep : Step py localTime s action t) :
    t.pages.map BrowsedPage.page = pagesAfter (s.pages.map BrowsedPage.page) action := by
  cases action with
  | act action =>
    obtain ⟨-, list, -, rfl⟩ := step_act hstep
    cases action with
    | chooseFilters result => cases result <;> rfl
    | buildConsumer result => cases result <;> rfl
    | _ => rfl
  | receivePage page =>
    simp only [Step, step] at hstep
    cases hs : s.call with
    | none => simp [hs] at hstep
    | some call =>
      rw [hs] at hstep
      obtain ⟨list, -, rfl⟩ := Option.map_eq_some_iff.mp hstep
      rw [List.map_append]
      rfl

theorem pages_run {actions : List (BrowsingAction F E)}
    (hrun : Run (Step py localTime) mounted actions s) :
    s.pages.map BrowsedPage.page = pagesSinceFilter actions := by
  induction hrun with
  | nil => rfl
  | snoc _ hlast ih => rw [hlast.pages, ih, pagesSinceFilter, pagesSinceFilter, List.foldl_concat]

/-- After every run of the screen there is a worker exactly while `_is_consuming` is set, and never a
second one. The pages that came since the last change of the filters are all of the consumer and the
filters in use, and the records, the rows and the tooltips of the table are what these pages show. -/
theorem shows_current_pages {actions : List (BrowsingAction F E)}
    (hrun : Run (Step py localTime) mounted actions s) :
    s.list.workers.length = (if s.list.isConsuming then 1 else 0) ∧
      s.pages.map BrowsedPage.page = pagesSinceFilter actions ∧
      (∀ page ∈ s.pages, page.consumer = s.current ∧ page.filters = s.list.filters) ∧
      s.shown.records = (showPages py localTime (pagesSinceFilter actions)).records ∧
      s.shown.table = (showPages py localTime (pagesSinceFilter actions)).table := by
  have h := browses_run hrun
  have hpages := pages_run hrun
  obtain ⟨worker, hworker⟩ := h.worker
  obtain ⟨hrecords, htable⟩ := h.shown
  rw [hpages] at hrecords htable
  refine ⟨?_, hpages, h.current, hrecords, htable⟩
  rw [hworker.one.workers, hworker.one.consuming]
  cases worker with
  | none => rfl
  | some at_ => rfl

def refiltered : List (BrowsingAction FloatRepr Empty) :=
  [.act .callConsume, .receivePage (.ok [ListRecords.redelivered]), .act .filter,
    .act (.chooseFilters (some {})), .act (.buildConsumer (.ok ())), .act (.closePrevious {} (.ok ())),
    .act .callConsume, .receivePage (.ok [ListRecords.redelivered])]

theorem refiltered_shows_once :
    ∃ s : RecordBrowsing FloatRepr Empty,
      s.shown.records.length = 1 ∧ s.shown.records =
        (showPages Interpreter.plain (fun _ => .ok []) (pagesSinceFilter refiltered)).records := by
  have hrun : Run (Step Interpreter.plain (fun _ => .ok [])) mounted refiltered _ := .of_foldlM rfl
  exact ⟨_, rfl, (shows_current_pages hrun).2.2.2.1⟩

/-- After every run the consumers that were built are the one in use, the one that is closing and
those that were closed, each of them once; and a call of `consume()` that runs is on the one in
use. -/
theorem closes_consumers_once {actions : List (BrowsingAction F E)}
    (hrun : Run (Step py localTime) mounted actions s) :
    (s.closed ++ s.closing.toList ++ [s.current]).Perm (List.range s.built) ∧
      (∀ consumer filters, s.call = some (consumer, filters) →
        consumer = s.current ∧ s.closing = none) := by
  have h := browses_run hrun
  refine ⟨h.closes, fun consumer filters hcalled => ?_⟩
  obtain ⟨worker, hworker⟩ := h.worker
  have hcall := hworker.call
  rw [hcalled] at hcall
  split_ifs at hcall with hconsuming
  subst hconsuming
  have hclosing := hworker.closing
  rw [Option.some_inj, Prod.mk.injEq] at hcall
  exact ⟨hcall.1, by simpa using hclosing⟩

theorem refiltered_closes_first :
    ∃ s : RecordBrowsing FloatRepr Empty, s.built = 2 ∧ ([0] ++ [] ++ [1]).Perm (List.range s.built) := by
  have hrun : Run (Step Interpreter.plain (fun _ => .ok [])) mounted refiltered _ := .of_foldlM rfl
  exact ⟨_, rfl, (closes_consumers_once hrun).1⟩

end RecordBrowsing

end Kaskade
