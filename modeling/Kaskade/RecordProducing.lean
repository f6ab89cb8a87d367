import Kaskade.HeaderDrafts
import Kaskade.ProducerDelivery
import Kaskade.Runs

/-!
# Producing records from the composer

The workers of `RecordComposer`: the look-up of schemas, of which a later one cancels an earlier one,
and the delivery of a record, while the draft is edited and produced again at any time. The steps are
those between two `await`s of the event loop, and the ends of the blocking calls.
-/

namespace Kaskade

open Python

inductive ComposerField where
  | key
  | value
  deriving DecidableEq

namespace ComposerField

def fields : List ComposerField := [.key, .value]

def later : ComposerField → List ComposerField
  | .key => [.value]
  | .value => []

end ComposerField

inductive LookupPhase where
  /-- It has not run yet. -/
  | created
  /-- A thread runs `serializer.resolve`. -/
  | calling (field : ComposerField)
  /-- The thread has ended, and may have raised. -/
  | called (field : ComposerField) (raised : Option PyException)

def LookupPhase.stepsLeft : LookupPhase → ℕ
  | .created => 7
  | .calling .key => 6
  | .called .key _ => 5
  | .calling .value => 4
  | .called .value _ => 3

/-- A worker of `resolve_schemas`. -/
structure LookupWorker where
  produce : Bool
  phase : LookupPhase := .created
  cancelled : Bool := false

/-- A worker of `produce`, which may wait for the service. -/
structure DeliveryWorker where
  record : OutgoingRecord
  awaiting : Bool := false

def DeliveryWorker.stepsLeft (worker : DeliveryWorker) : ℕ := if worker.awaiting then 1 else 2

/-- What became of a press of the produce key. -/
inductive PressEnd where
  /-- A record was being produced. -/
  | ignored
  | produced (record : OutgoingRecord)
  | revealed (problem : Problem)
  | raised (e : PyException)
  /-- Another press cancelled its look-up. -/
  | replaced

/-- A composer, its workers, the lock of its service, and what became of each press. -/
structure ComposerRun (F E : Type) where
  draft : RecordComposer F E
  needsSchema : ComposerField → Bool
  isProducing : Bool := false
  isResolving : Bool := false
  lookups : List LookupWorker := []
  deliveries : List DeliveryWorker := []
  delivering : Bool := false
  presses : ℕ := 0
  ends : List PressEnd := []
  /-- What was told of the records that were produced. -/
  results : List (OutgoingRecord × Except ProduceException Delivery) := []
  /-- How often the service raised `DeliveryInProgressError`. -/
  refusals : ℕ := 0

inductive ComposerEvent (F E : Type) where
  | press
  | edit (draft : RecordComposer F E)
  | startLookup (index : ℕ)
  /-- The thread of a look-up ends: with a serializer and whether it has a schema, or an exception. -/
  | endCall (index : ℕ) (outcome : Except PyException (FieldSerializer F E × Bool))
  | resumeLookup (index : ℕ)
  | startDelivery (index : ℕ)
  | endDelivery (index : ℕ) (outcome : Except ProduceException Delivery)

/-- An event that neither the user nor the draft brings about. -/
def ComposerEvent.isInternal {F E : Type} : ComposerEvent F E → Bool
  | .press | .edit _ => false
  | _ => true

def RecordComposer.setSerializer {F E : Type} (draft : RecordComposer F E) (field : ComposerField)
    (serializer : FieldSerializer F E) : RecordComposer F E :=
  match field with
  | .key => { draft with key := { draft.key with serializer := serializer } }
  | .value => { draft with value := { draft.value with serializer := serializer } }

namespace LookupWorker

def isCreated (worker : LookupWorker) : Bool :=
  match worker.phase with
  | .created => true
  | _ => false

/-- What cancelling leaves of a worker. One that has run waits for its thread, once. -/
def cancel (worker : LookupWorker) : Option LookupWorker :=
  if worker.isCreated || worker.cancelled then none else some { worker with cancelled := true }

end LookupWorker

namespace ComposerRun

variable {F E : Type} (s : ComposerRun F E)

def needsAnySchema : Bool := ComposerField.fields.any s.needsSchema

def endPress (result : PressEnd) : ComposerRun F E := { s with ends := s.ends ++ [result] }

def produceDraft : ComposerRun F E :=
  if s.isProducing then s.endPress .ignored
  else
    match s.draft.outgoingRecord with
    | .ok (.record record) =>
      { s.endPress (.produced record) with
        isProducing := true
        deliveries := s.deliveries ++ [{ record := record }] }
    | .ok (.invalidHeader problem) => s.endPress (.revealed problem)
    | .ok (.invalidField problem) => s.endPress (.revealed problem)
    | .error e => s.endPress (.raised e)

/-- `resolve_schemas(produce=...)`: a new worker, which is exclusive. -/
def resolveSchemas (produce : Bool) : ComposerRun F E :=
  let replaced := s.lookups.countP fun worker => worker.produce && !worker.cancelled
  let stopped := s.lookups.any fun worker => !worker.isCreated && worker.cancelled
  { s with
    lookups := s.lookups.filterMap LookupWorker.cancel ++ [{ produce := produce }]
    isResolving := s.isResolving && !stopped
    ends := s.ends ++ List.replicate replaced .replaced }

def actionProduce : ComposerRun F E :=
  let s := { s with presses := s.presses + 1 }
  if s.isProducing then s.endPress .ignored
  else if s.needsAnySchema && !s.isResolving then s.resolveSchemas true
  else s.produceDraft

def mounted (draft : RecordComposer F E) (needsSchema : ComposerField → Bool) : ComposerRun F E :=
  let s : ComposerRun F E := { draft := draft, needsSchema := needsSchema }
  if s.needsAnySchema then s.resolveSchemas false else s

/-- The `finally` of `resolve_schemas`, with the worker at an end. -/
def leaveLookup (index : ℕ) : ComposerRun F E :=
  { s with lookups := s.lookups.eraseIdx index, isResolving := false }

/-- The loop of `resolve_schemas` over the fields that are left, and what follows it. -/
def lookUp (index : ℕ) (worker : LookupWorker) (fields : List ComposerField) : ComposerRun F E :=
  match fields.find? s.needsSchema with
  | some field => { s with lookups := s.lookups.set index { worker with phase := .calling field } }
  | none =>
    let s := s.leaveLookup index
    if worker.produce then s.produceDraft else s

def resumeLookup (index : ℕ) (worker : LookupWorker) (field : ComposerField)
    (raised : Option PyException) : ComposerRun F E :=
  if worker.cancelled then s.leaveLookup index
  else
    match raised with
    | none => s.lookUp index worker field.later
    | some e =>
      let s := s.leaveLookup index
      if worker.produce then s.endPress (.raised e) else s

/-- The thread of a look-up changes the serializer before its worker resumes. -/
def endCall (index : ℕ) (worker : LookupWorker) (field : ComposerField) :
    Except PyException (FieldSerializer F E × Bool) → ComposerRun F E
  | .ok (serializer, hasSchema) =>
    { s with
      draft := s.draft.setSerializer field serializer
      needsSchema := Function.update s.needsSchema field (!hasSchema)
      lookups := s.lookups.set index { worker with phase := .called field none } }
  | .error e =>
    { s with lookups := s.lookups.set index { worker with phase := .called field (some e) } }

/-- `produce` up to the call of the service, which refuses a second record. -/
def startDelivery (index : ℕ) (worker : DeliveryWorker) : ComposerRun F E :=
  if s.delivering then
    { s with
      refusals := s.refusals + 1
      isProducing := false
      deliveries := s.deliveries.eraseIdx index }
  else
    { s with
      delivering := true
      deliveries := s.deliveries.set index { worker with awaiting := true } }

/-- The rest of `produce`. -/
def endDelivery (index : ℕ) (worker : DeliveryWorker)
    (outcome : Except ProduceException Delivery) : ComposerRun F E :=
  { s with
    delivering := false
    isProducing := false
    deliveries := s.deliveries.eraseIdx index
    results := s.results ++ [(worker.record, outcome)] }

def step : ComposerEvent F E → Option (ComposerRun F E)
  | .press => some s.actionProduce
  | .edit draft => some { s with draft := draft }
  | .startLookup index =>
    match s.lookups[index]? with
    | some worker =>
      if worker.isCreated then
        some ({ s with isResolving := true }.lookUp index worker ComposerField.fields)
      else none
    | none => none
  | .endCall index outcome =>
    match s.lookups[index]? with
    | some worker =>
      match worker.phase with
      | .calling field => some (s.endCall index worker field outcome)
      | _ => none
    | none => none
  | .resumeLookup index =>
    match s.lookups[index]? with
    | some worker =>
      match worker.phase with
      | .called field raised => some (s.resumeLookup index worker field raised)
      | _ => none
    | none => none
  | .startDelivery index =>
    match s.deliveries[index]? with
    | some worker => if worker.awaiting then none else some (s.startDelivery index worker)
    | none => none
  | .endDelivery index outcome =>
    match s.deliveries[index]? with
    | some worker => if worker.awaiting then some (s.endDelivery index worker outcome) else none
    | none => none

def Step (s : ComposerRun F E) (event : ComposerEvent F E) (t : ComposerRun F E) : Prop :=
  s.step event = some t

def producedRecords (ends : List PressEnd) : List OutgoingRecord :=
  ends.filterMap fun result =>
    match result with
    | .produced record => some record
    | _ => none

/-- There is a look-up at most, which is not cancelled. -/
inductive LookupState : List LookupWorker → Bool → Prop where
  | none : LookupState [] false
  | created (produce : Bool) : LookupState [{ produce := produce }] false
  | calling (produce : Bool) (field : ComposerField) :
      LookupState [{ produce := produce, phase := .calling field }] true
  | called (produce : Bool) (field : ComposerField) (raised : Option PyException) :
      LookupState [{ produce := produce, phase := .called field raised }] true

/-- There is a delivery at most, which holds the lock while it waits for the service. -/
inductive DeliveryState : List DeliveryWorker → Bool → Bool → Prop where
  | none : DeliveryState [] false false
  | one (worker : DeliveryWorker) : DeliveryState [worker] true worker.awaiting

/-- The deliveries and their flags agree, and so many presses have no end and no look-up that ends
them. -/
structure Accounted (unended : ℕ) (s : ComposerRun F E) : Prop where
  deliveries : DeliveryState s.deliveries s.isProducing s.delivering
  refusals : s.refusals = 0
  presses : s.ends.length + s.lookups.countP (·.produce) + unended = s.presses
  produced : producedRecords s.ends = s.results.map (·.1) ++ s.deliveries.map (·.record)

/-- The look-up and its flag agree, too. -/
structure Tidy (unended : ℕ) (s : ComposerRun F E) : Prop extends Accounted unended s where
  lookups : LookupState s.lookups s.isResolving

variable {s t : ComposerRun F E} {unended : ℕ}

theorem producedRecords_append (ends later : List PressEnd) :
    producedRecords (ends ++ later) = producedRecords ends ++ producedRecords later :=
  List.filterMap_append

theorem producedRecords_replaced (n : ℕ) :
    producedRecords (List.replicate n .replaced) = [] := by
  rw [producedRecords, List.filterMap_replicate]

theorem Tidy.endPress (h : Tidy (unended + 1) s) {result : PressEnd}
    (hresult : producedRecords [result] = []) : Tidy unended (s.endPress result) where
  lookups := h.lookups
  deliveries := h.deliveries
  refusals := h.refusals
  presses := by
    have hpresses := h.presses
    simp only [ComposerRun.endPress, List.length_append, List.length_singleton]
    omega
  produced := by
    rw [ComposerRun.endPress, producedRecords_append, hresult, List.append_nil]
    exact h.produced

theorem Tidy.produceDraft (h : Tidy (unended + 1) s) : Tidy unended s.produceDraft := by
  rw [ComposerRun.produceDraft]
  by_cases hproducing : s.isProducing = true
  · rw [if_pos hproducing]
    exact h.endPress rfl
  · rw [if_neg hproducing]
    split
    · rename_i record _
      have hdeliveries := h.deliveries
      generalize hlist : s.deliveries = deliveries at hdeliveries
      generalize hflag : s.isProducing = isProducing at hdeliveries hproducing
      generalize hlock : s.delivering = delivering at hdeliveries
      cases hdeliveries with
      | one worker => exact absurd rfl hproducing
      | none =>
        refine ⟨⟨?_, h.refusals, ?_, ?_⟩, h.lookups⟩
        · simp only [hlist, List.nil_append, ComposerRun.endPress, hlock]
          exact .one { record := record }
        · have hpresses := h.presses
          simp only [ComposerRun.endPress, List.length_append, List.length_singleton]
          omega
        · have hproduced := h.produced
          rw [hlist, List.map_nil, List.append_nil] at hproduced
          simp only [ComposerRun.endPress, producedRecords_append, hproduced, hlist]
          rfl
    · exact h.endPress rfl
    · exact h.endPress rfl
    · exact h.endPress rfl

/-- A look-up that begins replaces one that has not run. -/
theorem Tidy.resolveSchemas (h : Tidy (unended + 1) s) (hresolving : s.isResolving = false) :
    Tidy unended (s.resolveSchemas true) := by
  have hlookups := h.lookups
  have hpresses := h.presses
  generalize hlist : s.lookups = lookups at hlookups hpresses
  rw [hresolving] at hlookups
  cases hlookups with
  | none =>
    simp only [ComposerRun.resolveSchemas, hlist, hresolving]
    refine ⟨⟨h.deliveries, h.refusals, ?_, ?_⟩, .created true⟩
    · simp at hpresses ⊢
      omega
    · simpa using h.produced
  | created produce =>
    have hdropped : [({ produce := produce } : LookupWorker)].filterMap LookupWorker.cancel = [] := rfl
    simp only [ComposerRun.resolveSchemas, hlist, hresolving, hdropped]
    refine ⟨⟨h.deliveries, h.refusals, ?_, ?_⟩, .created true⟩
    · cases produce <;> simp at hpresses ⊢ <;> omega
    · rw [producedRecords_append, producedRecords_replaced, List.append_nil]
      exact h.produced

theorem Tidy.actionProduce (h : Tidy unended s) : Tidy unended s.actionProduce := by
  have hpressed : Tidy (unended + 1) { s with presses := s.presses + 1 } := by
    refine ⟨⟨h.deliveries, h.refusals, ?_, h.produced⟩, h.lookups⟩
    have hpresses := h.presses
    dsimp only
    omega
  rw [ComposerRun.actionProduce]
  split_ifs with hproducing hneeds
  · exact hpressed.endPress rfl
  · simp only [Bool.and_eq_true, Bool.not_eq_true'] at hneeds
    exact hpressed.resolveSchemas hneeds.2
  · exact hpressed.produceDraft

/-- What remains once the only look-up is at an end. -/
theorem Accounted.leaveLookup {worker : LookupWorker} (h : Accounted unended s)
    (hlist : s.lookups = [worker]) : Tidy (unended + worker.produce.toNat) (s.leaveLookup 0) where
  lookups := by
    rw [ComposerRun.leaveLookup, hlist]
    exact .none
  deliveries := h.deliveries
  refusals := h.refusals
  presses := by
    have hpresses := h.presses
    rw [hlist] at hpresses
    simp only [ComposerRun.leaveLookup, hlist, List.eraseIdx_cons_zero, List.countP_nil]
    cases hproduce : worker.produce <;> simp [hproduce] at hpresses ⊢ <;> omega
  produced := h.produced

/-- The look-up goes on with the fields that are left, or ends. -/
theorem Accounted.lookUp {worker : LookupWorker} (h : Accounted unended s)
    (hlist : s.lookups = [worker]) (hcancelled : worker.cancelled = false)
    (hresolving : s.isResolving = true) (fields : List ComposerField) :
    Tidy unended (s.lookUp 0 worker fields) := by
  rw [ComposerRun.lookUp]
  split
  · rename_i field _
    have hset : s.lookups.set 0 { worker with phase := .calling field } =
        [{ produce := worker.produce, phase := .calling field }] := by
      rw [hlist, List.set_cons_zero, hcancelled]
    refine ⟨⟨h.deliveries, h.refusals, ?_, h.produced⟩, ?_⟩
    · have hpresses := h.presses
      rw [hlist] at hpresses
      simp only [hset]
      simpa using hpresses
    · simp only [hset, hresolving]
      exact .calling worker.produce field
  · have hleft := h.leaveLookup hlist
    cases hproduce : worker.produce with
    | false =>
      rw [hproduce] at hleft
      exact hleft
    | true =>
      rw [hproduce] at hleft
      exact hleft.produceDraft

theorem LookupState.worker {lookups : List LookupWorker} {resolving : Bool}
    (h : LookupState lookups resolving) {index : ℕ} {worker : LookupWorker}
    (hworker : lookups[index]? = some worker) :
    index = 0 ∧ lookups = [worker] ∧ worker.cancelled = false ∧ resolving = !worker.isCreated := by
  have hbound := (List.getElem?_eq_some_iff.mp hworker).1
  cases h with
  | none => exact absurd hbound (Nat.not_lt_zero index)
  | created produce | calling produce field | called produce field raised =>
    obtain rfl := Nat.lt_one_iff.mp hbound
    cases hworker
    exact ⟨rfl, rfl, rfl, rfl⟩

theorem DeliveryState.worker {deliveries : List DeliveryWorker} {producing delivering : Bool}
    (h : DeliveryState deliveries producing delivering) {index : ℕ} {worker : DeliveryWorker}
    (hworker : deliveries[index]? = some worker) :
    index = 0 ∧ deliveries = [worker] ∧ producing = true ∧ delivering = worker.awaiting := by
  have hbound := (List.getElem?_eq_some_iff.mp hworker).1
  cases h with
  | none => exact absurd hbound (Nat.not_lt_zero index)
  | one =>
    obtain rfl := Nat.lt_one_iff.mp hbound
    cases hworker
    exact ⟨rfl, rfl, rfl, rfl⟩

/-- The events of the workers, with the worker that takes its next step. -/
inductive WorkerEffect (s : ComposerRun F E) : ComposerEvent F E → ComposerRun F E → Prop where
  | startLookup (worker : LookupWorker) (hlist : s.lookups = [worker])
      (hcreated : worker.phase = .created) :
      WorkerEffect s (.startLookup 0)
        ({ s with isResolving := true }.lookUp 0 worker ComposerField.fields)
  | endCall (worker : LookupWorker) (hlist : s.lookups = [worker]) (field : ComposerField)
      (hphase : worker.phase = .calling field)
      (outcome : Except PyException (FieldSerializer F E × Bool)) :
      WorkerEffect s (.endCall 0 outcome) (s.endCall 0 worker field outcome)
  | resumeLookup (worker : LookupWorker) (hlist : s.lookups = [worker]) (field : ComposerField)
      (raised : Option PyException) (hphase : worker.phase = .called field raised) :
      WorkerEffect s (.resumeLookup 0) (s.resumeLookup 0 worker field raised)
  | startDelivery (worker : DeliveryWorker) (hlist : s.deliveries = [worker])
      (hwaits : worker.awaiting = false) :
      WorkerEffect s (.startDelivery 0)
        { s with delivering := true, deliveries := [{ worker with awaiting := true }] }
  | endDelivery (worker : DeliveryWorker) (hlist : s.deliveries = [worker])
      (hwaits : worker.awaiting = true) (outcome : Except ProduceException Delivery) :
      WorkerEffect s (.endDelivery 0 outcome) (s.endDelivery 0 worker outcome)

theorem step_effect {event : ComposerEvent F E} (h : Tidy unended s) (hstep : s.step event = some t)
    (hevent : event.isInternal = true) : WorkerEffect s event t := by
  cases event with
  | press => cases hevent
  | edit draft => cases hevent
  | startLookup index =>
    simp only [step] at hstep
    split at hstep
    · rename_i worker hworker
      obtain ⟨rfl, hlist, -, -⟩ := h.lookups.worker hworker
      split_ifs at hstep with hcreated
      cases hstep
      refine .startLookup worker hlist ?_
      rw [LookupWorker.isCreated] at hcreated
      split at hcreated
      · assumption
      · cases hcreated
    · cases hstep
  | endCall index outcome =>
    simp only [step] at hstep
    split at hstep
    · rename_i worker hworker
      obtain ⟨rfl, hlist, -, -⟩ := h.lookups.worker hworker
      split at hstep
      · rename_i field hphase
        cases hstep
        exact .endCall worker hlist field hphase outcome
      · cases hstep
    · cases hstep
  | resumeLookup index =>
    simp only [step] at hstep
    split at hstep
    · rename_i worker hworker
      obtain ⟨rfl, hlist, -, -⟩ := h.lookups.worker hworker
      split at hstep
      · rename_i field raised hphase
        cases hstep
        exact .resumeLookup worker hlist field raised hphase
      · cases hstep
    · cases hstep
  | startDelivery index =>
    simp only [step] at hstep
    split at hstep
    · rename_i worker hworker
      obtain ⟨rfl, hlist, -, hlock⟩ := h.deliveries.worker hworker
      split_ifs at hstep with hwaits
      cases hstep
      rw [Bool.not_eq_true] at hwaits
      rw [hwaits] at hlock
      have hnext : s.startDelivery 0 worker =
          { s with delivering := true, deliveries := [{ worker with awaiting := true }] } := by
        simp only [ComposerRun.startDelivery, hlock, hlist, List.set_cons_zero]
        rfl
      rw [hnext]
      exact .startDelivery worker hlist hwaits
    · cases hstep
  | endDelivery index outcome =>
    simp only [step] at hstep
    split at hstep
    · rename_i worker hworker
      obtain ⟨rfl, hlist, -, -⟩ := h.deliveries.worker hworker
      split_ifs at hstep with hwaits
      cases hstep
      exact .endDelivery worker hlist hwaits outcome
    · cases hstep

theorem Tidy.worker {event : ComposerEvent F E} (h : Tidy unended s)
    (heffect : WorkerEffect s event t) : Tidy unended t := by
  cases heffect with
  | startLookup worker hlist hcreated =>
    have hworker : s.lookups[0]? = some worker := by rw [hlist]; rfl
    obtain ⟨-, -, hcancelled, -⟩ := h.lookups.worker hworker
    have hstarted : Accounted unended { s with isResolving := true } :=
      ⟨h.deliveries, h.refusals, h.presses, h.produced⟩
    exact hstarted.lookUp hlist hcancelled rfl _
  | endCall worker hlist field hphase outcome =>
    have hworker : s.lookups[0]? = some worker := by rw [hlist]; rfl
    obtain ⟨-, -, hcancelled, hresolving⟩ := h.lookups.worker hworker
    have hpresses := h.presses
    rw [LookupWorker.isCreated, hphase] at hresolving
    rw [hlist] at hpresses
    cases outcome with
    | ok outcome =>
      refine ⟨⟨h.deliveries, h.refusals, ?_, h.produced⟩, ?_⟩
      · simpa [ComposerRun.endCall, hlist] using hpresses
      · simp only [ComposerRun.endCall, hlist, List.set_cons_zero, hcancelled, hresolving]
        exact .called worker.produce field none
    | error e =>
      refine ⟨⟨h.deliveries, h.refusals, ?_, h.produced⟩, ?_⟩
      · simpa [ComposerRun.endCall, hlist] using hpresses
      · simp only [ComposerRun.endCall, hlist, List.set_cons_zero, hcancelled, hresolving]
        exact .called worker.produce field (some e)
  | resumeLookup worker hlist field raised hphase =>
    have hworker : s.lookups[0]? = some worker := by rw [hlist]; rfl
    obtain ⟨-, -, hcancelled, hresolving⟩ := h.lookups.worker hworker
    rw [LookupWorker.isCreated, hphase] at hresolving
    cases raised with
    | none =>
      rw [ComposerRun.resumeLookup, hcancelled, if_neg Bool.false_ne_true]
      exact h.toAccounted.lookUp hlist hcancelled hresolving _
    | some e =>
      rw [ComposerRun.resumeLookup, hcancelled, if_neg Bool.false_ne_true]
      have hleft := h.toAccounted.leaveLookup hlist
      cases hproduce : worker.produce with
      | false =>
        rw [hproduce] at hleft
        exact hleft
      | true =>
        rw [hproduce] at hleft
        exact hleft.endPress rfl
  | startDelivery worker hlist hwaits =>
    have hworker : s.deliveries[0]? = some worker := by rw [hlist]; rfl
    obtain ⟨-, -, hproducing, -⟩ := h.deliveries.worker hworker
    refine ⟨⟨?_, h.refusals, h.presses, ?_⟩, h.lookups⟩
    · simp only [hproducing]
      exact .one { worker with awaiting := true }
    · have hproduced := h.produced
      rw [hlist] at hproduced
      exact hproduced
  | endDelivery worker hlist hwaits outcome =>
    refine ⟨⟨?_, h.refusals, h.presses, ?_⟩, h.lookups⟩
    · simp only [ComposerRun.endDelivery, hlist, List.eraseIdx_cons_zero]
      exact .none
    · have hproduced := h.produced
      rw [hlist] at hproduced
      simpa [ComposerRun.endDelivery, hlist] using hproduced

theorem Tidy.step {event : ComposerEvent F E} (h : Tidy unended s) (hstep : Step s event t) :
    Tidy unended t := by
  cases event with
  | press =>
    cases hstep
    exact h.actionProduce
  | edit draft =>
    cases hstep
    exact ⟨⟨h.deliveries, h.refusals, h.presses, h.produced⟩, h.lookups⟩
  | startLookup index => exact h.worker (step_effect h hstep rfl)
  | endCall index outcome => exact h.worker (step_effect h hstep rfl)
  | resumeLookup index => exact h.worker (step_effect h hstep rfl)
  | startDelivery index => exact h.worker (step_effect h hstep rfl)
  | endDelivery index outcome => exact h.worker (step_effect h hstep rfl)

theorem tidy_mounted (draft : RecordComposer F E) (needsSchema : ComposerField → Bool) :
    Tidy 0 (mounted draft needsSchema) := by
  rw [mounted]
  split_ifs
  · exact ⟨⟨.none, rfl, rfl, rfl⟩, .created false⟩
  · exact ⟨⟨.none, rfl, rfl, rfl⟩, .none⟩

theorem tidy_of_run {draft : RecordComposer F E} {needsSchema : ComposerField → Bool}
    {events : List (ComposerEvent F E)} (hrun : Run Step (mounted draft needsSchema) events s) :
    Tidy 0 s :=
  hrun.invariant (fun _ _ _ h hstep => h.step hstep) (tidy_mounted draft needsSchema)

/-- In every run, the service never refuses a record: at most one is being delivered, exactly while
`is_producing` is set, and at most one look-up runs, exactly while `is_resolving` is set. Each press has
one end or waits for its look-up, and each record that a press produces gets one result, in order. -/
theorem one_record_at_a_time {draft : RecordComposer F E} {needsSchema : ComposerField → Bool}
    {events : List (ComposerEvent F E)} (hrun : Run Step (mounted draft needsSchema) events s) :
    s.refusals = 0 ∧ s.deliveries.length = s.isProducing.toNat ∧
      (s.delivering = true ↔ ∃ worker ∈ s.deliveries, worker.awaiting = true) ∧
      s.lookups.length ≤ 1 ∧ (∀ worker ∈ s.lookups, worker.cancelled = false) ∧
      (s.isResolving = true ↔ ∃ worker ∈ s.lookups, worker.isCreated = false) ∧
      s.ends.length + s.lookups.countP (·.produce) = s.presses ∧
      producedRecords s.ends = s.results.map (·.1) ++ s.deliveries.map (·.record) := by
  have h := tidy_of_run hrun
  have hdeliveries : s.deliveries.length = s.isProducing.toNat ∧
      (s.delivering = true ↔ ∃ worker ∈ s.deliveries, worker.awaiting = true) := by
    have hstate := h.deliveries
    generalize s.deliveries = deliveries at hstate
    generalize s.isProducing = producing at hstate
    generalize s.delivering = delivering at hstate
    cases hstate with
    | none => simp
    | one worker => simp
  have hlookups : s.lookups.length ≤ 1 ∧ (∀ worker ∈ s.lookups, worker.cancelled = false) ∧
      (s.isResolving = true ↔ ∃ worker ∈ s.lookups, worker.isCreated = false) := by
    have hstate := h.lookups
    generalize s.lookups = lookups at hstate
    generalize s.isResolving = resolving at hstate
    cases hstate with
    | none => simp
    | created produce => simp [LookupWorker.isCreated]
    | calling produce field => simp [LookupWorker.isCreated]
    | called produce field raised => simp [LookupWorker.isCreated]
  exact ⟨h.refusals, hdeliveries.1, hdeliveries.2, hlookups.1, hlookups.2.1, hlookups.2.2, h.presses,
    h.produced⟩

def lookedUp : List (ComposerEvent FloatRepr Empty) :=
  [.startLookup 0, .endCall 0 (.ok (RecordComposer.ofTexts.textSerializer, true)), .resumeLookup 0,
    .startDelivery 0]

def pressedTwice : List (ComposerEvent FloatRepr Empty) := .press :: lookedUp ++ [.press]

theorem pressedTwice_one_record :
    ∃ s, Run Step (mounted RecordComposer.ofTexts (· = .key)) pressedTwice s ∧ s.refusals = 0 ∧
      s.ends.length + s.lookups.countP (·.produce) = s.presses ∧ s.presses = 2 ∧
      s.deliveries.length = 1 := by
  obtain ⟨s, hrun, hpresses, hproducing⟩ : ∃ s, Run Step (mounted RecordComposer.ofTexts (· = .key))
      pressedTwice s ∧ s.presses = 2 ∧ s.isProducing = true := ⟨_, Run.of_foldlM rfl, rfl, rfl⟩
  obtain ⟨hrefusals, hdeliveries, -, -, -, -, hends, -⟩ := one_record_at_a_time hrun
  rw [hproducing] at hdeliveries
  exact ⟨s, hrun, hrefusals, hends, hpresses, hdeliveries⟩

def stepsLeft (s : ComposerRun F E) : ℕ :=
  (s.lookups.map (·.phase.stepsLeft)).sum + (s.deliveries.map (·.stepsLeft)).sum

theorem stepsLeft_produceDraft (s : ComposerRun F E) : s.produceDraft.stepsLeft ≤ s.stepsLeft + 2 := by
  rw [produceDraft]
  split_ifs
  · exact Nat.le_add_right _ 2
  · split
    · simp only [stepsLeft, endPress, List.map_append, List.sum_append]
      rfl
    · exact Nat.le_add_right _ 2
    · exact Nat.le_add_right _ 2
    · exact Nat.le_add_right _ 2

theorem stepsLeft_leaveLookup {worker : LookupWorker} (hlist : s.lookups = [worker]) :
    (s.leaveLookup 0).stepsLeft + worker.phase.stepsLeft = s.stepsLeft := by
  simp only [stepsLeft, leaveLookup, hlist, List.eraseIdx_cons_zero, List.map_cons, List.map_nil,
    List.sum_cons, List.sum_nil]
  omega

theorem stepsLeft_setPhase {worker : LookupWorker} (hlist : s.lookups = [worker])
    {phase : LookupPhase} (hphase : phase.stepsLeft < worker.phase.stepsLeft) :
    ((s.lookups.set 0 { worker with phase := phase }).map (·.phase.stepsLeft)).sum +
      (s.deliveries.map (·.stepsLeft)).sum < s.stepsLeft := by
  simp only [stepsLeft, hlist, List.set_cons_zero, List.map_cons, List.map_nil, List.sum_cons,
    List.sum_nil]
  omega

/-- A look-up goes on to a field that takes fewer steps, or ends. -/
theorem stepsLeft_lookUp {worker : LookupWorker} (hlist : s.lookups = [worker])
    {fields : List ComposerField}
    (hfields : ∀ field ∈ fields, (LookupPhase.calling field).stepsLeft < worker.phase.stepsLeft)
    (hends : 3 ≤ worker.phase.stepsLeft) : (s.lookUp 0 worker fields).stepsLeft < s.stepsLeft := by
  have hleft := stepsLeft_leaveLookup hlist
  rw [lookUp]
  split
  · rename_i field hfind
    exact stepsLeft_setPhase hlist (hfields field (List.mem_of_find?_eq_some hfind))
  · dsimp only
    split_ifs
    · have hproduced := stepsLeft_produceDraft (s.leaveLookup 0)
      omega
    · omega

/-- Every step of a worker brings it nearer to its end. -/
theorem WorkerEffect.stepsLeft {event : ComposerEvent F E} (heffect : WorkerEffect s event t) :
    t.stepsLeft < s.stepsLeft := by
  cases heffect with
  | startLookup worker hlist hcreated =>
    refine stepsLeft_lookUp (s := { s with isResolving := true }) hlist (fun field _ => ?_) ?_
    · rw [hcreated]
      cases field <;> decide
    · rw [hcreated]
      decide
  | endCall worker hlist field hphase outcome =>
    cases outcome with
    | ok outcome =>
      refine stepsLeft_setPhase hlist ?_
      rw [hphase]
      cases field <;> exact Nat.lt_succ_self _
    | error e =>
      refine stepsLeft_setPhase hlist ?_
      rw [hphase]
      cases field <;> exact Nat.lt_succ_self _
  | resumeLookup worker hlist field raised hphase =>
    have hends : 3 ≤ worker.phase.stepsLeft := by
      rw [hphase]
      cases field with
      | key => exact Nat.le_add_left 3 2
      | value => exact Nat.le_refl 3
    have hleft := stepsLeft_leaveLookup hlist
    cases hcancelled : worker.cancelled with
    | true =>
      rw [ComposerRun.resumeLookup.eq_def, hcancelled, if_pos rfl]
      omega
    | false =>
      rw [ComposerRun.resumeLookup.eq_def, hcancelled, if_neg Bool.false_ne_true]
      cases raised with
      | none =>
        refine stepsLeft_lookUp hlist (fun later hlater => ?_) hends
        rw [hphase]
        cases field with
        | key =>
          obtain rfl := List.mem_singleton.mp hlater
          decide
        | value => cases hlater
      | some e =>
        dsimp only
        split_ifs
        · exact (show (s.leaveLookup 0).stepsLeft < s.stepsLeft by omega)
        · omega
  | startDelivery worker hlist hwaits =>
    simp [ComposerRun.stepsLeft, hlist, DeliveryWorker.stepsLeft, hwaits]
  | endDelivery worker hlist hwaits outcome =>
    simp [ComposerRun.stepsLeft, ComposerRun.endDelivery, hlist, DeliveryWorker.stepsLeft, hwaits]

theorem Tidy.stepsLeft_le (h : Tidy unended s) : s.stepsLeft ≤ 9 := by
  have hphase : ∀ phase : LookupPhase, phase.stepsLeft ≤ 7 := by
    intro phase
    rw [LookupPhase.stepsLeft.eq_def]
    split <;> omega
  have hlookups : (s.lookups.map (·.phase.stepsLeft)).sum ≤ 7 := by
    have hstate := h.lookups
    generalize s.lookups = lookups at hstate
    generalize s.isResolving = resolving at hstate
    cases hstate with
    | none => exact Nat.zero_le 7
    | created produce => exact hphase .created
    | calling produce field => exact hphase (.calling field)
    | called produce field raised => exact hphase (.called field raised)
  have hdeliveries : (s.deliveries.map (·.stepsLeft)).sum ≤ 2 := by
    have hstate := h.deliveries
    generalize s.deliveries = deliveries at hstate
    generalize s.isProducing = producing at hstate
    generalize s.delivering = delivering at hstate
    cases hstate with
    | none => exact Nat.zero_le 2
    | one worker =>
      simp only [List.map_cons, List.map_nil, List.sum_cons, List.sum_nil, DeliveryWorker.stepsLeft]
      split_ifs <;> omega
  exact Nat.add_le_add hlookups hdeliveries

def Idle (s : ComposerRun F E) : Prop :=
  s.lookups = [] ∧ s.deliveries = [] ∧ s.isResolving = false ∧ s.isProducing = false ∧
    s.delivering = false

/-- As long as the composer is not idle, a worker can take a step. -/
theorem Tidy.progress (h : Tidy unended s) (hidle : ¬s.Idle) :
    ∃ event, event.isInternal = true ∧ (s.step event).isSome = true := by
  have hlookups := h.lookups
  have hdeliveries := h.deliveries
  generalize hlist : s.lookups = lookups at hlookups
  generalize hresolving : s.isResolving = resolving at hlookups
  cases hlookups with
  | created produce =>
    refine ⟨.startLookup 0, rfl, ?_⟩
    rw [ComposerRun.step, hlist]
    rfl
  | calling produce field =>
    refine ⟨.endCall 0 (.error ⟨.valueError, []⟩), rfl, ?_⟩
    rw [ComposerRun.step, hlist]
    rfl
  | called produce field raised =>
    refine ⟨.resumeLookup 0, rfl, ?_⟩
    rw [ComposerRun.step, hlist]
    rfl
  | none =>
    generalize hwaiting : s.deliveries = deliveries at hdeliveries
    generalize hproducing : s.isProducing = producing at hdeliveries
    generalize hlock : s.delivering = delivering at hdeliveries
    cases hdeliveries with
    | none => exact absurd ⟨hlist, hwaiting, hresolving, hproducing, hlock⟩ hidle
    | one worker =>
      by_cases hawaits : worker.awaiting = true
      · refine ⟨.endDelivery 0 (.error (.deliveryError .timeout [])), rfl, ?_⟩
        simp [ComposerRun.step, hwaiting, hawaits]
      · refine ⟨.startDelivery 0, rfl, ?_⟩
        simp [ComposerRun.step, hwaiting, hawaits]

/-- Whatever the registry and the broker answer and in whatever order, the workers of a reachable
composer take nine steps at most, and when they can take no more, the composer is idle. -/
theorem comes_to_rest {draft : RecordComposer F E} {needsSchema : ComposerField → Bool}
    {events later : List (ComposerEvent F E)} (hrun : Run Step (mounted draft needsSchema) events s)
    (hlater : Run Step s later t) (hinternal : ∀ event ∈ later, event.isInternal = true) :
    later.length ≤ 9 ∧ ((∀ event u, event.isInternal = true → ¬Step t event u) → t.Idle) := by
  have h := tidy_of_run hrun
  have hsteps : later.length + t.stepsLeft ≤ s.stepsLeft ∧ Tidy 0 t := by
    induction hlater with
    | nil => exact ⟨Nat.le_of_eq (Nat.zero_add _), h⟩
    | @snoc later t u event _ hlast ih =>
      obtain ⟨hleft, htidy⟩ := ih fun event hmem => hinternal event (List.mem_append_left _ hmem)
      have hevent := hinternal event (List.mem_append_right _ List.mem_cons_self)
      have hnearer := (step_effect htidy hlast hevent).stepsLeft
      rw [List.length_append, List.length_singleton]
      exact ⟨by omega, htidy.step hlast⟩
  have hbound := h.stepsLeft_le
  refine ⟨by omega, fun hstuck => ?_⟩
  by_contra hidle
  obtain ⟨event, hevent, hsome⟩ := hsteps.2.progress hidle
  obtain ⟨u, hstep⟩ := Option.isSome_iff_exists.mp hsome
  exact hstuck event u hevent hstep

theorem lookedUp_rests :
    ∃ s t, Run Step (mounted RecordComposer.ofTexts (· = .key)) [.press] s ∧
      Run Step s (lookedUp ++ [.endDelivery 0 (.error (.deliveryError .timeout []))]) t ∧
      ((∀ event u, event.isInternal = true → ¬Step t event u) → t.Idle) := by
  obtain ⟨s, t, hrun, hlater⟩ : ∃ s t, Run Step (mounted RecordComposer.ofTexts (· = .key)) [.press] s ∧
      Run Step s (lookedUp ++ [.endDelivery 0 (.error (.deliveryError .timeout []))]) t :=
    ⟨_, _, Run.of_foldlM rfl, Run.of_foldlM rfl⟩
  refine ⟨s, t, hrun, hlater, (comes_to_rest hrun hlater fun event hmem => ?_).2⟩
  simp only [lookedUp, List.cons_append, List.nil_append, List.mem_cons, List.not_mem_nil, or_false]
    at hmem
  rcases hmem with rfl | rfl | rfl | rfl | rfl <;> rfl

end ComposerRun

end Kaskade
