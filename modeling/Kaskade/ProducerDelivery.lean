import Kaskade.BlockingCalls
import Kaskade.ConsumerRecords

/-!
# Delivery of a record

`ProducerService`, statement by statement: the coroutines of `produce`, the threads in which
`_produce` queues a record and waits for its acknowledgement, and the threads of `close`. The
client serves delivery reports, of any record that was ever queued and in any order, while it
polls or flushes.
-/

namespace Kaskade

open Python

/-- A message as a delivery report shows it; the timestamp is in milliseconds, if there is one. -/
structure ReportedMessage where
  partition : ℤ
  offset : ℤ
  timestamp : Option ℤ

structure Delivery where
  partition : ℤ
  offset : ℤ
  timestamp : Option UtcDateTime

inductive DeliveryFailure where
  | authorization
  | topicNotFound
  | recordTooLarge
  | timeout
  | broker
  deriving DecidableEq

/-- What `produce` raises. -/
inductive ProduceException where
  | deliveryInProgress (message : Text)
  | deliveryError (failure : DeliveryFailure) (message : Text)
  /-- An attribute of `None` was read. -/
  | attributeError
  | assertionError
  | other (e : PyException)

/-- `CLUSTER_AUTHORIZATION_FAILED`, `SASL_AUTHENTICATION_FAILED`, `TOPIC_AUTHORIZATION_FAILED` and
`TRANSACTIONAL_ID_AUTHORIZATION_FAILED`. -/
def authorizationErrorCodes : List ℤ := [31, 58, 29, 53]

/-- `_UNKNOWN_TOPIC` and `UNKNOWN_TOPIC_OR_PART`. -/
def topicNotFoundErrorCodes : List ℤ := [-188, 3]

/-- `MSG_SIZE_TOO_LARGE` and `RECORD_LIST_TOO_LARGE`. -/
def recordTooLargeErrorCodes : List ℤ := [10, 18]

/-- `_MSG_TIMED_OUT`, `_TIMED_OUT` and `REQUEST_TIMED_OUT`. -/
def timeoutErrorCodes : List ℤ := [-192, -185, 7]

def clientSizeLimitMessage : Text := text "The record exceeds the producer's message.max.bytes"

def brokerSizeLimitMessage : Text :=
  text ("The broker rejected the record: it exceeds the topic's max.message.bytes " ++
    "or the broker's message.max.bytes")

def deliveryError (error : KafkaError) : ProduceException :=
  if error.code ∈ recordTooLargeErrorCodes then .deliveryError .recordTooLarge brokerSizeLimitMessage
  else if error.code ∈ authorizationErrorCodes then .deliveryError .authorization error.reason
  else if error.code ∈ topicNotFoundErrorCodes then .deliveryError .topicNotFound error.reason
  else if error.code ∈ timeoutErrorCodes then .deliveryError .timeout error.reason
  else .deliveryError .broker error.reason

/-- The next statement of a thread that runs `_produce`. -/
inductive ProduceStep where
  /-- `if self._producer is None`. -/
  | start
  /-- `self._producer = Producer(...)`. -/
  | create
  /-- `assert self._producer is not None`. -/
  | check
  /-- `self._producer`, to queue the record with it. -/
  | readToProduce
  | produce
  /-- `while not outcome`. -/
  | testOutcome
  /-- `if self._closing.is_set()`. -/
  | testClosing
  /-- `if remaining <= 0`. -/
  | testDeadline
  /-- `self._producer`, to poll it. -/
  | readToPoll
  | poll
  | ended (result : Except ProduceException Delivery)

/-- The next statement of a thread that runs `close`. -/
inductive CloseStep where
  /-- `self._closing.set()`. -/
  | set
  /-- `if self._producer is None`. -/
  | test
  /-- `self._producer`, to flush it. -/
  | readToFlush
  | flush
  /-- `self._producer = None`. -/
  | clear
  /-- Returned, or raised. -/
  | ended
  deriving DecidableEq

/-- What a statement of a thread meets, where its effect is not determined by the service. -/
inductive ProduceChoice where
  /-- The call returns, or the deadline has not passed. -/
  | succeeds
  /-- `BufferError`. -/
  | bufferError
  /-- `KafkaException(error)`. -/
  | kafkaException (error : KafkaError)
  /-- Another exception, where a client is created or a record is queued. -/
  | raises (e : PyException)
  /-- The deadline has passed. -/
  | expired

/-- A record in the client's queue: whose it is, and the call whose `on_delivery` it came with. -/
structure QueuedRecord (τ : Type) where
  record : τ
  onDelivery : τ

/-- A delivery report: of whose record, with which error, if any, and which message. -/
structure DeliveryReport (τ : Type) where
  record : τ
  error : Option KafkaError
  message : ReportedMessage

/-- The calls `τ` of `produce`, the calls `ι` of `close`, and what they share. -/
structure ProducerService (τ ι : Type) where
  tasks : LockedTasks τ Unit := {}
  /-- Whether `self._producer` is a client. -/
  client : Bool := false
  closing : Bool := false
  thread : τ → ProduceStep := fun _ => .start
  closer : ι → CloseStep := fun _ => .set
  /-- All records that were ever queued. -/
  queued : List (QueuedRecord τ) := []
  outcome : τ → List (Option KafkaError × ReportedMessage) := fun _ => []
  /-- All delivery reports that were served. -/
  reports : List (DeliveryReport τ) := []
  /-- What the calls of `produce` returned or raised, unless they were cancelled. -/
  returned : τ → Option (Except ProduceException Delivery) := fun _ => none

inductive ProducerEvent (τ ι : Type) where
  | task (event : TaskEvent τ Unit)
  /-- A thread of `_produce` executes a statement. -/
  | produce (task : τ) (choice : ProduceChoice)
  /-- A thread of `close` executes a statement. -/
  | close (call : ι)
  /-- `aclose` sets the event before it starts a thread. -/
  | requestClose
  /-- The client serves a report of a queued record while it polls or flushes for a thread. -/
  | report (server : τ ⊕ ι) (index : ℕ) (error : Option KafkaError) (message : ReportedMessage)

/-- `produce` makes one blocking call. -/
def deliveryFollows : Option Unit → Option Unit → Bool
  | none, some _ => true
  | some _, none => true
  | _, _ => false

variable {F E τ ι : Type} [DecidableEq τ]

namespace ProducerService

/-- `_timestamp`, and the result of an acknowledged record. -/
def delivery (py : Interpreter F E) (message : ReportedMessage) : Except ProduceException Delivery :=
  match message.timestamp with
  | none => .ok ⟨message.partition, message.offset, none⟩
  | some milliseconds =>
    match py.fromTimestamp milliseconds with
    | .ok timestamp => .ok ⟨message.partition, message.offset, some timestamp⟩
    | .error e => .error (.other e)

/-- The end of `_produce`, for the first entry of `outcome`. -/
def conclude (py : Interpreter F E) :
    Option KafkaError × ReportedMessage → Except ProduceException Delivery
  | (some error, _) => .error (deliveryError error)
  | (none, message) => delivery py message

def goTo (s : ProducerService τ ι) (task : τ) (statement : ProduceStep) : ProducerService τ ι :=
  { s with thread := Function.update s.thread task statement }

@[simp] theorem goTo_thread_self (s : ProducerService τ ι) (task : τ) (statement : ProduceStep) :
    (s.goTo task statement).thread task = statement :=
  Function.update_self _ _ _

theorem goTo_thread_of_ne {task other : τ} (h : other ≠ task) (s : ProducerService τ ι)
    (statement : ProduceStep) : (s.goTo task statement).thread other = s.thread other :=
  Function.update_of_ne h _ _

def raise (s : ProducerService τ ι) (task : τ) (e : ProduceException) : ProducerService τ ι :=
  s.goTo task (.ended (.error e))

/-- The next statement of `_produce`; `seconds` is the configured deadline as a message shows it. -/
def produceStep (py : Interpreter F E) (seconds : Text) (s : ProducerService τ ι) (task : τ)
    (choice : ProduceChoice) : Option (ProducerService τ ι) :=
  match s.thread task, choice with
  | .start, _ => some (s.goTo task (if s.client then .check else .create))
  | .create, .raises e => some (s.raise task (.other e))
  | .create, _ => some { s.goTo task .check with client := true }
  | .check, _ => some (if s.client then s.goTo task .readToProduce else s.raise task .assertionError)
  | .readToProduce, _ =>
    some (if s.client then s.goTo task .produce else s.raise task .attributeError)
  | .produce, .bufferError =>
    some (s.raise task (.deliveryError .broker (text "The local producer queue is full")))
  | .produce, .kafkaException error =>
    some (s.raise task (if error.code ∈ recordTooLargeErrorCodes then
      .deliveryError .recordTooLarge clientSizeLimitMessage else deliveryError error))
  | .produce, .raises e => some (s.raise task (.other e))
  | .produce, _ => some { s.goTo task .testOutcome with queued := s.queued ++ [⟨task, task⟩] }
  | .testOutcome, _ =>
    match s.outcome task with
    | [] => some (s.goTo task .testClosing)
    | first :: _ => some (s.goTo task (.ended (conclude py first)))
  | .testClosing, _ =>
    some (if s.closing then
        s.raise task (.deliveryError .timeout
          (text "Kaskade closed before the broker acknowledged the record"))
      else s.goTo task .testDeadline)
  | .testDeadline, .expired =>
    some (s.raise task (.deliveryError .timeout (text "No broker acknowledgement within " ++ seconds
      ++ text " seconds; the record may still be delivered")))
  | .testDeadline, _ => some (s.goTo task .readToPoll)
  | .readToPoll, _ => some (if s.client then s.goTo task .poll else s.raise task .attributeError)
  | .poll, _ => some (s.goTo task .testOutcome)
  | .ended _, _ => none

def Early : ProduceStep → Prop
  | .start | .create | .check | .readToProduce | .produce => True
  | _ => False

/-- The effect of a statement of `_produce`, in the order of the source. -/
inductive ProduceEffect (py : Interpreter F E) (s : ProducerService τ ι) (task : τ) :
    ProducerService τ ι → Prop where
  | early (statement : ProduceStep) : Early (s.thread task) → Early statement →
      (statement ≠ .create → s.client = true) → ProduceEffect py s task (s.goTo task statement)
  | create : s.thread task = .create →
      ProduceEffect py s task { s.goTo task .check with client := true }
  | failed (e : ProduceException) : Early (s.thread task) → ProduceEffect py s task (s.raise task e)
  | queue : s.thread task = .produce →
      ProduceEffect py s task
        { s.goTo task .testOutcome with queued := s.queued ++ [⟨task, task⟩] }
  | acknowledged (first : Option KafkaError × ReportedMessage) : s.thread task = .testOutcome →
      first ∈ s.outcome task → ProduceEffect py s task (s.goTo task (.ended (conclude py first)))
  | unacknowledged : s.thread task = .testOutcome → s.outcome task = [] →
      ProduceEffect py s task (s.goTo task .testClosing)
  | closing (message : Text) : s.thread task = .testClosing → s.closing = true →
      ProduceEffect py s task (s.raise task (.deliveryError .timeout message))
  | notClosing : s.thread task = .testClosing → s.closing = false →
      ProduceEffect py s task (s.goTo task .testDeadline)
  | expired (message : Text) : s.thread task = .testDeadline →
      ProduceEffect py s task (s.raise task (.deliveryError .timeout message))
  | waits : s.thread task = .testDeadline → ProduceEffect py s task (s.goTo task .readToPoll)
  | polls : s.thread task = .readToPoll → s.client = true →
      ProduceEffect py s task (s.goTo task .poll)
  | noClient : s.thread task = .readToPoll → s.client = false →
      ProduceEffect py s task (s.raise task .attributeError)
  | polled : s.thread task = .poll → ProduceEffect py s task (s.goTo task .testOutcome)

theorem produceStep_effect {py : Interpreter F E} {seconds : Text} {s t : ProducerService τ ι}
    {task : τ} {choice : ProduceChoice} (h : s.produceStep py seconds task choice = some t) :
    ProduceEffect py s task t := by
  have hearly : ∀ {statement}, s.thread task = statement → Early statement → Early (s.thread task) :=
    fun hthread hstatement => hthread ▸ hstatement
  cases hthread : s.thread task with
  | start =>
    simp only [produceStep, hthread, Option.some.injEq] at h
    subst h
    apply ProduceEffect.early
    · exact hearly hthread trivial
    · split_ifs <;> trivial
    · split_ifs with hclient
      · exact fun _ => hclient
      · exact fun hne => absurd rfl hne
  | create =>
    cases choice with
    | raises e =>
      simp only [produceStep, hthread, Option.some.injEq] at h
      exact h ▸ .failed _ (hearly hthread trivial)
    | _ =>
      simp only [produceStep, hthread, Option.some.injEq] at h
      exact h ▸ .create hthread
  | check =>
    simp only [produceStep, hthread, Option.some.injEq] at h
    split_ifs at h with hclient
    · exact h ▸ .early _ (hearly hthread trivial) trivial fun _ => hclient
    · exact h ▸ .failed _ (hearly hthread trivial)
  | readToProduce =>
    simp only [produceStep, hthread, Option.some.injEq] at h
    split_ifs at h with hclient
    · exact h ▸ .early _ (hearly hthread trivial) trivial fun _ => hclient
    · exact h ▸ .failed _ (hearly hthread trivial)
  | produce =>
    cases choice with
    | succeeds =>
      simp only [produceStep, hthread, Option.some.injEq] at h
      exact h ▸ .queue hthread
    | expired =>
      simp only [produceStep, hthread, Option.some.injEq] at h
      exact h ▸ .queue hthread
    | _ =>
      simp only [produceStep, hthread, Option.some.injEq] at h
      exact h ▸ .failed _ (hearly hthread trivial)
  | testOutcome =>
    cases houtcome : s.outcome task with
    | nil =>
      simp only [produceStep, hthread, houtcome, Option.some.injEq] at h
      exact h ▸ .unacknowledged hthread houtcome
    | cons first rest =>
      simp only [produceStep, hthread, houtcome, Option.some.injEq] at h
      exact h ▸ .acknowledged first hthread (houtcome ▸ List.mem_cons_self)
  | testClosing =>
    simp only [produceStep, hthread, Option.some.injEq] at h
    split_ifs at h with hclosing
    · exact h ▸ .closing _ hthread hclosing
    · exact h ▸ .notClosing hthread (by simpa using hclosing)
  | testDeadline =>
    cases choice with
    | expired =>
      simp only [produceStep, hthread, Option.some.injEq] at h
      exact h ▸ .expired _ hthread
    | _ =>
      simp only [produceStep, hthread, Option.some.injEq] at h
      exact h ▸ .waits hthread
  | readToPoll =>
    simp only [produceStep, hthread, Option.some.injEq] at h
    split_ifs at h with hclient
    · exact h ▸ .polls hthread hclient
    · exact h ▸ .noClient hthread (by simpa using hclient)
  | poll =>
    simp only [produceStep, hthread, Option.some.injEq] at h
    exact h ▸ .polled hthread
  | ended result => simp [produceStep, hthread] at h

variable [DecidableEq ι]

def closeTo (s : ProducerService τ ι) (call : ι) (statement : CloseStep) : ProducerService τ ι :=
  { s with closer := Function.update s.closer call statement }

/-- The next statement of `close`. -/
def closeStep (s : ProducerService τ ι) (call : ι) : Option (ProducerService τ ι) :=
  match s.closer call with
  | .set => some { s.closeTo call .test with closing := true }
  | .test => some (s.closeTo call (if s.client then .readToFlush else .ended))
  | .readToFlush => some (s.closeTo call (if s.client then .flush else .ended))
  | .flush => some (s.closeTo call .clear)
  | .clear => some { s.closeTo call .ended with client := false }
  | .ended => none

/-- Whether the client polls or flushes for a thread. -/
def serves (s : ProducerService τ ι) : τ ⊕ ι → Bool
  | .inl task => match s.thread task with
    | .poll => true
    | _ => false
  | .inr call => s.closer call = .flush

/-- A report reaches the callback that the record was queued with. -/
def serve (s : ProducerService τ ι) (queued : QueuedRecord τ) (error : Option KafkaError)
    (message : ReportedMessage) : ProducerService τ ι :=
  { s with
    outcome := Function.update s.outcome queued.onDelivery
      (s.outcome queued.onDelivery ++ [(error, message)])
    reports := s.reports ++ [⟨queued.record, error, message⟩] }

omit [DecidableEq ι] in
theorem serve_outcome_self (s : ProducerService τ ι) (queued : QueuedRecord τ)
    (error : Option KafkaError) (message : ReportedMessage) :
    (s.serve queued error message).outcome queued.onDelivery =
      s.outcome queued.onDelivery ++ [(error, message)] :=
  Function.update_self _ _ _

omit [DecidableEq ι] in
theorem serve_outcome_of_ne {queued : QueuedRecord τ} {task : τ} (h : task ≠ queued.onDelivery)
    (s : ProducerService τ ι) (error : Option KafkaError) (message : ReportedMessage) :
    (s.serve queued error message).outcome task = s.outcome task :=
  Function.update_of_ne h _ _

/-- What a call of `produce` returns or raises at an event of its task. -/
def returnedAt (s : ProducerService τ ι) (task : TaskEvent τ Unit) :
    τ → Option (Except ProduceException Delivery) :=
  match task with
  | .refuse task => Function.update s.returned task
      (some (.error (.deliveryInProgress (text "A record is already being delivered"))))
  | .leave task => Function.update s.returned task
      (match s.thread task with
      | .ended result => some result
      | _ => none)
  | _ => s.returned

/-- Whether the thread of a task can do its part in an event: it runs before it executes
statements, and ends after the last. -/
def threadEnded (s : ProducerService τ ι) : TaskEvent τ Unit → Bool
  | .threadEnd task => match s.thread task with
    | .ended _ => true
    | _ => false
  | _ => true

def step (py : Interpreter F E) (seconds : Text) (s : ProducerService τ ι) :
    ProducerEvent τ ι → Option (ProducerService τ ι)
  | .task event =>
    if s.threadEnded event then
      (s.tasks.step false (fun _ => deliveryFollows) event).map fun tasks =>
        { s with tasks := tasks, returned := s.returnedAt event }
    else none
  | .produce task choice =>
    match s.tasks.calls task with
    | some (_, true) => s.produceStep py seconds task choice
    | _ => none
  | .close call => s.closeStep call
  | .requestClose => some { s with closing := true }
  | .report server index error message =>
    if s.serves server then (s.queued[index]?).map fun queued => s.serve queued error message
    else none

def Step (py : Interpreter F E) (seconds : Text) (s : ProducerService τ ι)
    (event : ProducerEvent τ ι) (t : ProducerService τ ι) : Prop :=
  s.step py seconds event = some t

inductive Effect (py : Interpreter F E) (s : ProducerService τ ι) :
    ProducerEvent τ ι → ProducerService τ ι → Prop where
  | task (event : TaskEvent τ Unit) (tasks : LockedTasks τ Unit) : s.threadEnded event = true →
      s.tasks.step false (fun _ => deliveryFollows) event = some tasks →
      Effect py s (.task event) { s with tasks := tasks, returned := s.returnedAt event }
  | produce (task : τ) (choice : ProduceChoice) {t : ProducerService τ ι} :
      s.tasks.calls task = some ((), true) → ProduceEffect py s task t →
      Effect py s (.produce task choice) t
  | close (call : ι) {t : ProducerService τ ι} : s.closeStep call = some t →
      Effect py s (.close call) t
  | requestClose : Effect py s .requestClose { s with closing := true }
  | report (server : τ ⊕ ι) (index : ℕ) (error : Option KafkaError) (message : ReportedMessage)
      (queued : QueuedRecord τ) : s.serves server = true → queued ∈ s.queued →
      Effect py s (.report server index error message) (s.serve queued error message)

theorem step_effect {py : Interpreter F E} {seconds : Text} {s t : ProducerService τ ι}
    {event : ProducerEvent τ ι} (h : Step py seconds s event t) : Effect py s event t := by
  rw [Step] at h
  cases event with
  | task e =>
    simp only [step] at h
    split_ifs at h with hended
    obtain ⟨tasks, htasks, rfl⟩ := Option.map_eq_some_iff.mp h
    exact .task e tasks hended htasks
  | produce task choice =>
    simp only [step] at h
    split at h
    · rename_i hcall
      exact .produce task choice hcall (produceStep_effect h)
    · cases h
  | close call => exact .close call h
  | requestClose => exact Option.some.inj h ▸ .requestClose
  | report server index error message =>
    simp only [step] at h
    split_ifs at h with hserves
    obtain ⟨queued, hqueued, rfl⟩ := Option.map_eq_some_iff.mp h
    exact .report server index error message queued hserves (List.mem_of_getElem? hqueued)

end ProducerService

end Kaskade
