import Kaskade.ConsumerRecords
import Mathlib.Data.List.Basic

/-!
# Pages of a consumer

`ConsumerService._consume`: the loop that polls the client until a page is full or nothing
more comes. The client is a script of what each poll returns; the state of the loop is its
local variables, and one turn of the loop is one poll.
-/

namespace Kaskade

open Python

/-- What a poll does: the messages it returns, the errors the client reports during it, and
whether the assignment is stable after it. -/
structure Poll where
  messages : List Message
  reported : List KafkaError
  stable : Bool

/-- The polls of a client: what the so-manieth poll does, asked for so many messages. -/
abbrev Script := ℕ → ℕ → Poll

/-- `CONSUMER_AUTHORIZATION_ERROR_CODES`: topic, group and SASL authentication failures. -/
def consumerAuthorizationErrorCodes : List ℤ := [29, 30, 58]

/-- The polls made so far and `_consumer_error`. -/
structure Client where
  polled : List Poll := []
  consumerError : Option KafkaError := none

namespace Client

def onConsumerError (s : Client) (error : KafkaError) : Client :=
  if error.code ∈ consumerAuthorizationErrorCodes then { s with consumerError := some error } else s

/-- `consumer.consume`, with the errors reported meanwhile. -/
def poll (script : Script) (s : Client) (requested : ℕ) : Client × Poll :=
  let result := script s.polled.length requested
  (result.reported.foldl onConsumerError { s with polled := s.polled ++ [result] }, result)

def raiseConsumerError (s : Client) : Client × Outcome Unit :=
  match s.consumerError with
  | none => (s, .ok ())
  | some error => ({ s with consumerError := none }, .error error.exception)

theorem onConsumerError_polled (s : Client) (errors : List KafkaError) :
    (errors.foldl onConsumerError s).polled = s.polled := by
  induction errors generalizing s with
  | nil => rfl
  | cons error errors ih =>
    rw [List.foldl_cons, ih, onConsumerError]
    split_ifs <;> rfl

/-- Without a pending error, only an authorization error of the poll is pending after it. -/
theorem onConsumerError_pending {s : Client} {errors : List KafkaError} {error : KafkaError}
    (hs : s.consumerError = none)
    (h : (errors.foldl onConsumerError s).consumerError = some error) :
    error ∈ errors ∧ error.code ∈ consumerAuthorizationErrorCodes := by
  induction errors using List.reverseRecOn with
  | nil =>
    rw [List.foldl_nil, hs] at h
    cases h
  | append_singleton errors last ih =>
    rw [List.foldl_append, List.foldl_cons, List.foldl_nil, onConsumerError] at h
    split_ifs at h with hcode
    · obtain rfl := Option.some.inj h
      exact ⟨by simp, hcode⟩
    · exact ⟨List.mem_append_left _ (ih h).1, (ih h).2⟩

@[simp] theorem poll_polled (script : Script) (s : Client) (requested : ℕ) :
    (s.poll script requested).1.polled = s.polled ++ [script s.polled.length requested] :=
  onConsumerError_polled _ _

end Client

/-- The limits of a page: its size, and how often in a row a poll may be empty or the
assignment unstable. -/
structure PageLimits where
  pageSize : ℕ
  maxPollRetries : ℕ
  maxStabilizationRetries : ℕ
  pageSize_pos : 1 ≤ pageSize
  maxPollRetries_pos : 1 ≤ maxPollRetries
  maxStabilizationRetries_pos : 1 ≤ maxStabilizationRetries

/-- The local variables of `_consume`. -/
structure Chunk (F E : Type) where
  records : List (Record F E) := []
  pollRetries : ℕ := 0
  stabilizationRetries : ℕ := 0
  scanned : ℕ := 0

variable {F E : Type}

def Chunk.wantsMore (limits : PageLimits) (c : Chunk F E) : Bool :=
  c.records.length < limits.pageSize && c.pollRetries < limits.maxPollRetries &&
    c.stabilizationRetries < limits.maxStabilizationRetries

namespace ConsumerService

variable (py : Interpreter F E) (service : ConsumerService F E) (limits : PageLimits)
  (script : Script) (filters : RecordFilters)

def matchedRecord (message : Message) : Outcome (Option (Record F E)) := do
  let record ← recordFromMessage py service message
  if ← recordMatches py record filters then return some record else return none

/-- `_records_from_batch`, from the records and the count so far. -/
def recordsFromBatch (limit : ℕ) :
    List Message → List (Record F E) → ℕ → Outcome (List (Record F E) × ℕ)
  | [], records, scanned => .ok (records, scanned)
  | message :: messages, records, scanned =>
    match matchedRecord py service filters message with
    | .error e => .error e
    | .ok none => recordsFromBatch limit messages records (scanned + 1)
    | .ok (some record) =>
      if limit ≤ (records ++ [record]).length then .ok (records ++ [record], scanned + 1)
      else recordsFromBatch limit messages (records ++ [record]) (scanned + 1)

def turn (s : Client) (c : Chunk F E) : Client × Outcome (Chunk F E) :=
  let requested := limits.pageSize - c.records.length
  let (s, batch) := s.poll script requested
  match s.raiseConsumerError with
  | (s, .error e) => (s, .error e)
  | (s, .ok ()) =>
    if !batch.stable then
      (s, .ok { c with stabilizationRetries := c.stabilizationRetries + 1 })
    else if batch.messages.isEmpty then
      (s, .ok { c with stabilizationRetries := 0, pollRetries := c.pollRetries + 1 })
    else
      match recordsFromBatch py service filters requested batch.messages [] 0 with
      | .error e => (s, .error e)
      | .ok (matched, scanned) =>
        (s, .ok { records := c.records ++ matched, pollRetries := 0, stabilizationRetries := 0,
                  scanned := c.scanned + scanned })

def consumeLoop : ℕ → Client → Chunk F E → Option (Client × Outcome (Chunk F E))
  | 0, _, _ => none
  | fuel + 1, s, c =>
    if c.wantsMore limits then
      match turn py service limits script filters s c with
      | (s, .error e) => some (s, .error e)
      | (s, .ok c) => consumeLoop fuel s c
    else some (s, .ok c)

/-- `_consume` of a started service, for so many turns at most. -/
def consume (fuel : ℕ) (s : Client) : Option (Client × Outcome (Chunk F E)) :=
  consumeLoop py service limits script filters fuel s {}

/-- The message becomes a record that can be compared with the filters. -/
def Readable (message : Message) : Prop := ∃ r, matchedRecord py service filters message = .ok r

/-- The timestamp of the message converts, its key and value are decoded or kept as octets, and it
can be compared with the filters. -/
structure Converts (message : Message) : Prop where
  timestamp : 0 < message.timestamp.1 → ∃ time, py.fromTimestamp message.timestamp.2 = .ok time
  key : ∃ outcome, (buildRecord py service message none).keyOutcome = .ok outcome
  value : ∃ outcome, (buildRecord py service message none).valueOutcome = .ok outcome
  compared : ∃ isMatch, recordMatches py (buildRecord py service message none) filters = .ok isMatch

def matching (messages : List Message) : List (Record F E) :=
  messages.filterMap fun message =>
    match matchedRecord py service filters message with
    | .ok r => r
    | .error _ => none

variable {py service limits script filters}

theorem messageTimestamp_returns_iff {message : Message} :
    (∃ timestamp, messageTimestamp py message = .ok timestamp) ↔
      (0 < message.timestamp.1 → ∃ time, py.fromTimestamp message.timestamp.2 = .ok time) := by
  rw [messageTimestamp]
  split_ifs with h
  · exact ⟨fun _ hpos => absurd hpos (not_lt.mpr h), fun _ => ⟨none, rfl⟩⟩
  · cases py.fromTimestamp message.timestamp.2 <;> simp [Except.map, not_le.mp h]

theorem recordFromMessage_returns_iff {message : Message} {record : Record F E} :
    recordFromMessage py service message = .ok record ↔
      message.error = none ∧ ∃ timestamp, messageTimestamp py message = .ok timestamp ∧
        (∃ outcome, (buildRecord py service message none).keyOutcome = .ok outcome) ∧
        (∃ outcome, (buildRecord py service message none).valueOutcome = .ok outcome) ∧
        record = buildRecord py service message timestamp := by
  constructor
  · intro h
    have herror : message.error = none := by
      cases herror : message.error with
      | none => rfl
      | some e => rw [recordFromMessage, herror] at h; cases h
    obtain ⟨timestamp, key, value, rfl, hkey, hvalue⟩ := recordFromMessage_ok h
    refine ⟨herror, timestamp, ?_, ⟨key, hkey⟩, ⟨value, hvalue⟩, rfl⟩
    cases htimestamp : messageTimestamp py message with
    | error e => simp [recordFromMessage, herror, htimestamp, bind, Except.bind] at h
    | ok found =>
      have hkey' : (buildRecord py service message found).keyOutcome = .ok key := hkey
      have hvalue' : (buildRecord py service message found).valueOutcome = .ok value := hvalue
      simp only [recordFromMessage, herror, htimestamp, bind, Except.bind,
        Record.resolveDeserializations, hkey', hvalue', pure, Except.pure, Except.ok.injEq] at h
      exact congrArg Except.ok (congrArg Record.timestamp h)
  · rintro ⟨herror, timestamp, htimestamp, ⟨key, hkey⟩, ⟨value, hvalue⟩, rfl⟩
    have hkey' : (buildRecord py service message timestamp).keyOutcome = .ok key := hkey
    have hvalue' : (buildRecord py service message timestamp).valueOutcome = .ok value := hvalue
    simp only [recordFromMessage, herror, htimestamp, bind, Except.bind,
      Record.resolveDeserializations, hkey', hvalue', pure, Except.pure]

/-- A message is read just when it carries no error and converts. -/
theorem readable_iff {message : Message} :
    Readable py service filters message ↔
      message.error = none ∧ Converts py service filters message := by
  have hmatched : Readable py service filters message ↔ ∃ record,
      recordFromMessage py service message = .ok record ∧
        ∃ isMatch, recordMatches py record filters = .ok isMatch := by
    simp only [Readable, matchedRecord]
    cases recordFromMessage py service message with
    | error e => simp [bind, Except.bind]
    | ok record =>
      cases hmatch : recordMatches py record filters with
      | error e => simp [hmatch, bind, Except.bind]
      | ok isMatch => cases isMatch <;> simp [hmatch, bind, Except.bind, pure, Except.pure]
  rw [hmatched]
  constructor
  · rintro ⟨record, hrecord, hcompared⟩
    obtain ⟨herror, timestamp, htimestamp, hkey, hvalue, rfl⟩ := recordFromMessage_returns_iff.mp hrecord
    exact ⟨herror, messageTimestamp_returns_iff.mp ⟨timestamp, htimestamp⟩, hkey, hvalue, hcompared⟩
  · rintro ⟨herror, hconverts⟩
    obtain ⟨timestamp, htimestamp⟩ := messageTimestamp_returns_iff.mpr hconverts.timestamp
    exact ⟨_, recordFromMessage_returns_iff.mpr
      ⟨herror, timestamp, htimestamp, hconverts.key, hconverts.value, rfl⟩, hconverts.compared⟩

@[simp] theorem matching_append (ms ns : List Message) :
    matching py service filters (ms ++ ns) =
      matching py service filters ms ++ matching py service filters ns :=
  List.filterMap_append

variable (py service filters) in
theorem matching_length_le (messages : List Message) :
    (matching py service filters messages).length ≤ messages.length :=
  List.length_filterMap_le _ _

theorem matching_cons {message : Message} {r : Option (Record F E)}
    (h : matchedRecord py service filters message = .ok r) (messages : List Message) :
    matching py service filters (message :: messages) =
      r.toList ++ matching py service filters messages := by
  cases r <;> simp [matching, h]

/-- A batch within the limit is scanned whole: the limit can be reached at its last message
only. -/
theorem recordsFromBatch_ok {limit : ℕ} {messages : List Message} {records : List (Record F E)}
    {scanned : ℕ} (hsmall : records.length + messages.length ≤ limit)
    (hreadable : ∀ m ∈ messages, Readable py service filters m) :
    recordsFromBatch py service filters limit messages records scanned =
      .ok (records ++ matching py service filters messages, scanned + messages.length) := by
  induction messages generalizing records scanned with
  | nil => simp [recordsFromBatch, matching]
  | cons m ms ih =>
    obtain ⟨r, hr⟩ := hreadable m List.mem_cons_self
    have hrest : ∀ m ∈ ms, Readable py service filters m :=
      fun n hn => hreadable n (List.mem_cons_of_mem m hn)
    have hlength : records.length + ms.length + 1 ≤ limit := by
      simpa [Nat.add_assoc] using hsmall
    rw [matching_cons hr]
    cases r with
    | none =>
      have hstep : recordsFromBatch py service filters limit ms records (scanned + 1) =
          .ok (records ++ matching py service filters ms, scanned + 1 + ms.length) :=
        ih (by omega) hrest
      simp [recordsFromBatch, hr, hstep, Nat.add_comm, Nat.add_left_comm]
    | some record =>
      by_cases hfull : limit ≤ (records ++ [record]).length
      · obtain rfl : ms = [] := by
          rw [List.length_append, List.length_singleton] at hfull
          exact List.length_eq_zero_iff.mp (by omega)
        simp [recordsFromBatch, hr, matching]
      · have hstep : recordsFromBatch py service filters limit ms (records ++ [record])
            (scanned + 1) = .ok (records ++ [record] ++ matching py service filters ms,
              scanned + 1 + ms.length) := by
          refine ih ?_ hrest
          rw [List.length_append, List.length_singleton]
          omega
        simp only [recordsFromBatch, hr, if_neg hfull, hstep, Option.toList_some,
          List.append_assoc, List.length_cons]
        congr 2
        omega

theorem recordsFromBatch_error {limit : ℕ} {messages : List Message} {records : List (Record F E)}
    {scanned : ℕ} {e : PyException}
    (h : recordsFromBatch py service filters limit messages records scanned = .error e) :
    ∃ m ∈ messages, matchedRecord py service filters m = .error e := by
  induction messages generalizing records scanned with
  | nil => cases h
  | cons m ms ih =>
    rw [recordsFromBatch] at h
    cases hm : matchedRecord py service filters m with
    | error e' =>
      simp only [hm, Except.error.injEq] at h
      exact ⟨m, List.mem_cons_self, h ▸ hm⟩
    | ok r =>
      have hlater : (∃ n ∈ ms, matchedRecord py service filters n = .error e) →
          ∃ n ∈ m :: ms, matchedRecord py service filters n = .error e := fun ⟨n, hn, hne⟩ =>
        ⟨n, List.mem_cons_of_mem m hn, hne⟩
      cases r with
      | none => exact hlater (ih (by simpa [hm] using h))
      | some record =>
        simp only [hm] at h
        split_ifs at h
        exact hlater (ih h)

theorem readable_of_recordsFromBatch {limit : ℕ} {messages : List Message}
    {records : List (Record F E)} {scanned : ℕ} {result : List (Record F E) × ℕ}
    (hsmall : records.length + messages.length ≤ limit)
    (h : recordsFromBatch py service filters limit messages records scanned = .ok result) :
    ∀ m ∈ messages, Readable py service filters m := by
  induction messages generalizing records scanned with
  | nil => simp
  | cons m ms ih =>
    have hlength : records.length + ms.length + 1 ≤ limit := by
      simpa [Nat.add_assoc] using hsmall
    rw [recordsFromBatch] at h
    cases hm : matchedRecord py service filters m with
    | error e => simp [hm] at h
    | ok r =>
      refine List.forall_mem_cons.mpr ⟨⟨r, hm⟩, ?_⟩
      cases r with
      | none =>
        have hlater : recordsFromBatch py service filters limit ms records (scanned + 1) =
            .ok result := by simpa [hm] using h
        exact ih (by omega) hlater
      | some record =>
        simp only [hm] at h
        split_ifs at h with hfull
        · obtain rfl : ms = [] := by
            rw [List.length_append, List.length_singleton] at hfull
            exact List.length_eq_zero_iff.mp (by omega)
          simp
        · refine ih ?_ h
          rw [List.length_append, List.length_singleton]
          omega

variable (py service filters) in
theorem recordsFromBatch_cases {limit : ℕ} {messages : List Message}
    (hsmall : messages.length ≤ limit) :
    ((∀ m ∈ messages, Readable py service filters m) ∧
        recordsFromBatch py service filters limit messages [] 0 =
          .ok (matching py service filters messages, messages.length)) ∨
      ∃ e, recordsFromBatch py service filters limit messages [] 0 = .error e ∧
        ∃ m ∈ messages, matchedRecord py service filters m = .error e := by
  cases h : recordsFromBatch py service filters limit messages [] 0 with
  | error e => exact .inr ⟨e, rfl, recordsFromBatch_error h⟩
  | ok result =>
    have hreadable := readable_of_recordsFromBatch (by simpa using hsmall) h
    refine .inl ⟨hreadable, ?_⟩
    rw [← h, recordsFromBatch_ok (by simpa using hsmall) hreadable]
    simp

end ConsumerService

end Kaskade
