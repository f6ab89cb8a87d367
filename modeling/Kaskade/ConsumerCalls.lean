import Kaskade.ConsumerPages
import Kaskade.Runs
import Mathlib.Order.Bounds.Basic
import Mathlib.Data.Set.Finite.Lattice

/-!
# Successive calls of a consumer

What a page holds once the loop stops, why it stops, and what successive calls do with the
messages polled between them.
-/

namespace Kaskade

open Python

def messagesOf (polls : List Poll) : List Message := polls.flatMap (·.messages)

@[simp] theorem messagesOf_append (ps qs : List Poll) :
    messagesOf (ps ++ qs) = messagesOf ps ++ messagesOf qs := List.flatMap_append

@[simp] theorem messagesOf_singleton (p : Poll) : messagesOf [p] = p.messages := by
  simp [messagesOf]

def EndsIn (polls : List Poll) (n : ℕ) (P : Poll → Prop) : Prop :=
  ∃ before last, polls = before ++ last ∧ last.length = n ∧ ∀ p ∈ last, P p

theorem EndsIn.zero (polls : List Poll) (P : Poll → Prop) : EndsIn polls 0 P :=
  ⟨polls, [], by simp, rfl, by simp⟩

theorem EndsIn.snoc {polls : List Poll} {n : ℕ} {P : Poll → Prop} {p : Poll}
    (h : EndsIn polls n P) (hp : P p) : EndsIn (polls ++ [p]) (n + 1) P := by
  obtain ⟨before, last, rfl, rfl, hlast⟩ := h
  refine ⟨before, last ++ [p], by simp, by simp, ?_⟩
  intro q hq
  rcases List.mem_append.mp hq with hq | hq
  · exact hlast q hq
  · exact List.mem_singleton.mp hq ▸ hp

/-- No poll returns more messages than requested, and none returns messages while the
assignment is unstable. -/
structure Script.WellBehaved (script : Script) : Prop where
  small : ∀ n requested, (script n requested).messages.length ≤ requested
  unstable : ∀ n requested, (script n requested).stable = false →
    (script n requested).messages = []

variable {F E : Type}

namespace ConsumerService

variable (py : Interpreter F E) (service : ConsumerService F E) (limits : PageLimits)
  (filters : RecordFilters)

/-- What the loop has done with the polls of a call so far. -/
structure Progress (polls : List Poll) (c : Chunk F E) : Prop where
  readable : ∀ m ∈ messagesOf polls, Readable py service filters m
  records : c.records = matching py service filters (messagesOf polls)
  length_le : c.records.length ≤ limits.pageSize
  scanned : c.scanned = (messagesOf polls).length
  idle : EndsIn (polls.filter (·.stable)) c.pollRetries (·.messages = [])
  idle_le : c.pollRetries ≤ limits.maxPollRetries
  unstable : EndsIn polls c.stabilizationRetries (·.stable = false)
  unstable_le : c.stabilizationRetries ≤ limits.maxStabilizationRetries

def FailsWith (poll : Poll) (e : PyException) : Prop :=
  (∃ error ∈ poll.reported, error.code ∈ consumerAuthorizationErrorCodes ∧ e = error.exception) ∨
    ∃ m ∈ poll.messages, matchedRecord py service filters m = .error e

variable {py service limits filters} {script : Script}

theorem progress_nil : Progress py service limits filters [] ({} : Chunk F E) where
  readable := by simp [messagesOf]
  records := rfl
  length_le := Nat.zero_le _
  scanned := rfl
  idle := .zero _ _
  idle_le := Nat.zero_le _
  unstable := .zero _ _
  unstable_le := Nat.zero_le _

theorem Progress.unstable_poll {polls : List Poll} {c : Chunk F E} {poll : Poll}
    (h : Progress py service limits filters polls c) (hmessages : poll.messages = [])
    (hstable : poll.stable = false)
    (hmore : c.stabilizationRetries < limits.maxStabilizationRetries) :
    Progress py service limits filters (polls ++ [poll])
      { c with stabilizationRetries := c.stabilizationRetries + 1 } where
  readable := by simpa [hmessages] using h.readable
  records := by simpa [hmessages] using h.records
  length_le := h.length_le
  scanned := by simpa [hmessages] using h.scanned
  idle := by simpa [List.filter_append, hstable] using h.idle
  idle_le := h.idle_le
  unstable := h.unstable.snoc hstable
  unstable_le := hmore

theorem Progress.idle_poll {polls : List Poll} {c : Chunk F E} {poll : Poll}
    (h : Progress py service limits filters polls c) (hmessages : poll.messages = [])
    (hstable : poll.stable = true) (hmore : c.pollRetries < limits.maxPollRetries) :
    Progress py service limits filters (polls ++ [poll])
      { c with stabilizationRetries := 0, pollRetries := c.pollRetries + 1 } where
  readable := by simpa [hmessages] using h.readable
  records := by simpa [hmessages] using h.records
  length_le := h.length_le
  scanned := by simpa [hmessages] using h.scanned
  idle := by
    rw [List.filter_append, List.filter_singleton, hstable]
    exact h.idle.snoc hmessages
  idle_le := hmore
  unstable := .zero _ _
  unstable_le := Nat.zero_le _

theorem Progress.batch_poll {polls : List Poll} {c : Chunk F E} {poll : Poll}
    (h : Progress py service limits filters polls c)
    (hreadable : ∀ m ∈ poll.messages, Readable py service filters m)
    (hsmall : poll.messages.length ≤ limits.pageSize - c.records.length) :
    Progress py service limits filters (polls ++ [poll])
      { records := c.records ++ matching py service filters poll.messages
        pollRetries := 0
        stabilizationRetries := 0
        scanned := c.scanned + poll.messages.length } where
  readable := by
    simpa [or_imp, forall_and] using ⟨h.readable, hreadable⟩
  records := by simp [h.records]
  length_le := by
    have hmatching := matching_length_le py service filters poll.messages
    have hlength := h.length_le
    rw [List.length_append]
    omega
  scanned := by simp [h.scanned]
  idle := .zero _ _
  idle_le := Nat.zero_le _
  unstable := .zero _ _
  unstable_le := Nat.zero_le _

/-- A turn of the loop when no error is pending after its poll. -/
theorem turn_eq {s : Client} {c : Chunk F E} {polled : Client} {poll : Poll}
    (hpoll : s.poll script (limits.pageSize - c.records.length) = (polled, poll))
    (herror : polled.consumerError = none) :
    turn py service limits script filters s c = (polled,
      if !poll.stable then .ok { c with stabilizationRetries := c.stabilizationRetries + 1 }
      else if poll.messages.isEmpty then
        .ok { c with stabilizationRetries := 0, pollRetries := c.pollRetries + 1 }
      else
        match recordsFromBatch py service filters (limits.pageSize - c.records.length)
            poll.messages [] 0 with
        | .error e => .error e
        | .ok (matched, scanned) =>
          .ok { records := c.records ++ matched, pollRetries := 0, stabilizationRetries := 0,
                scanned := c.scanned + scanned }) := by
  simp only [turn, hpoll, Client.raiseConsumerError, herror]
  split_ifs
  · rfl
  · rfl
  · cases recordsFromBatch py service filters (limits.pageSize - c.records.length)
      poll.messages [] 0 <;> rfl

theorem turn_progress (hscript : script.WellBehaved) {s : Client} {c : Chunk F E}
    {polls : List Poll} (hprogress : Progress py service limits filters polls c)
    (hmore : c.wantsMore limits = true) (hpending : s.consumerError = none) :
    ∃ poll, (∃ n k, poll = script n k) ∧
      (turn py service limits script filters s c).1.polled = s.polled ++ [poll] ∧
      (turn py service limits script filters s c).1.consumerError = none ∧
      ((∃ c', (turn py service limits script filters s c).2 = .ok c' ∧
          Progress py service limits filters (polls ++ [poll]) c') ∨
        ∃ e, (turn py service limits script filters s c).2 = .error e ∧
          FailsWith py service filters poll e) := by
  simp only [Chunk.wantsMore, Bool.and_eq_true, decide_eq_true_eq] at hmore
  obtain ⟨⟨hpage, hidle⟩, hunstable⟩ := hmore
  obtain ⟨polled, poll, hpoll⟩ : ∃ polled poll,
      s.poll script (limits.pageSize - c.records.length) = (polled, poll) := ⟨_, _, rfl⟩
  have hpolled : polled.polled = s.polled ++ [poll] := by
    obtain ⟨rfl, rfl⟩ := Prod.mk.inj hpoll
    exact Client.poll_polled _ _ _
  have hsmall : poll.messages.length ≤ limits.pageSize - c.records.length :=
    (Prod.mk.inj hpoll).2 ▸ hscript.small _ _
  have hquiet : poll.stable = false → poll.messages = [] :=
    (Prod.mk.inj hpoll).2 ▸ hscript.unstable _ _
  refine ⟨poll, ⟨_, _, (Prod.mk.inj hpoll).2.symm⟩, ?_⟩
  cases herror : polled.consumerError with
  | some error =>
    have hraise : turn py service limits script filters s c =
        ({ polled with consumerError := none }, .error error.exception) := by
      simp only [turn, hpoll, Client.raiseConsumerError, herror]
    have hreported : error ∈ poll.reported ∧ error.code ∈ consumerAuthorizationErrorCodes := by
      obtain ⟨rfl, rfl⟩ := Prod.mk.inj hpoll
      refine Client.onConsumerError_pending ?_ herror
      exact hpending
    rw [hraise]
    exact ⟨hpolled, rfl, .inr ⟨_, rfl, .inl ⟨error, hreported.1, hreported.2, rfl⟩⟩⟩
  | none =>
    rw [turn_eq hpoll herror]
    refine ⟨hpolled, herror, ?_⟩
    cases hstable : poll.stable with
    | false => exact .inl ⟨_, rfl, hprogress.unstable_poll (hquiet hstable) hstable hunstable⟩
    | true =>
      cases hempty : poll.messages.isEmpty with
      | true =>
        exact .inl ⟨_, rfl, hprogress.idle_poll (List.isEmpty_iff.mp hempty) hstable hidle⟩
      | false =>
        rcases recordsFromBatch_cases py service filters hsmall with
          ⟨hreadable, hbatch⟩ | ⟨e, hbatch, hfails⟩
        · rw [hbatch]
          exact .inl ⟨_, rfl, hprogress.batch_poll hreadable hsmall⟩
        · rw [hbatch]
          exact .inr ⟨e, rfl, .inr hfails⟩

/-- What a call leaves behind: a page of its own polls, or no page because its last poll
failed. -/
def CallEnds (py : Interpreter F E) (service : ConsumerService F E) (limits : PageLimits)
    (script : Script) (filters : RecordFilters) (polls : List Poll) : Outcome (Chunk F E) → Prop
  | .ok c => Progress py service limits filters polls c ∧ c.wantsMore limits = false
  | .error e => ∃ before failed, polls = before ++ [failed] ∧ (∃ n k, failed = script n k) ∧
      (∀ m ∈ messagesOf before, Readable py service filters m) ∧
      FailsWith py service filters failed e

theorem consumeLoop_ends (hscript : script.WellBehaved) {fuel : ℕ} {s s' : Client}
    {c : Chunk F E} {outcome : Outcome (Chunk F E)} {polls : List Poll}
    (hprogress : Progress py service limits filters polls c) (hpending : s.consumerError = none)
    (h : consumeLoop py service limits script filters fuel s c = some (s', outcome)) :
    ∃ more, s'.polled = s.polled ++ more ∧ s'.consumerError = none ∧
      CallEnds py service limits script filters (polls ++ more) outcome := by
  induction fuel generalizing s c polls with
  | zero => cases h
  | succ fuel ih =>
    rw [consumeLoop] at h
    cases hmore : c.wantsMore limits with
    | false =>
      rw [hmore, if_neg Bool.false_ne_true] at h
      cases h
      exact ⟨[], by simp, hpending, by simpa using hprogress, hmore⟩
    | true =>
      rw [hmore, if_pos rfl] at h
      obtain ⟨poll, hscripted, hpolled, hnone, hturn⟩ := turn_progress hscript hprogress hmore hpending
      generalize turn py service limits script filters s c = result at h hpolled hnone hturn
      obtain ⟨t, outcome'⟩ := result
      rcases hturn with ⟨c', rfl, hprogress'⟩ | ⟨e, rfl, hfails⟩
      · obtain ⟨more, hmore', hpending', hends⟩ := ih hprogress' hnone h
        refine ⟨poll :: more, ?_, hpending', by simpa using hends⟩
        rw [hmore', hpolled]
        simp
      · cases h
        exact ⟨[poll], hpolled, hnone, polls, poll, rfl, hscripted, hprogress.readable, hfails⟩

theorem consume_ends (hscript : script.WellBehaved) {fuel : ℕ} {s s' : Client}
    {outcome : Outcome (Chunk F E)} (hpending : s.consumerError = none)
    (h : consume py service limits script filters fuel s = some (s', outcome)) :
    ∃ polls, s'.polled = s.polled ++ polls ∧ s'.consumerError = none ∧
      CallEnds py service limits script filters polls outcome :=
  consumeLoop_ends hscript progress_nil hpending h

/-- Polls that return given batches, as far as they are requested, and then nothing. -/
def scripted (batches : List (List Message)) : Script :=
  fun n requested => ⟨(batches.getD n []).take requested, [], true⟩

theorem scripted_wellBehaved (batches : List (List Message)) : (scripted batches).WellBehaved where
  small n requested := by simp [scripted]
  unstable n requested h := by cases h

theorem scripted_finite (batches : List (List Message)) :
    {n | ∃ k, (scripted batches n k).messages ≠ []}.Finite := by
  refine (Set.finite_lt_nat batches.length).subset ?_
  rintro n ⟨k, hk⟩
  by_contra hn
  refine hk ?_
  simp [scripted, List.getElem?_eq_none (Nat.le_of_not_lt hn)]

def tombstone (offset : ℤ) (error : Option KafkaError) : Message where
  error := error
  partition := 0
  offset := offset
  key := none
  value := none
  timestamp := (0, 0)
  headers := none

def octets : ConsumerService FloatRepr Empty where
  topic := text "orders"
  keyDeserialization := .bytes
  valueDeserialization := .bytes
  keyDeserializer := withoutMetadata defaultDeserializer
  valueDeserializer := withoutMetadata defaultDeserializer
  keyBytesEncoding := .base64
  valueBytesEncoding := .base64
  fallbackBytesEncoding := .base64
  key_supplied := supplies_bytes
  value_supplied := supplies_bytes

def pairs : PageLimits := ⟨2, 1, 1, Nat.two_pos, Nat.one_pos, Nat.one_pos⟩

theorem tombstone_readable (offset : ℤ) :
    Readable .plain octets {} (tombstone offset none) := ⟨_, rfl⟩

def interrupted : Script :=
  scripted [[tombstone 0 none], [tombstone 1 (some ⟨3, text "unknown topic"⟩)], [tombstone 2 none]]

structure Call (F E : Type) where
  filters : RecordFilters
  outcome : Outcome (Chunk F E)

/-- A call of `consume` on the client. -/
def CallStep (py : Interpreter F E) (service : ConsumerService F E) (limits : PageLimits)
    (script : Script) (s : Client) (call : Call F E) (s' : Client) : Prop :=
  ∃ fuel, consume py service limits script call.filters fuel s = some (s', call.outcome)

/-- In every sequence of calls, the polls divide into one stretch for each call. -/
theorem calls_end (hscript : script.WellBehaved) {client client' : Client}
    {calls : List (Call F E)} (hpending : client.consumerError = none)
    (hrun : Run (CallStep py service limits script) client calls client') :
    ∃ segments : List (List Poll), client'.polled = client.polled ++ segments.flatten ∧
      client'.consumerError = none ∧
      List.Forall₂ (fun call polls => CallEnds py service limits script call.filters polls call.outcome)
        calls segments := by
  induction hrun with
  | nil => exact ⟨[], by simp, hpending, .nil⟩
  | @snoc calls s s' call _ hcall ih =>
    obtain ⟨segments, hpolled, hnone, hends⟩ := ih
    obtain ⟨fuel, hcall⟩ := hcall
    obtain ⟨polls, hpolls, hnone', hend⟩ := consume_ends hscript hnone hcall
    refine ⟨segments ++ [polls], ?_, hnone', List.rel_append hends (.cons hend .nil)⟩
    rw [hpolls, hpolled]
    simp

/-- The page of a call holds the matching records of its polls, each message of which could
be read; a call without a page failed at its last poll. -/
def HoldsPolls (py : Interpreter F E) (service : ConsumerService F E) (call : Call F E)
    (polls : List Poll) : Prop :=
  match call.outcome with
  | .ok c => (∀ m ∈ messagesOf polls, Readable py service call.filters m) ∧
      c.records = matching py service call.filters (messagesOf polls)
  | .error e => ∃ before failed, polls = before ++ [failed] ∧
      (∀ m ∈ messagesOf before, Readable py service call.filters m) ∧
      FailsWith py service call.filters failed e

/-- In every sequence of calls, the page of a call that returns holds the matching records of
the polls of that call, in order; a call that raises has no page, and what it polled is in
the page of no other call. -/
theorem pages_hold_their_polls (hscript : script.WellBehaved) {client client' : Client}
    {calls : List (Call F E)} (hpending : client.consumerError = none)
    (hrun : Run (CallStep py service limits script) client calls client') :
    ∃ segments : List (List Poll), client'.polled = client.polled ++ segments.flatten ∧
      List.Forall₂ (HoldsPolls py service) calls segments := by
  obtain ⟨segments, hpolled, -, hends⟩ := calls_end hscript hpending hrun
  refine ⟨segments, hpolled, hends.imp fun call polls hend => ?_⟩
  obtain ⟨callFilters, outcome⟩ := call
  cases outcome with
  | ok c => exact ⟨hend.1.readable, hend.1.records⟩
  | error e =>
    obtain ⟨before, failed, hpolls, -, hreadable, hfails⟩ := hend
    exact ⟨before, failed, hpolls, hreadable, hfails⟩

/-- The record polled before the error is in no page: the next call goes on behind it. -/
theorem interrupted_call_loses_record :
    ∃ client' e page, Run (CallStep .plain octets pairs interrupted) {}
        [⟨{}, .error e⟩, ⟨{}, .ok page⟩] client' ∧
      e.cls = .kafkaException ∧ tombstone 0 none ∈ messagesOf client'.polled ∧
      (matching .plain octets {} [tombstone 0 none]).map (·.offset) = [0] ∧
      page.records.map (·.offset) = [2] :=
  ⟨_, _, _, .snoc (.snoc .nil ⟨10, rfl⟩) ⟨10, rfl⟩, rfl, List.mem_cons_self, rfl, rfl⟩

/-- The two calls each own a stretch of the polls. -/
theorem interrupted_pages :
    ∃ calls client' segments, Run (CallStep .plain octets pairs interrupted) {} calls client' ∧
      calls.length = 2 ∧ client'.polled = segments.flatten ∧
      List.Forall₂ (HoldsPolls .plain octets) calls segments := by
  obtain ⟨client', e, page, hrun⟩ : ∃ client' e page,
      Run (CallStep .plain octets pairs interrupted) {} [⟨{}, .error e⟩, ⟨{}, .ok page⟩] client' :=
    ⟨_, _, _, .snoc (.snoc .nil ⟨10, rfl⟩) ⟨10, rfl⟩⟩
  obtain ⟨segments, hpolled, hholds⟩ :=
    pages_hold_their_polls (scripted_wellBehaved _) rfl hrun
  exact ⟨_, client', segments, hrun, rfl, hpolled, hholds⟩

theorem turn_counters {s s' : Client} {c c' : Chunk F E}
    (h : turn py service limits script filters s c = (s', .ok c')) :
    s'.polled.length = s.polled.length + 1 ∧
      ((c'.pollRetries = c.pollRetries ∧ c'.stabilizationRetries = c.stabilizationRetries + 1) ∨
        (c'.pollRetries = c.pollRetries + 1 ∧ c'.stabilizationRetries = 0) ∨
        ∃ requested, (script s.polled.length requested).messages ≠ []) := by
  obtain ⟨polled, poll, hpoll⟩ : ∃ polled poll,
      s.poll script (limits.pageSize - c.records.length) = (polled, poll) := ⟨_, _, rfl⟩
  have hpolled : polled.polled = s.polled ++ [poll] := by
    obtain ⟨rfl, rfl⟩ := Prod.mk.inj hpoll
    exact Client.poll_polled _ _ _
  cases herror : polled.consumerError with
  | some error => simp [turn, hpoll, Client.raiseConsumerError, herror] at h
  | none =>
    rw [turn_eq hpoll herror] at h
    obtain ⟨rfl, houtcome⟩ := Prod.mk.inj h
    refine ⟨by simp [hpolled], ?_⟩
    split_ifs at houtcome with hstable hempty
    · cases houtcome
      exact .inl ⟨rfl, rfl⟩
    · cases houtcome
      exact .inr (.inl ⟨rfl, rfl⟩)
    · refine .inr (.inr ⟨limits.pageSize - c.records.length, ?_⟩)
      rw [show script s.polled.length (limits.pageSize - c.records.length) = poll
        from (Prod.mk.inj hpoll).2]
      simpa using hempty

/-- How many turns are left at most, when all polls from the `last`-th on are empty. -/
def turnsLeft (limits : PageLimits) (last : ℕ) (s : Client) (c : Chunk F E) : ℕ :=
  (last - s.polled.length) * ((limits.maxPollRetries + 1) * (limits.maxStabilizationRetries + 1)) +
    ((limits.maxPollRetries - c.pollRetries) * (limits.maxStabilizationRetries + 1) +
      (limits.maxStabilizationRetries - c.stabilizationRetries))

theorem turnsLeft_lt {last : ℕ} (hlast : ∀ n, last ≤ n → ∀ k, (script n k).messages = [])
    {s s' : Client} {c c' : Chunk F E} (hmore : c.wantsMore limits = true)
    (h : turn py service limits script filters s c = (s', .ok c')) :
    turnsLeft limits last s' c' < turnsLeft limits last s c := by
  simp only [Chunk.wantsMore, Bool.and_eq_true, decide_eq_true_eq] at hmore
  obtain ⟨⟨-, hidle⟩, hunstable⟩ := hmore
  obtain ⟨hlength, hcounters⟩ := turn_counters h
  have hrest : ∀ idle unstable : ℕ,
      (limits.maxPollRetries - idle) * (limits.maxStabilizationRetries + 1) +
          (limits.maxStabilizationRetries - unstable) <
        (limits.maxPollRetries + 1) * (limits.maxStabilizationRetries + 1) := fun idle unstable => by
    have hle := Nat.mul_le_mul_right (limits.maxStabilizationRetries + 1)
      (Nat.sub_le limits.maxPollRetries idle)
    rw [Nat.add_one_mul]
    omega
  rw [turnsLeft, turnsLeft, hlength]
  by_cases hbefore : s.polled.length < last
  · -- the next poll may return messages, and every retry is granted anew
    obtain ⟨left, hleft⟩ : ∃ left, last - s.polled.length = left + 1 :=
      ⟨last - s.polled.length - 1, by omega⟩
    have hnext : last - (s.polled.length + 1) = left := by omega
    have hnew := hrest c'.pollRetries c'.stabilizationRetries
    rw [hleft, hnext]
    generalize (limits.maxPollRetries + 1) * (limits.maxStabilizationRetries + 1) = whole at hnew ⊢
    rw [Nat.add_one_mul]
    omega
  · have hzero : last - (s.polled.length + 1) = 0 ∧ last - s.polled.length = 0 := by omega
    rw [hzero.1, hzero.2, Nat.zero_mul, Nat.zero_add, Nat.zero_add]
    rcases hcounters with ⟨hsame, hnext⟩ | ⟨hnext, hreset⟩ | ⟨k, hmessages⟩
    · rw [hsame, hnext]
      omega
    · obtain ⟨left, hleft⟩ : ∃ left, limits.maxPollRetries - c.pollRetries = left + 1 :=
        ⟨limits.maxPollRetries - c.pollRetries - 1, by omega⟩
      have hfewer : limits.maxPollRetries - (c.pollRetries + 1) = left := by omega
      rw [hnext, hreset, hfewer, hleft, Nat.add_one_mul]
      omega
    · exact absurd (hlast _ (by omega) k) hmessages

theorem consumeLoop_terminates {last : ℕ}
    (hlast : ∀ n, last ≤ n → ∀ k, (script n k).messages = []) {fuel : ℕ} {s : Client}
    {c : Chunk F E} (hfuel : turnsLeft limits last s c < fuel) :
    ∃ result, consumeLoop py service limits script filters fuel s c = some result := by
  induction fuel generalizing s c with
  | zero => exact absurd hfuel (Nat.not_lt_zero _)
  | succ fuel ih =>
    rw [consumeLoop]
    split_ifs with hmore
    · cases hturn : turn py service limits script filters s c with
      | mk s' outcome =>
        cases outcome with
        | error e => exact ⟨_, rfl⟩
        | ok c' => exact ih (Nat.lt_of_lt_of_le (turnsLeft_lt hlast hmore hturn) (Nat.le_of_lt_succ hfuel))
    · exact ⟨_, rfl⟩

/-- The polls of a script report no authorization error, and none of their messages carries one. -/
structure ErrorFree (script : Script) : Prop where
  authorized : ∀ n k, ∀ error ∈ (script n k).reported,
    error.code ∉ consumerAuthorizationErrorCodes
  sound : ∀ n k, ∀ m ∈ (script n k).messages, m.error = none

/-- A finished page: what it holds, how much was scanned for it, and why it ends there. -/
structure IsPage (py : Interpreter F E) (service : ConsumerService F E) (limits : PageLimits)
    (filters : RecordFilters) (polls : List Poll) (c : Chunk F E) : Prop where
  records : c.records = matching py service filters (messagesOf polls)
  length_le : c.records.length ≤ limits.pageSize
  scanned : c.scanned = (messagesOf polls).length
  stops : c.records.length = limits.pageSize ∨
    EndsIn (polls.filter (·.stable)) limits.maxPollRetries (·.messages = []) ∨
    EndsIn polls limits.maxStabilizationRetries (·.stable = false)

theorem Progress.isPage {polls : List Poll} {c : Chunk F E}
    (h : Progress py service limits filters polls c) (hdone : c.wantsMore limits = false) :
    IsPage py service limits filters polls c where
  records := h.records
  length_le := h.length_le
  scanned := h.scanned
  stops := by
    have hlength := h.length_le
    have hidle := h.idle_le
    have hunstable := h.unstable_le
    rw [Chunk.wantsMore, Bool.and_eq_false_iff, Bool.and_eq_false_iff, decide_eq_false_iff_not,
      decide_eq_false_iff_not, decide_eq_false_iff_not] at hdone
    rcases hdone with (hfull | hretries) | hretries
    · exact .inl (by omega)
    · have hall : c.pollRetries = limits.maxPollRetries := by omega
      exact .inr (.inl (hall ▸ h.idle))
    · have hall : c.stabilizationRetries = limits.maxStabilizationRetries := by omega
      exact .inr (.inr (hall ▸ h.unstable))

theorem ErrorFree.ends {polls : List Poll} {outcome : Outcome (Chunk F E)} (hfree : ErrorFree script)
    (hconverts : ∀ m ∈ messagesOf polls, Converts py service filters m)
    (h : CallEnds py service limits script filters polls outcome) :
    ∃ c, outcome = .ok c ∧ IsPage py service limits filters polls c := by
  cases outcome with
  | ok c => exact ⟨c, rfl, h.1.isPage h.2⟩
  | error e =>
    obtain ⟨before, failed, rfl, ⟨n, k, rfl⟩, -, ⟨error, hreported, hcode, -⟩ | ⟨m, hm, hfails⟩⟩ := h
    · exact absurd hcode (hfree.authorized n k error hreported)
    · have hread : m ∈ messagesOf (before ++ [script n k]) := by simp [hm]
      obtain ⟨r, hr⟩ := readable_iff.mpr ⟨hfree.sound n k m hm, hconverts m hread⟩
      rw [hr] at hfails
      cases hfails

/-- Without errors, and with messages that convert, each call has a page of its own polls. -/
theorem ErrorFree.pages (hfree : ErrorFree script) {calls : List (Call F E)}
    {segments : List (List Poll)} (hfilters : ∀ call ∈ calls, call.filters = filters)
    (hconverts : ∀ m ∈ messagesOf segments.flatten, Converts py service filters m)
    (hends : List.Forall₂
      (fun call polls => CallEnds py service limits script call.filters polls call.outcome)
      calls segments) :
    ∃ pages : List (Chunk F E), calls = pages.map (fun c => ⟨filters, .ok c⟩) ∧
      List.Forall₂ (IsPage py service limits filters) segments pages ∧
      pages.flatMap (·.records) = matching py service filters (messagesOf segments.flatten) := by
  induction hends with
  | nil => exact ⟨[], rfl, .nil, rfl⟩
  | @cons call polls calls segments hend _ ih =>
    obtain ⟨callFilters, outcome⟩ := call
    obtain rfl : callFilters = filters := hfilters _ List.mem_cons_self
    rw [List.flatten_cons, messagesOf_append, List.forall_mem_append] at hconverts
    obtain ⟨c, rfl, hpage⟩ := hfree.ends hconverts.1 hend
    obtain ⟨pages, rfl, hpages, hrecords⟩ := ih
      (fun call hcall => hfilters call (List.mem_cons_of_mem _ hcall)) hconverts.2
    refine ⟨c :: pages, rfl, .cons hpage hpages, ?_⟩
    rw [List.flatMap_cons, hrecords, List.flatten_cons, messagesOf_append, matching_append,
      hpage.records]

theorem converts_of_pages {pages : List (Chunk F E)} {segments : List (List Poll)}
    (hends : List.Forall₂
      (fun (call : Call F E) polls => CallEnds py service limits script call.filters polls call.outcome)
      (pages.map fun c => ⟨filters, .ok c⟩) segments) :
    ∀ m ∈ messagesOf segments.flatten, Converts py service filters m := by
  rw [List.forall₂_map_left_iff] at hends
  induction hends with
  | nil => exact fun m hm => absurd hm List.not_mem_nil
  | cons hend _ ih =>
    rw [List.flatten_cons, messagesOf_append, List.forall_mem_append]
    exact ⟨fun m hm => (readable_iff.mp (hend.1.readable m hm)).2, ih⟩

variable (filters) in
theorem exists_call (hscript : script.WellBehaved)
    (hfinite : {n | ∃ k, (script n k).messages ≠ []}.Finite) {s : Client}
    (hpending : s.consumerError = none) :
    ∃ s' outcome, CallStep py service limits script s ⟨filters, outcome⟩ s' ∧
      s'.consumerError = none := by
  obtain ⟨last, hlast⟩ := hfinite.bddAbove
  have hempty : ∀ n, last + 1 ≤ n → ∀ k, (script n k).messages = [] := fun n hn k => by
    by_contra hmessages
    have := hlast ⟨k, hmessages⟩
    omega
  let fuel := turnsLeft limits (last + 1) s ({} : Chunk F E) + 1
  obtain ⟨⟨s', outcome⟩, hresult⟩ : ∃ result,
      consume py service limits script filters fuel s = some result :=
    consumeLoop_terminates hempty (Nat.lt_succ_self _)
  obtain ⟨polls, -, hnone, -⟩ := consume_ends hscript hpending hresult
  exact ⟨s', outcome, ⟨_, hresult⟩, hnone⟩

/-- Successive calls each return a page of their own polls, and the pages together are the filtered
stream of all messages polled. -/
def Paged (py : Interpreter F E) (service : ConsumerService F E) (limits : PageLimits)
    (filters : RecordFilters) (client client' : Client) (calls : List (Call F E)) : Prop :=
  ∃ (pages : List (Chunk F E)) (segments : List (List Poll)),
    calls = pages.map (fun c => ⟨filters, .ok c⟩) ∧
    client'.polled = client.polled ++ segments.flatten ∧
    List.Forall₂ (IsPage py service limits filters) segments pages ∧
    pages.flatMap (·.records) = matching py service filters (messagesOf segments.flatten)

/-- Any number of successive calls with the same filters end. They return the pages that they should
just when every message that they polled converts. -/
theorem successive_pages_iff (hscript : script.WellBehaved) (hfree : ErrorFree script)
    (hfinite : {n | ∃ k, (script n k).messages ≠ []}.Finite) {client : Client}
    (hpending : client.consumerError = none) :
    (∀ count : ℕ, ∃ (calls : List (Call F E)) (client' : Client), calls.length = count ∧
        (∀ call ∈ calls, call.filters = filters) ∧
        Run (CallStep py service limits script) client calls client') ∧
      ∀ calls client', Run (CallStep py service limits script) client calls client' →
        (∀ call ∈ calls, call.filters = filters) →
        (Paged py service limits filters client client' calls ↔
          ∀ m ∈ messagesOf (client'.polled.drop client.polled.length),
            Converts py service filters m) := by
  constructor
  · intro count
    suffices h : ∃ (calls : List (Call F E)) (client' : Client), calls.length = count ∧
        client'.consumerError = none ∧ (∀ call ∈ calls, call.filters = filters) ∧
        Run (CallStep py service limits script) client calls client' by
      obtain ⟨calls, client', hlength, -, hrun⟩ := h
      exact ⟨calls, client', hlength, hrun⟩
    induction count with
    | zero => exact ⟨[], client, rfl, hpending, fun _ => nofun, .nil⟩
    | succ count ih =>
      obtain ⟨calls, client', hlength, hnone, hfilters, hrun⟩ := ih
      obtain ⟨client'', outcome, hcall, hnone'⟩ := exists_call filters hscript hfinite hnone
      refine ⟨calls ++ [⟨filters, outcome⟩], client'', by simp [hlength], hnone', ?_, .snoc hrun hcall⟩
      rw [List.forall_mem_append, List.forall_mem_singleton]
      exact ⟨hfilters, rfl⟩
  · intro calls client' hrun hfilters
    obtain ⟨segments, hpolled, -, hends⟩ := calls_end hscript hpending hrun
    rw [hpolled, List.drop_left]
    constructor
    · rintro ⟨pages, -, rfl, -, -, -⟩
      exact converts_of_pages hends
    · intro hconverts
      obtain ⟨pages, hcalls, hpages, hrecords⟩ := hfree.pages hfilters hconverts hends
      exact ⟨pages, segments, hcalls, hpolled, hpages, hrecords⟩

/-- Three messages are paged in twos. -/
theorem three_messages_paged :
    ∃ (calls : List (Call FloatRepr Empty)) (client' : Client),
      calls.length = 2 ∧ client'.polled.length = 3 ∧
        Paged .plain octets pairs {} {} client' calls := by
  have hfree : ErrorFree (scripted [[tombstone 0 none, tombstone 1 none], [tombstone 2 none]]) := by
    refine ⟨fun n k error herror => absurd herror List.not_mem_nil, fun n k m hm => ?_⟩
    have hbatch := List.mem_of_mem_take hm
    rcases n with _ | _ | n
    · rcases List.mem_pair.mp hbatch with rfl | rfl <;> rfl
    · obtain rfl := List.mem_singleton.mp hbatch
      rfl
    · simp at hbatch
  obtain ⟨calls, client', hrun, hlength, hfilters, hpolled⟩ : ∃ calls client',
      Run (CallStep .plain octets pairs
        (scripted [[tombstone 0 none, tombstone 1 none], [tombstone 2 none]])) {} calls client' ∧
        calls.length = 2 ∧ (∀ call ∈ calls, call.filters = {}) ∧ client'.polled =
          [⟨[tombstone 0 none, tombstone 1 none], [], true⟩, ⟨[tombstone 2 none], [], true⟩,
            ⟨[], [], true⟩] := by
    refine ⟨[⟨{}, _⟩, ⟨{}, _⟩], _, .snoc (.snoc .nil ⟨10, rfl⟩) ⟨10, rfl⟩, rfl, ?_, rfl⟩
    simp
  refine ⟨calls, client', hlength, by rw [hpolled]; rfl, ?_⟩
  refine ((successive_pages_iff (scripted_wellBehaved _) hfree (scripted_finite _) rfl).2 calls client'
    hrun hfilters).mpr ?_
  rw [hpolled]
  intro m hm
  obtain ⟨offset, rfl⟩ : ∃ offset, m = tombstone offset none := by
    have hall : m ∈ [tombstone 0 none, tombstone 1 none, tombstone 2 none] := hm
    simp only [List.mem_cons, List.not_mem_nil, or_false] at hall
    rcases hall with rfl | rfl | rfl <;> exact ⟨_, rfl⟩
  exact (readable_iff.mp (tombstone_readable offset)).2

/-- `datetime` ends with the year 9999. -/
def lastYear : Interpreter FloatRepr Empty :=
  { Interpreter.plain with
    fromTimestamp := fun ms =>
      if ms = 253402300800000 then .error ⟨.valueError, text "year 10000 is out of range"⟩
      else Interpreter.plain.fromTimestamp ms }

def lateMessage : Message := { tombstone 0 none with timestamp := (1, 253402300800000) }

/-- No poll fails, and the call has no page. -/
theorem not_paged_late :
    (scripted [[lateMessage]]).WellBehaved ∧ ErrorFree (scripted [[lateMessage]]) ∧
      {n | ∃ k, (scripted [[lateMessage]] n k).messages ≠ []}.Finite ∧
      ∃ (e : PyException) (client' : Client), e.cls = .valueError ∧
        Run (CallStep lastYear octets pairs (scripted [[lateMessage]])) {} [⟨{}, .error e⟩] client' ∧
        ¬ Paged lastYear octets pairs {} {} client' [⟨{}, .error e⟩] := by
  refine ⟨scripted_wellBehaved _, ⟨fun n k error herror => absurd herror List.not_mem_nil, ?_⟩,
    scripted_finite _, ⟨.valueError, text "year 10000 is out of range"⟩, _, rfl,
    .snoc .nil ⟨10, rfl⟩, ?_⟩
  · intro n k m hm
    have hbatch := List.mem_of_mem_take hm
    rcases n with _ | n
    · obtain rfl := List.mem_singleton.mp hbatch
      rfl
    · simp at hbatch
  · rintro ⟨pages, -, hcalls, -⟩
    cases pages with
    | nil => cases hcalls
    | cons page pages => cases hcalls

end ConsumerService

end Kaskade
