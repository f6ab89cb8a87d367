import Kaskade.Runs
import Mathlib.Data.List.Forall2
import Mathlib.Logic.Function.Basic

/-!
# Memoised registration

Documents that refer to other documents are registered one by one: the references of a document
before the document itself, which is sent together with the results of its references. Completed
registrations are remembered over any number of calls, and nothing is sent after a failure in the
same call. How a request is built and how the registry answers are parameters; its answers may
depend on everything that was sent before.
-/

namespace Kaskade.Registration

/-- A document and those it refers to, each under a name. Documents with the same content and
references are the same. -/
inductive Document (ν α : Type) where
  | mk (content : α) (references : List (ν × Document ν α))

namespace Document

variable {ν α : Type}

def content : Document ν α → α
  | .mk content _ => content

def references : Document ν α → List (ν × Document ν α)
  | .mk _ references => references

variable [DecidableEq ν] [DecidableEq α]

mutual

def decEq : (d d' : Document ν α) → Decidable (d = d')
  | .mk content references, .mk content' references' =>
    match decEqReferences references references' with
    | isTrue h => decidable_of_iff (content = content') (by simp [h])
    | isFalse h => isFalse (by simp [h])

def decEqReferences : (r r' : List (ν × Document ν α)) → Decidable (r = r')
  | [], [] => isTrue rfl
  | [], _ :: _ => isFalse nofun
  | _ :: _, [] => isFalse nofun
  | (name, d) :: rest, (name', d') :: rest' =>
    match decEq d d', decEqReferences rest rest' with
    | isTrue h, isTrue h' => decidable_of_iff (name = name') (by simp [h, h'])
    | isFalse h, _ => isFalse (by simp [h])
    | _, isFalse h' => isFalse (by simp [h'])

end

instance : DecidableEq (Document ν α) := decEq

end Document

/-- The result of an outcome meets one condition, its error another. -/
structure Satisfies {A E : Type} (P : A → Prop) (N : E → Prop) (outcome : Except E A) : Prop where
  ok : ∀ a, outcome = .ok a → P a
  error : ∀ e, outcome = .error e → N e

namespace Satisfies

variable {A B E : Type} {P : A → Prop} {Q : B → Prop} {N : E → Prop}

theorem of_ok {a : A} (h : P a) : Satisfies P N (.ok a) := ⟨fun _ hb => Except.ok.inj hb ▸ h, nofun⟩

theorem of_error {e : E} (h : N e) : Satisfies P N (.error e) :=
  ⟨nofun, fun _ hb => Except.error.inj hb ▸ h⟩

theorem bind {outcome : Except E A} {next : A → Except E B} (h : Satisfies P N outcome)
    (hnext : ∀ a, P a → Satisfies Q N (next a)) : Satisfies Q N (outcome >>= next) := by
  cases outcome with
  | ok a => exact hnext a (h.ok a rfl)
  | error e => exact of_error (h.error e rfl)

theorem map {outcome : Except E A} {f : A → B} (h : Satisfies P N outcome)
    (hf : ∀ a, P a → Q (f a)) : Satisfies Q N (outcome.map f) := by
  cases outcome with
  | ok a => exact of_ok (hf a (h.ok a rfl))
  | error e => exact of_error (h.error e rfl)

end Satisfies

/-- What happens, in order: a call begins, or a document is sent under a key, with the request
and the answer. -/
inductive Event (κ ν α Q R E : Type) where
  | call
  | sent (key : κ) (document : Document ν α) (request : Q) (answer : Except E R)

structure State (κ ν α Q R E : Type) where
  registered : κ × Document ν α → Option R := fun _ => none
  log : List (Event κ ν α Q R E) := []

/-- The parameters `γ` of a call, the keys of references, the requests, and the answers after a
history. -/
structure Registrar (γ κ ν α Q R E : Type) where
  child : κ → ν → κ
  request : γ → κ → Document ν α → List R → Q
  answer : List (Event κ ν α Q R E) → Q → Except E R

variable {γ κ ν α Q R E : Type} [DecidableEq κ] [DecidableEq ν] [DecidableEq α]

namespace State

/-- The state after an event: a registration is completed when the registry answers it. -/
def append (s : State κ ν α Q R E) (event : Event κ ν α Q R E) : State κ ν α Q R E where
  registered := match event with
    | .sent key document _ (.ok result) =>
      Function.update s.registered (key, document) (some result)
    | _ => s.registered
  log := s.log ++ [event]

def stopped (s : State κ ν α Q R E) : Bool :=
  match s.log.getLast? with
  | some (.sent _ _ _ (.error _)) => true
  | _ => false

@[simp] theorem append_log (s : State κ ν α Q R E) (event : Event κ ν α Q R E) :
    (s.append event).log = s.log ++ [event] := rfl

@[simp] theorem append_registered_ok (s : State κ ν α Q R E) (key : κ) (document : Document ν α)
    (request : Q) (result : R) :
    (s.append (.sent key document request (.ok result))).registered =
      Function.update s.registered (key, document) (some result) := rfl

@[simp] theorem append_stopped_ok (s : State κ ν α Q R E) (key : κ) (document : Document ν α)
    (request : Q) (result : R) :
    (s.append (.sent key document request (.ok result))).stopped = false := by
  simp [stopped]

@[simp] theorem append_stopped_call (s : State κ ν α Q R E) : (s.append .call).stopped = false := by
  simp [stopped]

@[simp] theorem append_stopped_error (s : State κ ν α Q R E) (key : κ) (document : Document ν α)
    (request : Q) (e : E) : (s.append (.sent key document request (.error e))).stopped = true := by
  simp [stopped]

end State

namespace Registrar

variable (g : Registrar γ κ ν α Q R E) (parameters : γ)

def send (s : State κ ν α Q R E) (key : κ) (document : Document ν α) (results : List R) :
    Except E R × State κ ν α Q R E :=
  let request := g.request parameters key document results
  let answer := g.answer s.log request
  (answer, s.append (.sent key document request answer))

mutual

/-- A document is registered after its references, unless it is registered already. -/
def register (s : State κ ν α Q R E) (key : κ) : Document ν α → Except E R × State κ ν α Q R E
  | .mk content references =>
    match s.registered (key, .mk content references) with
    | some cached => (.ok cached, s)
    | none =>
      match registerReferences s key references with
      | (.error e, t) => (.error e, t)
      | (.ok results, t) => g.send parameters t key (.mk content references) results

def registerReferences (s : State κ ν α Q R E) (key : κ) :
    List (ν × Document ν α) → Except E (List R) × State κ ν α Q R E
  | [] => (.ok [], s)
  | (name, document) :: rest =>
    match register s (g.child key name) document with
    | (.error e, t) => (.error e, t)
    | (.ok result, t) =>
      match registerReferences t key rest with
      | (.error e, u) => (.error e, u)
      | (.ok results, u) => (.ok (result :: results), u)

end

def call (s : State κ ν α Q R E) :
    Option (γ × κ × Document ν α) → Option (Except E R) × State κ ν α Q R E
  | none => (none, s.append .call)
  | some (parameters, key, document) =>
    let (outcome, t) := g.register parameters (s.append .call) key document
    (some outcome, t)

def calls (s : State κ ν α Q R E) (all : List (Option (γ × κ × Document ν α))) :
    State κ ν α Q R E :=
  all.foldl (fun s call => (g.call s call).2) s

def ReferencesRegistered (s : State κ ν α Q R E) (key : κ) (document : Document ν α)
    (results : List R) : Prop :=
  List.Forall₂ (fun reference result => s.registered (g.child key reference.1, reference.2) = some result)
    document.references results

/-- A document is sent only while it is not registered, with the results of its references, and
only to a registry that has not failed in the same call. -/
inductive Step (s : State κ ν α Q R E) : Event κ ν α Q R E → State κ ν α Q R E → Prop where
  | call : Step s .call (s.append .call)
  | sent (parameters : γ) (key : κ) (document : Document ν α) (results : List R) {request : Q} :
      request = g.request parameters key document results → s.stopped = false →
      s.registered (key, document) = none → g.ReferencesRegistered s key document results →
      Step s (.sent key document request (g.answer s.log request))
        (s.append (.sent key document request (g.answer s.log request)))

/-- From one state to another by permitted steps, which register no document of a size from the
bound on. -/
structure Registers (s t : State κ ν α Q R E) (bound : ℕ) : Prop where
  run : ∃ events, Run g.Step s events t
  kept : ∀ pair result, s.registered pair = some result → t.registered pair = some result
  larger : ∀ pair, bound ≤ sizeOf pair.2 → t.registered pair = s.registered pair

variable {g} {parameters} {s t u : State κ ν α Q R E}

theorem Registers.refl (s : State κ ν α Q R E) (bound : ℕ) : g.Registers s s bound :=
  ⟨⟨[], .nil⟩, fun _ _ => id, fun _ _ => rfl⟩

theorem Registers.trans {n m bound : ℕ} (h : g.Registers s t n) (h' : g.Registers t u m)
    (hn : n ≤ bound) (hm : m ≤ bound) : g.Registers s u bound := by
  obtain ⟨events, hrun⟩ := h.run
  obtain ⟨events', hrun'⟩ := h'.run
  refine ⟨⟨_, hrun.append hrun'⟩, fun pair result hresult => h'.kept _ _ (h.kept _ _ hresult), ?_⟩
  intro pair hpair
  rw [h'.larger pair (Nat.le_trans hm hpair), h.larger pair (Nat.le_trans hn hpair)]

theorem send_spec {key : κ} {document : Document ν α} {results : List R} {outcome : Except E R}
    (hs : s.stopped = false) (hnew : s.registered (key, document) = none)
    (hreferences : g.ReferencesRegistered s key document results)
    (h : g.send parameters s key document results = (outcome, t)) :
    g.Registers s t (sizeOf document + 1) ∧
      ∀ result, outcome = .ok result →
        t.stopped = false ∧ t.registered (key, document) = some result := by
  obtain ⟨rfl, rfl⟩ := Prod.mk.inj h
  have hothers : ∀ {answer} pair, pair ≠ (key, document) →
      (s.append (.sent key document (g.request parameters key document results) answer)).registered
        pair = s.registered pair := by
    intro answer pair hpair
    cases answer with
    | ok result => exact Function.update_of_ne hpair _ _
    | error e => rfl
  refine ⟨⟨⟨_, Run.nil.snoc (.sent parameters key document results rfl hs hnew hreferences)⟩,
    ?_, ?_⟩, ?_⟩
  · intro pair result hresult
    rw [hothers pair]
    · exact hresult
    · rintro rfl
      cases hnew.symm.trans hresult
  · intro pair hpair
    apply hothers
    rintro rfl
    exact absurd hpair (Nat.not_succ_le_self _)
  · intro result hanswer
    rw [hanswer]
    exact ⟨State.append_stopped_ok _ _ _ _ _, Function.update_self _ _ _⟩

mutual

theorem register_spec {s t : State κ ν α Q R E} {key : κ} {outcome : Except E R}
    (hs : s.stopped = false) :
    ∀ document : Document ν α, g.register parameters s key document = (outcome, t) →
      g.Registers s t (sizeOf document + 1) ∧
        ∀ result, outcome = .ok result →
          t.stopped = false ∧ t.registered (key, document) = some result
  | .mk content references, h => by
    rw [register] at h
    split at h
    · rename_i cached hcached
      obtain ⟨rfl, rfl⟩ := Prod.mk.inj h
      refine ⟨.refl _ _, ?_⟩
      rintro _ ⟨⟩
      exact ⟨hs, hcached⟩
    · rename_i hnew
      have hsize : sizeOf references ≤ sizeOf (Document.mk content references) := by simp
      split at h
      · rename_i e u hreferences
        obtain ⟨rfl, rfl⟩ := Prod.mk.inj h
        have hregisters := (registerReferences_spec hs references hreferences).1
        exact ⟨hregisters.trans (.refl _ 0) (by omega) (Nat.zero_le _), nofun⟩
      · rename_i results u hreferences
        obtain ⟨hregisters, hresults⟩ := registerReferences_spec hs references hreferences
        obtain ⟨hstopped, hall⟩ := hresults results rfl
        -- the references are smaller than the document
        have hstill : u.registered (key, .mk content references) = none :=
          (hregisters.larger (key, .mk content references) hsize).trans hnew
        obtain ⟨hsend, hresult⟩ := send_spec hstopped hstill hall h
        exact ⟨hregisters.trans hsend (by omega) (Nat.le_refl _), hresult⟩

theorem registerReferences_spec {s t : State κ ν α Q R E} {key : κ} {outcome : Except E (List R)}
    (hs : s.stopped = false) :
    ∀ references : List (ν × Document ν α),
      g.registerReferences parameters s key references = (outcome, t) →
      g.Registers s t (sizeOf references) ∧
        ∀ results, outcome = .ok results → t.stopped = false ∧
          List.Forall₂
            (fun reference result => t.registered (g.child key reference.1, reference.2) = some result)
            references results
  | [], h => by
    rw [registerReferences] at h
    obtain ⟨rfl, rfl⟩ := Prod.mk.inj h
    refine ⟨.refl _ _, ?_⟩
    rintro _ ⟨⟩
    exact ⟨hs, .nil⟩
  | (name, document) :: rest, h => by
    rw [registerReferences] at h
    have hfirst : sizeOf document + 1 ≤ sizeOf ((name, document) :: rest) := by
      simp only [List.cons.sizeOf_spec, Prod.mk.sizeOf_spec]
      omega
    have hrest : sizeOf rest ≤ sizeOf ((name, document) :: rest) := by
      simp only [List.cons.sizeOf_spec]
      omega
    split at h
    · rename_i e u hdocument
      obtain ⟨rfl, rfl⟩ := Prod.mk.inj h
      have hregisters := (register_spec hs document hdocument).1
      exact ⟨hregisters.trans (.refl _ 0) hfirst (Nat.zero_le _), nofun⟩
    · rename_i result u hdocument
      obtain ⟨hregisters, hresult⟩ := register_spec hs document hdocument
      obtain ⟨hstopped, hregistered⟩ := hresult result rfl
      split at h
      · rename_i e v hreferences
        obtain ⟨rfl, rfl⟩ := Prod.mk.inj h
        have hmore := (registerReferences_spec hstopped rest hreferences).1
        exact ⟨hregisters.trans hmore hfirst hrest, nofun⟩
      · rename_i results v hreferences
        obtain ⟨rfl, rfl⟩ := Prod.mk.inj h
        obtain ⟨hmore, hresults⟩ := registerReferences_spec hstopped rest hreferences
        obtain ⟨hstill, hall⟩ := hresults results rfl
        refine ⟨hregisters.trans hmore hfirst hrest, ?_⟩
        rintro _ ⟨⟩
        exact ⟨hstill, .cons (hmore.kept _ _ hregistered) hall⟩

end

theorem run_log {events : List (Event κ ν α Q R E)} (hrun : Run g.Step s events t) :
    t.log = s.log ++ events := by
  induction hrun with
  | nil => exact (List.append_nil _).symm
  | snoc _ hstep ih =>
    rw [← List.append_assoc, ← ih]
    cases hstep <;> rfl

theorem run_registered {events : List (Event κ ν α Q R E)} (hrun : Run g.Step {} events s)
    (key : κ) (document : Document ν α) (result : R) :
    s.registered (key, document) = some result ↔
      ∃ request, .sent key document request (.ok result) ∈ events := by
  induction hrun with
  | nil => simp
  | @snoc events s t event hrun hstep ih =>
    cases hstep with
    | call => simpa [State.append] using ih
    | sent parameters key' document' results _ hstopped hnew _ =>
      cases hanswer : g.answer s.log _ with
      | error e => simpa [State.append] using ih
      | ok result' =>
        by_cases hpair : (key, document) = (key', document')
        · obtain ⟨rfl, rfl⟩ := Prod.mk.inj hpair
          -- the document was not registered before
          have hnone : ∀ request, .sent key document request (.ok result) ∉ events := by
            rw [← not_exists, ← ih, hnew]
            exact nofun
          simp [State.append, hnone, eq_comm]
        · have hne : ¬ (key = key' ∧ document = document') := fun h => hpair (h.1 ▸ h.2 ▸ rfl)
          simpa [State.append, Function.update_of_ne hpair, ← and_assoc, hne] using ih

variable (g) in
/-- What the log of a register shows: documents are sent after their references and with the
results that were returned for these, once they are completed they are not sent again, nothing is
sent after a failure in the same call, and whatever was completed is registered. -/
structure Sound (s : State κ ν α Q R E) : Prop where
  referencesFirst : ∀ before after key document request answer,
    s.log = before ++ .sent key document request answer :: after →
      ∃ parameters results, request = g.request parameters key document results ∧
        List.Forall₂
          (fun reference result =>
            ∃ request', .sent (g.child key reference.1) reference.2 request' (.ok result) ∈ before)
          document.references results
  answered : ∀ before after key document request answer,
    s.log = before ++ .sent key document request answer :: after → answer = g.answer before request
  sentOnce : ∀ before after key document request answer,
    s.log = before ++ .sent key document request answer :: after →
      ∀ request' result, .sent key document request' (.ok result) ∉ before
  stops : ∀ before after key document request e event,
    s.log = before ++ .sent key document request (.error e) :: event :: after → event = .call
  recorded : ∀ key document result, s.registered (key, document) = some result ↔
    ∃ request, .sent key document request (.ok result) ∈ s.log

theorem sound_of_run {events : List (Event κ ν α Q R E)} (hrun : Run g.Step {} events s) :
    g.Sound s := by
  have hlog : s.log = events := by simpa using run_log hrun
  have hsplit : ∀ {before after key document request answer},
      s.log = before ++ .sent key document request answer :: after →
      ∃ t u, Run g.Step {} before t ∧ g.Step t (.sent key document request answer) u ∧
        Run g.Step u after s := fun h => Run.split (h ▸ hlog ▸ hrun)
  refine ⟨?_, ?_, ?_, ?_, ?_⟩
  · intro before after key document request answer h
    obtain ⟨t, u, hbefore, hstep, -⟩ := hsplit h
    cases hstep with
    | sent parameters _ _ results hrequest _ _ hreferences =>
      refine ⟨parameters, results, hrequest, hreferences.imp fun reference result hresult => ?_⟩
      exact (run_registered hbefore _ _ _).mp hresult
  · intro before after key document request answer h
    obtain ⟨t, u, hbefore, hstep, -⟩ := hsplit h
    have hbeforeLog : t.log = before := by simpa using run_log hbefore
    cases hstep with
    | sent => rw [hbeforeLog]
  · intro before after key document request answer h request' result hmem
    obtain ⟨t, u, hbefore, hstep, -⟩ := hsplit h
    cases hstep with
    | sent _ _ _ _ _ _ hnew _ =>
      cases hnew.symm.trans ((run_registered hbefore _ _ _).mpr ⟨request', hmem⟩)
  · intro before after key document request e event h
    obtain ⟨t, u, -, hstep, hafter⟩ := hsplit h
    have hstopped : u.stopped = true := by
      generalize hanswer : Except.error e = answer at hstep
      cases hstep with
      | sent => rw [← hanswer, State.append_stopped_error]
    obtain ⟨v, hnext, -⟩ := Run.of_cons hafter
    cases hnext with
    | call => rfl
    | sent _ _ _ _ _ hrunning _ _ => cases hstopped.symm.trans hrunning
  · intro key document result
    rw [hlog]
    exact run_registered hrun key document result

/-- What is built from the references of a document and the results in their order. -/
theorem forall₂_zipWith {A B C : Type} {P : A → B → Prop} (f : A → B → C) {items : List A}
    {results : List B} (h : List.Forall₂ P items results) :
    List.Forall₂ (fun item built => ∃ result, P item result ∧ built = f item result) items
      (List.zipWith f items results) := by
  induction h with
  | nil => exact .nil
  | cons hfirst _ ih => exact .cons ⟨_, hfirst, rfl⟩ ih

theorem run_call {events : List (Event κ ν α Q R E)} (hrun : Run g.Step {} events s)
    (call : Option (γ × κ × Document ν α)) :
    ∃ events', Run g.Step {} events' (g.call s call).2 := by
  have hcall : Run g.Step {} _ (s.append .call) := hrun.snoc .call
  cases call with
  | none => exact ⟨_, hcall⟩
  | some call =>
    obtain ⟨parameters, key, document⟩ := call
    have hspec := register_spec (State.append_stopped_call s) document
      (Prod.eta (g.register parameters (s.append .call) key document)).symm
    obtain ⟨events', hregister⟩ := hspec.1.run
    exact ⟨_, hcall.append hregister⟩

theorem sound_calls (all : List (Option (γ × κ × Document ν α))) : g.Sound (g.calls {} all) := by
  suffices h : ∃ events, Run g.Step {} events (g.calls {} all) from
    h.elim fun _ hrun => sound_of_run hrun
  induction all using List.reverseRecOn with
  | nil => exact ⟨[], .nil⟩
  | append_singleton all call ih =>
    obtain ⟨events, hrun⟩ := ih
    rw [calls, List.foldl_append]
    exact run_call hrun call

def Remembers (P : R → Prop) (s : State κ ν α Q R E) : Prop :=
  ∀ pair result, s.registered pair = some result → P result

variable {P : R → Prop} {N : E → Prop}

theorem remembers_call (hs : Remembers P s) : Remembers P (s.append .call) := hs

theorem remembers_append {event : Event κ ν α Q R E} (hs : Remembers P s)
    (h : ∀ key document request result, event = .sent key document request (.ok result) → P result) :
    Remembers P (s.append event) := by
  intro pair result hresult
  cases event with
  | call => exact hs pair result hresult
  | sent key document request answer =>
    cases answer with
    | error e => exact hs pair result hresult
    | ok answered =>
      by_cases hpair : pair = (key, document)
      · subst hpair
        rw [State.append_registered_ok, Function.update_self] at hresult
        obtain rfl := Option.some.inj hresult
        exact h key document request _ rfl
      · rw [State.append_registered_ok, Function.update_of_ne hpair] at hresult
        exact hs pair result hresult

mutual

theorem register_satisfies (hanswers : ∀ history request, Satisfies P N (g.answer history request))
    {s t : State κ ν α Q R E} {key : κ} {outcome : Except E R} (hs : Remembers P s) :
    ∀ document : Document ν α, g.register parameters s key document = (outcome, t) →
      Remembers P t ∧ Satisfies P N outcome
  | .mk content references, h => by
    rw [register] at h
    split at h
    · rename_i cached hcached
      obtain ⟨rfl, rfl⟩ := Prod.mk.inj h
      exact ⟨hs, Satisfies.of_ok (hs _ _ hcached)⟩
    · split at h
      · rename_i e u hreferences
        obtain ⟨rfl, rfl⟩ := Prod.mk.inj h
        obtain ⟨hu, hfailed⟩ := registerReferences_satisfies hanswers hs references hreferences
        exact ⟨hu, Satisfies.of_error (hfailed.error e rfl)⟩
      · rename_i results u hreferences
        obtain ⟨hu, -⟩ := registerReferences_satisfies hanswers hs references hreferences
        obtain ⟨rfl, rfl⟩ := Prod.mk.inj h
        refine ⟨remembers_append hu ?_, hanswers _ _⟩
        rintro key' document' request result heq
        injection heq with _ _ _ hanswer
        exact (hanswers _ _).ok result hanswer

theorem registerReferences_satisfies
    (hanswers : ∀ history request, Satisfies P N (g.answer history request))
    {s t : State κ ν α Q R E} {key : κ} {outcome : Except E (List R)} (hs : Remembers P s) :
    ∀ references : List (ν × Document ν α),
      g.registerReferences parameters s key references = (outcome, t) →
      Remembers P t ∧ Satisfies (fun _ => True) N outcome
  | [], h => by
    rw [registerReferences] at h
    obtain ⟨rfl, rfl⟩ := Prod.mk.inj h
    exact ⟨hs, Satisfies.of_ok trivial⟩
  | (name, document) :: rest, h => by
    rw [registerReferences] at h
    split at h
    · rename_i e u hdocument
      obtain ⟨rfl, rfl⟩ := Prod.mk.inj h
      obtain ⟨hu, hfailed⟩ := register_satisfies hanswers hs document hdocument
      exact ⟨hu, Satisfies.of_error (hfailed.error e rfl)⟩
    · rename_i result u hdocument
      obtain ⟨hu, -⟩ := register_satisfies hanswers hs document hdocument
      split at h
      · rename_i e v hrest
        obtain ⟨rfl, rfl⟩ := Prod.mk.inj h
        obtain ⟨hv, hfailed⟩ := registerReferences_satisfies hanswers hu rest hrest
        exact ⟨hv, Satisfies.of_error (hfailed.error e rfl)⟩
      · rename_i results v hrest
        obtain ⟨rfl, rfl⟩ := Prod.mk.inj h
        exact ⟨(registerReferences_satisfies hanswers hu rest hrest).1, Satisfies.of_ok trivial⟩

end

theorem remembers_calls (hanswers : ∀ history request, Satisfies P N (g.answer history request))
    (all : List (Option (γ × κ × Document ν α))) : Remembers P (g.calls {} all) := by
  induction all using List.reverseRecOn with
  | nil => exact nofun
  | append_singleton all call ih =>
    rw [calls, List.foldl_append, List.foldl_cons, List.foldl_nil]
    have hcall : Remembers P ((g.calls {} all).append .call) := remembers_call ih
    cases call with
    | none => exact hcall
    | some call =>
      obtain ⟨parameters, key, document⟩ := call
      exact (register_satisfies hanswers hcall document (Prod.eta _).symm).1

end Registrar

end Kaskade.Registration
