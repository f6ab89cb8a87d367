import Kaskade.Interpreter

/-!
# Requests to Apicurio

`ApicurioClient._request`: a request is sent again after transport errors and server failures, as
often as the configuration allows, and once with a fresh token after a refusal. What the registry
and the token endpoint answer are parameters; the pauses between attempts only take time.
-/

namespace Kaskade

open Python

/-- A response, as far as `_request` reads it. -/
structure HttpResponse where
  statusCode : ℕ
  content : Bytes

/-- What `http.request` does. -/
inductive HttpAnswer where
  /-- It raises an `httpx.HTTPError`. -/
  | failed (message : Text)
  | response (response : HttpResponse)

namespace ApicurioRequest

/-- The variables of `_request`, the token that the client holds, and what was sent: whether each
token request was forced, and the `Authorization` of each request. -/
structure Loop where
  attempt : ℕ := 0
  refreshed : Bool := false
  token : Option Text
  posts : List Bool := []
  requests : List (Option Text) := []

/-- A client, with what it is answered during one call of `_request`. -/
structure Client where
  retryCount : ℕ
  /-- Whether a token endpoint is configured. -/
  usesTokens : Bool
  /-- The answer to the request of a number. -/
  answers : ℕ → HttpAnswer
  /-- Whether the token that is held has not expired. -/
  fresh : Loop → Bool
  /-- The token that the endpoint gives, if it gives one. -/
  tokens : Loop → Option Text
  /-- The message of the `HTTPStatusError` of a response. -/
  statusMessage : HttpResponse → Text

variable {F E : Type} [PyFloat F] (py : Interpreter F E) (client : Client)

def oauthToken (force : Bool) (s : Loop) : Outcome (Option Text) × Loop :=
  if !client.usesTokens then (.ok none, s)
  else if !force && s.token.isSome && client.fresh s then (.ok s.token, s)
  else
    let sent := { s with posts := s.posts ++ [force] }
    match client.tokens s with
    | some token => (.ok (some token), { sent with token := some token })
    | none => (.error ⟨.apicurioRegistryError, text "OAuth token request failed"⟩, sent)

def problemDetail (response : HttpResponse) : Outcome Text :=
  Outcome.tryExcept
    (do
      let body : Value F E ← py.loadsBytes response.content
      match body with
      | .dict entries =>
        match entries.lookup (text "detail") with
        | some (.str (c :: detail)) => return text "; " ++ c :: detail
        | _ => return []
      | _ => .error ⟨.attributeError, text "object has no attribute 'get'"⟩)
    [.attributeError, .valueError] fun _ => .ok []

/-- `raise_for_status`, with the handler around it. -/
def raiseForStatus (response : HttpResponse) : Outcome HttpResponse :=
  if 200 ≤ response.statusCode ∧ response.statusCode ≤ 299 then .ok response
  else do
    let detail ← problemDetail py response
    .error ⟨.apicurioRegistryError,
      text "Apicurio request failed: " ++ client.statusMessage response ++ detail⟩

/-- What a turn of the loop does: the loop goes on, or it is left. -/
inductive Turn where
  | again (s : Loop)
  | ended (outcome : Outcome HttpResponse) (s : Loop)

def turn (s : Loop) : Turn :=
  match oauthToken client false s with
  | (.error e, s) => .ended (.error e) s
  | (.ok token, s) =>
    let answer := client.answers s.requests.length
    let s := { s with requests := s.requests ++ [token.map (text "Bearer " ++ ·)] }
    match answer with
    | .failed message =>
      let s := { s with attempt := s.attempt + 1 }
      if client.retryCount + 1 ≤ s.attempt then
        .ended (.error ⟨.apicurioRegistryError, text "Apicurio request failed: " ++ message⟩) s
      else .again s
    | .response response =>
      if response.statusCode = 401 ∧ token.isSome ∧ s.refreshed = false then
        match oauthToken client true { s with refreshed := true } with
        | (.error e, s) => .ended (.error e) s
        | (.ok _, s) => .again s
      else if response.statusCode = 429 ∨ 500 ≤ response.statusCode then
        let s := { s with attempt := s.attempt + 1 }
        if s.attempt < client.retryCount + 1 then .again s
        else .ended (raiseForStatus py client response) s
      else .ended (raiseForStatus py client response) s

variable {py client} {s t : Loop}

def Loop.forced (s : Loop) : ℕ := s.posts.count true

/-- A token request changes nothing but the token and what was sent for it. -/
theorem oauthToken_spec {force : Bool} {outcome : Outcome (Option Text)}
    (h : oauthToken client force s = (outcome, t)) :
    t.attempt = s.attempt ∧ t.refreshed = s.refreshed ∧ t.requests = s.requests ∧
      t.forced ≤ s.forced + force.toNat := by
  rw [oauthToken] at h
  split_ifs at h with husesTokens hheld
  · obtain ⟨-, rfl⟩ := Prod.mk.inj h
    exact ⟨rfl, rfl, rfl, Nat.le_add_right _ _⟩
  · obtain ⟨-, rfl⟩ := Prod.mk.inj h
    exact ⟨rfl, rfl, rfl, Nat.le_add_right _ _⟩
  · have hcount : (s.posts ++ [force]).count true ≤ s.forced + force.toNat := by
      rw [List.count_append, Loop.forced]
      cases force <;> simp
    dsimp only at h
    split at h <;> obtain ⟨-, rfl⟩ := Prod.mk.inj h <;> exact ⟨rfl, rfl, rfl, hcount⟩

/-- Every turn that goes on has counted a failure, or refreshed the token. -/
theorem turn_again (h : turn py client s = .again t) :
    (t.attempt = s.attempt + 1 ∧ t.attempt < client.retryCount + 1 ∧ t.refreshed = s.refreshed) ∨
      (t.attempt = s.attempt ∧ s.refreshed = false ∧ t.refreshed = true) := by
  rw [turn] at h
  cases htoken : oauthToken client false s with
  | mk outcome u =>
    obtain ⟨hattempt, hrefreshed, -, -⟩ := oauthToken_spec htoken
    rw [htoken] at h
    cases outcome with
    | error e => cases h
    | ok token =>
      dsimp only at h
      split at h
      · split_ifs at h with hlast
        obtain rfl := Turn.again.inj h
        exact .inl ⟨by rw [← hattempt], by simpa using hlast, hrefreshed⟩
      · split_ifs at h with hunauthorized hcounted hlast
        · split at h
          · cases h
          · rename_i hforced
            obtain ⟨hattempt', hrefreshed', -, -⟩ := oauthToken_spec hforced
            obtain rfl := Turn.again.inj h
            exact .inr ⟨hattempt'.trans hattempt, hrefreshed ▸ hunauthorized.2.2, hrefreshed'⟩
        · obtain rfl := Turn.again.inj h
          exact .inl ⟨by rw [← hattempt], hlast, hrefreshed⟩

variable (py client) in
def requestLoop (s : Loop) : Outcome HttpResponse × Loop :=
  if s.attempt < client.retryCount + 1 then
    match _h : turn py client s with
    | .again t => requestLoop t
    | .ended outcome t => (outcome, t)
  else (.error ⟨.apicurioRegistryError, text "Apicurio request failed"⟩, s)
termination_by 2 * (client.retryCount + 1 - s.attempt) + (!s.refreshed).toNat
decreasing_by
  rcases turn_again _h with ⟨hattempt, -, hrefreshed⟩ | ⟨hattempt, hbefore, hafter⟩
  · rw [hattempt, hrefreshed]
    omega
  · rw [hattempt, hbefore, hafter]
    simp

variable (py client) in
/-- `_request`, of a client that may hold a token from before. -/
def request (token : Option Text) : Outcome HttpResponse × Loop :=
  requestLoop py client { token := token }

def Counted : HttpAnswer → Prop
  | .failed _ => True
  | .response response => response.statusCode = 429 ∨ 500 ≤ response.statusCode

def Unauthorized : HttpAnswer → Prop
  | .failed _ => False
  | .response response => response.statusCode = 401

/-- A response that `raise_for_status` accepts. -/
def Successful (response : HttpResponse) : Prop :=
  200 ≤ response.statusCode ∧ response.statusCode ≤ 299

instance : DecidablePred Counted
  | .failed _ => .isTrue trivial
  | .response response => inferInstanceAs (Decidable (response.statusCode = 429 ∨ 500 ≤ _))

variable (client) in
def failures (n : ℕ) : ℕ := (List.range n).countP fun i => Counted (client.answers i)

variable (client) in
/-- A 401 that lets the token be refreshed: the first, when a token is used. -/
def Refreshes (n : ℕ) : Prop :=
  client.usesTokens = true ∧ Unauthorized (client.answers n) ∧
    ∀ i < n, ¬ Unauthorized (client.answers i)

variable (client) in
/-- The answer to the request of a number is of a kind that is retried. -/
def Retriable (n : ℕ) : Prop := Counted (client.answers n) ∨ Refreshes client n

variable (client) in
/-- The request is sent again after the answer to the request of a number. -/
def SentAgain (n : ℕ) : Prop :=
  (Counted (client.answers n) ∧ failures client n < client.retryCount) ∨ Refreshes client n

variable (client) in
/-- The answer to the request of a number is the last one. -/
structure Last (n : ℕ) : Prop where
  before : ∀ i < n, SentAgain client i
  not_sentAgain : ¬ SentAgain client n

variable (py client) in
def conclude : HttpAnswer → Outcome HttpResponse
  | .failed message =>
    .error ⟨.apicurioRegistryError, text "Apicurio request failed: " ++ message⟩
  | .response response => raiseForStatus py client response

theorem Last.unique {n m : ℕ} (hn : Last client n) (hm : Last client m) : n = m := by
  rcases Nat.lt_trichotomy n m with hlt | heq | hlt
  · exact absurd (hm.before n hlt) hn.not_sentAgain
  · exact heq
  · exact absurd (hn.before m hlt) hm.not_sentAgain

variable (py client) in
/-- What is asked of a call of `_request`, of a client that may hold a token from before. -/
structure Meets (token : Option Text) : Prop where
  sends : (request py client token).2.requests.length ≤ client.retryCount + 2
  refreshes : (request py client token).2.forced ≤ 1
  /-- Only transport errors, 429 and server failures, and a 401 if a token is used and it is the
  first, are followed by another request. -/
  retries : ∀ i, i + 1 < (request py client token).2.requests.length → Retriable client i
  /-- The first successful response is returned if few counted failures and nothing that is not
  retried came before it. -/
  returns : ∀ response, (request py client token).1 = .ok response ↔
    ∃ n, client.answers n = .response response ∧ Successful response ∧
      failures client n ≤ client.retryCount ∧ ∀ i < n, Retriable client i
  raises : ∀ e, (request py client token).1 = .error e → e.cls = .apicurioRegistryError

end ApicurioRequest

end Kaskade
