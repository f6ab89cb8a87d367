import Kaskade.Exceptions
import Kaskade.TimedCaches

/-!
# What an Apicurio client keeps

`ApicurioClient` keeps the answers of the registry for `check-period-ms`, and the token of the token
endpoint until shortly before it expires. The times are those of `time.monotonic()`.
-/

namespace Kaskade

open Python

inductive AnswerKey where
  | artifact (useId : Text) (artifactId : ℤ)
  | version (group artifact version : Text)
  | reference (group artifact version : Text)
  | metadata (useId : Text) (artifactId : ℤ)
deriving DecidableEq

/-- `access_token` and `expires_in` of the token endpoint. When it granted the token is not part of
its answer. -/
structure TokenGrant where
  token : Text
  expiresIn : Option ℤ
  grantedAt : ℚ

namespace TokenGrant

/-- `expires_in` of `_oauth_token`. -/
def lifetime (grant : TokenGrant) : ℤ := max 0 (grant.expiresIn.getD 60)

/-- How long before its end a token is given up. -/
def margin (grant : TokenGrant) : ℚ := min 30 (grant.lifetime / 10)

theorem lifetime_nonneg (grant : TokenGrant) : 0 ≤ grant.lifetime := le_max_left 0 _

theorem margin_le_lifetime (grant : TokenGrant) : grant.margin ≤ grant.lifetime := by
  have hlifetime : (0 : ℚ) ≤ grant.lifetime := by exact_mod_cast grant.lifetime_nonneg
  have hmargin : grant.margin ≤ grant.lifetime / 10 := min_le_right 30 _
  linarith

end TokenGrant

/-- A request to the token endpoint, and what it granted. -/
structure TokenPost where
  askedAt : ℚ
  answer : Option TokenGrant

/-- What an `ApicurioClient` keeps, and what it asked of the token endpoint. -/
structure ApicurioSession (β : Type) where
  checkPeriodMs : ℕ
  hasTokenEndpoint : Bool
  cache : LruCache AnswerKey (ℚ × β)
  token : Option Text
  tokenExpiresAt : ℚ
  posts : List TokenPost

inductive SessionEvent (β : Type) where
  | lookup (now : ℚ) (key : AnswerKey)
  | store (now : ℚ) (key : AnswerKey) (value : β)
  | token (now : ℚ) (force : Bool) (answer : Option TokenGrant)

/-- The time of a use of the cache or of a token request. -/
def SessionEvent.now {β : Type} : SessionEvent β → ℚ
  | .lookup now _ => now
  | .store now _ _ => now
  | .token now _ _ => now

namespace ApicurioSession

variable {β : Type}

/-- `APICURIO_CACHE_CAPACITY`. -/
def cacheCapacity : ℕ := 1000

/-- `ApicurioClient.__init__`. -/
def new (checkPeriodMs : ℕ) (hasTokenEndpoint : Bool) : ApicurioSession β where
  checkPeriodMs := checkPeriodMs
  hasTokenEndpoint := hasTokenEndpoint
  cache := LruCache.new cacheCapacity
  token := none
  tokenExpiresAt := 0
  posts := []

def cached (s : ApicurioSession β) (now : ℚ) (key : AnswerKey) : Option β × ApicurioSession β :=
  let found := TimedCache.lookup s.checkPeriodMs s.cache now key
  (found.1, { s with cache := found.2 })

def store (s : ApicurioSession β) (now : ℚ) (key : AnswerKey) (value : β) : ApicurioSession β :=
  { s with cache := TimedCache.store s.cache now key value }

def oauthToken (s : ApicurioSession β) (now : ℚ) (force : Bool) (answer : Option TokenGrant) :
    Outcome (Option Text) × ApicurioSession β :=
  if !s.hasTokenEndpoint then (.ok none, s)
  else if !force && s.token.isSome && decide (now < s.tokenExpiresAt) then (.ok s.token, s)
  else
    let asked := { s with posts := s.posts ++ [⟨now, answer⟩] }
    match answer with
    | none => (.error ⟨.apicurioRegistryError, text "OAuth token request failed"⟩, asked)
    | some grant =>
      -- `now` was read before the request.
      (.ok (some grant.token),
        { asked with
          token := some grant.token
          tokenExpiresAt := now + max 0 (grant.lifetime - grant.margin) })

def step (s : ApicurioSession β) : SessionEvent β → ApicurioSession β
  | .lookup now key => (s.cached now key).2
  | .store now key value => s.store now key value
  | .token now force answer => (s.oauthToken now force answer).2

def run (checkPeriodMs : ℕ) (hasTokenEndpoint : Bool) (events : List (SessionEvent β)) :
    ApicurioSession β :=
  events.foldl step (new checkPeriodMs hasTokenEndpoint)

/-- How `get_version`, `get_referenced_artifact` and `get_metadata` answer: what is kept under the key,
or else what the requests give, which is stored. Says also whether requests were sent. -/
def answer (s : ApicurioSession β) (key : AnswerKey) (started : ℚ) (requests : Outcome β)
    (finished : ℚ) : Outcome β × Bool × ApicurioSession β :=
  match s.cached started key with
  | (some value, s) => (.ok value, false, s)
  | (none, s) =>
    match requests with
    | .error e => (.error e, true, s)
    | .ok value => (.ok value, true, s.store finished key value)

variable {checkPeriodMs : ℕ} {hasTokenEndpoint : Bool} {events : List (SessionEvent β)}
  {s : ApicurioSession β} {key : AnswerKey} {value : β} {now started createdAt : ℚ}

theorem run_concat (events : List (SessionEvent β)) (last : SessionEvent β) :
    run checkPeriodMs hasTokenEndpoint (events ++ [last]) =
      (run checkPeriodMs hasTokenEndpoint events).step last :=
  List.foldl_concat _ _ _ _

@[simp] theorem oauthToken_config (s : ApicurioSession β) (now : ℚ) (force : Bool)
    (answer : Option TokenGrant) :
    (s.oauthToken now force answer).2.checkPeriodMs = s.checkPeriodMs ∧
      (s.oauthToken now force answer).2.hasTokenEndpoint = s.hasTokenEndpoint ∧
      (s.oauthToken now force answer).2.cache = s.cache := by
  rw [oauthToken]
  split_ifs
  · exact ⟨rfl, rfl, rfl⟩
  · exact ⟨rfl, rfl, rfl⟩
  · cases answer <;> exact ⟨rfl, rfl, rfl⟩

def cacheUse : SessionEvent β → Option (TimedOperation AnswerKey β)
  | .lookup now key => some (.lookup now key)
  | .store now key value => some (.store now key value)
  | .token _ _ _ => none

/-- The token requests leave the answers alone. -/
theorem run_cache (checkPeriodMs : ℕ) (hasTokenEndpoint : Bool) (events : List (SessionEvent β)) :
    (run checkPeriodMs hasTokenEndpoint events).checkPeriodMs = checkPeriodMs ∧
      (run checkPeriodMs hasTokenEndpoint events).hasTokenEndpoint = hasTokenEndpoint ∧
      (run checkPeriodMs hasTokenEndpoint events).cache =
        TimedCache.run checkPeriodMs cacheCapacity (events.filterMap cacheUse) := by
  induction events using List.reverseRecOn with
  | nil => exact ⟨rfl, rfl, rfl⟩
  | append_singleton events last ih =>
    obtain ⟨hperiod, hendpoint, hcache⟩ := ih
    rw [run_concat, List.filterMap_append]
    cases last with
    | lookup now key =>
      refine ⟨hperiod, hendpoint, ?_⟩
      have hlookup : List.filterMap cacheUse [SessionEvent.lookup now key] =
          [(.lookup now key : TimedOperation AnswerKey β)] := rfl
      rw [hlookup, TimedCache.run_concat, ← hcache]
      simp only [step, cached, TimedCache.perform, hperiod]
    | store now key value =>
      refine ⟨hperiod, hendpoint, ?_⟩
      have hstore : List.filterMap cacheUse [SessionEvent.store now key value] =
          [.store now key value] := rfl
      rw [hstore, TimedCache.run_concat, ← hcache]
      rfl
    | token now force answer =>
      obtain ⟨hperiod', hendpoint', hcache'⟩ :=
        (run checkPeriodMs hasTokenEndpoint events).oauthToken_config now force answer
      refine ⟨hperiod'.trans hperiod, hendpoint'.trans hendpoint, ?_⟩
      have htoken : List.filterMap cacheUse [SessionEvent.token (β := β) now force answer] = [] := rfl
      rw [htoken, List.append_nil, ← hcache]
      exact hcache'

theorem cached_run (checkPeriodMs : ℕ) (hasTokenEndpoint : Bool) (events : List (SessionEvent β))
    (now : ℚ) (key : AnswerKey) :
    ((run checkPeriodMs hasTokenEndpoint events).cached now key).1 =
      (TimedCache.lookup checkPeriodMs
        (TimedCache.run checkPeriodMs cacheCapacity (events.filterMap cacheUse)) now key).1 := by
  obtain ⟨hperiod, -, hcache⟩ := run_cache checkPeriodMs hasTokenEndpoint events
  rw [cached, hperiod, hcache]

/-- No request is sent exactly when an answer is kept. -/
theorem answer_eq (s : ApicurioSession β) (key : AnswerKey) (started : ℚ) (requests : Outcome β)
    (finished : ℚ) :
    ((s.answer key started requests finished).2.1 = false ↔
        ∃ value, (s.cached started key).1 = some value) ∧
      ∀ value, (s.cached started key).1 = some value →
        (s.answer key started requests finished).1 = .ok value := by
  rw [answer]
  cases hcached : s.cached started key with
  | mk found rest =>
    cases found with
    | some value => exact ⟨⟨fun _ => ⟨value, rfl⟩, fun _ => rfl⟩, fun other h => by rw [Option.some.inj h]⟩
    | none => cases requests <;> simp

theorem expired_iff {period : ℕ} : ¬TimedCache.Expired period createdAt now ↔
    0 < period ∧ (now - createdAt) * 1000 < period := by
  rw [TimedCache.Expired, not_or, not_le, Nat.pos_iff_ne_zero]

/-- In every run, an answer that is given without a request is the last one that was stored under
its key, and it was stored less than the check period ago; a check period of zero gives none. -/
theorem answered_recently (requests : Outcome β) (finished : ℚ)
    (h : ((run checkPeriodMs hasTokenEndpoint events).answer key started requests
      finished).2.1 = false) :
    ∃ value createdAt, ((run checkPeriodMs hasTokenEndpoint events).answer key started requests
        finished).1 = .ok value ∧
      TimedOperation.LastStored (events.filterMap cacheUse) key createdAt value ∧
      0 < checkPeriodMs ∧ (started - createdAt) * 1000 < checkPeriodMs := by
  obtain ⟨hkept, hvalue⟩ := (run checkPeriodMs hasTokenEndpoint events).answer_eq key started
    requests finished
  obtain ⟨value, hcached⟩ := hkept.mp h
  have hanswer := hvalue value hcached
  rw [cached_run] at hcached
  have hcapacity : 1 ≤ cacheCapacity := by decide
  obtain ⟨createdAt, hstored, hrecent⟩ := TimedCache.lookup_run hcapacity hcached
  exact ⟨value, createdAt, hanswer, hstored, expired_iff.mp hrecent⟩

theorem answered_recently_order :
    ∃ value createdAt, ((run 30000 false [.store 2 (.version [] (text "order") []) 7]).answer
        (.version [] (text "order") []) 12 (.ok 8) 13).1 = .ok value ∧
      TimedOperation.LastStored [.store 2 (AnswerKey.version [] (text "order") []) 7]
        (.version [] (text "order") []) createdAt value ∧
      0 < 30000 ∧ (12 - createdAt) * 1000 < 30000 := by
  have h : ((run 30000 false [.store 2 (.version [] (text "order") []) 7]).answer
      (.version [] (text "order") []) 12 (.ok 8) 13).2.1 = false := by decide +kernel
  exact answered_recently (.ok 8) 13 h

def keysUsed (events : List (SessionEvent β)) : Finset AnswerKey :=
  ((events.filterMap cacheUse).map TimedOperation.key).toFinset

/-- An answer that was stored is given again without a request as long as its check period is not
over, nothing else was stored under its key, and fewer than a thousand other keys were used since,
whatever the registry would answer by now. -/
theorem answered_from_store {before after : List (SessionEvent β)}
    (hstore : ∀ t v, .store t key v ∉ after) (hclock : ∀ event ∈ after, event.now ≤ started)
    (hothers : ((keysUsed after).erase key).card < cacheCapacity) (hperiod : 0 < checkPeriodMs)
    (hrecent : (started - createdAt) * 1000 < checkPeriodMs) (requests : Outcome β) (finished : ℚ) :
    ((run checkPeriodMs hasTokenEndpoint (before ++ .store createdAt key value :: after)).answer key
        started requests finished).2.1 = false ∧
      ((run checkPeriodMs hasTokenEndpoint (before ++ .store createdAt key value :: after)).answer key
        started requests finished).1 = .ok value := by
  have hcapacity : 1 ≤ cacheCapacity := by decide
  have hstored : ∀ t v, .store t key v ∉ after.filterMap cacheUse := by
    intro t v hmem
    obtain ⟨event, hevent, huse⟩ := List.mem_filterMap.mp hmem
    cases event with
    | lookup now other => cases huse
    | store now other w =>
      cases huse
      exact hstore t v hevent
    | token now force answer => cases huse
  have hlooked : ∀ t, .lookup t key ∈ after.filterMap cacheUse →
      ¬TimedCache.Expired checkPeriodMs createdAt t := by
    intro t hmem
    obtain ⟨event, hevent, huse⟩ := List.mem_filterMap.mp hmem
    cases event with
    | lookup now other =>
      cases huse
      have hbefore : t ≤ started := hclock _ hevent
      exact expired_iff.mpr ⟨hperiod, by linarith⟩
    | store now other w => cases huse
    | token now force answer => cases huse
  have hcached : (TimedCache.lookup checkPeriodMs (TimedCache.run checkPeriodMs cacheCapacity
      (before.filterMap cacheUse ++ .store createdAt key value :: after.filterMap cacheUse))
      started key).1 = some value :=
    TimedCache.lookup_stored hcapacity hstored hlooked hothers (expired_iff.mpr ⟨hperiod, hrecent⟩)
  obtain ⟨hkept, hvalue⟩ := (run checkPeriodMs hasTokenEndpoint
    (before ++ .store createdAt key value :: after)).answer_eq key started requests finished
  have huses : (before ++ .store createdAt key value :: after).filterMap cacheUse =
      before.filterMap cacheUse ++ .store createdAt key value :: after.filterMap cacheUse := by
    rw [List.filterMap_append]
    rfl
  rw [← huses, ← cached_run checkPeriodMs hasTokenEndpoint] at hcached
  exact ⟨hkept.mpr ⟨value, hcached⟩, hvalue value hcached⟩

theorem answered_from_store_order :
    ((run 30000 false ([] ++ .store 2 (.artifact [] 4) 'a' :: [.lookup 3 (.artifact [] 4),
        .store 5 (.metadata [] 4) 'b'])).answer (.artifact [] 4) 6 (.ok 'c') 7).2.1 = false ∧
      ((run 30000 false ([] ++ .store 2 (.artifact [] 4) 'a' :: [.lookup 3 (.artifact [] 4),
        .store 5 (.metadata [] 4) 'b'])).answer (.artifact [] 4) 6 (.ok 'c') 7).1 = .ok 'a' := by
  apply answered_from_store
  · simp
  · simp only [List.forall_mem_cons]
    exact ⟨by norm_num [SessionEvent.now], by norm_num [SessionEvent.now], by simp⟩
  · decide
  · decide
  · norm_num

/-- The last token that was granted, and when it was asked for. -/
def lastGrant (posts : List TokenPost) : Option (ℚ × TokenGrant) :=
  posts.reverse.findSome? fun post => post.answer.map (post.askedAt, ·)

/-- When a token that was asked for at a time is given up. -/
def heldUntil (askedAt : ℚ) (grant : TokenGrant) : ℚ := askedAt + (grant.lifetime - grant.margin)

/-- The token that is held is the last one granted, every grant came after it was asked for. -/
structure HoldsGranted (s : ApicurioSession β) : Prop where
  token : s.token = (lastGrant s.posts).map (·.2.token)
  expires : ∀ askedAt grant, lastGrant s.posts = some (askedAt, grant) →
    s.tokenExpiresAt = heldUntil askedAt grant ∧ askedAt ≤ grant.grantedAt

theorem lastGrant_concat (posts : List TokenPost) (post : TokenPost) :
    lastGrant (posts ++ [post]) =
      (post.answer.map (post.askedAt, ·)).or (lastGrant posts) := by
  rw [lastGrant, List.reverse_concat, List.findSome?_cons]
  cases post.answer <;> rfl

/-- A token request reuses the token that is held, or asks the endpoint. -/
theorem oauthToken_cases (s : ApicurioSession β) (hendpoint : s.hasTokenEndpoint = true) (now : ℚ)
    (force : Bool) (answer : Option TokenGrant) :
    (force = false ∧ s.token.isSome = true ∧ now < s.tokenExpiresAt ∧
        s.oauthToken now force answer = (.ok s.token, s)) ∨
      ((force = true ∨ s.token = none ∨ s.tokenExpiresAt ≤ now) ∧
        (s.oauthToken now force answer).2.posts = s.posts ++ [⟨now, answer⟩] ∧
        (answer = none → (s.oauthToken now force answer).2.token = s.token ∧
          (s.oauthToken now force answer).2.tokenExpiresAt = s.tokenExpiresAt) ∧
        ∀ grant, answer = some grant →
          (s.oauthToken now force answer).1 = .ok (some grant.token) ∧
          (s.oauthToken now force answer).2.token = some grant.token ∧
          (s.oauthToken now force answer).2.tokenExpiresAt = heldUntil now grant) := by
  have hwhole : ∀ grant : TokenGrant, max 0 ((grant.lifetime : ℚ) - grant.margin) =
      grant.lifetime - grant.margin := fun grant =>
    max_eq_right (sub_nonneg.mpr grant.margin_le_lifetime)
  rw [oauthToken, hendpoint]
  split_ifs with hnone hreused
  · cases hnone
  · simp only [Bool.and_eq_true, Bool.not_eq_true', decide_eq_true_eq] at hreused
    exact .inl ⟨hreused.1.1, hreused.1.2, hreused.2, rfl⟩
  · have hasked : force = true ∨ s.token = none ∨ s.tokenExpiresAt ≤ now := by
      simp only [Bool.and_eq_true, Bool.not_eq_true', decide_eq_true_eq, not_and, not_lt] at hreused
      by_cases hforce : force = false
      · rcases Option.eq_none_or_eq_some s.token with htoken | ⟨token, htoken⟩
        · exact .inr (.inl htoken)
        · exact .inr (.inr (hreused ⟨hforce, by rw [htoken]; rfl⟩))
      · exact .inl (by simpa using hforce)
    cases answer with
    | none => exact .inr ⟨hasked, rfl, fun _ => ⟨rfl, rfl⟩, fun grant h => by cases h⟩
    | some grant =>
      refine .inr ⟨hasked, rfl, fun h => (by cases h), fun other h => ?_⟩
      cases h
      exact ⟨rfl, rfl, by simp only [hwhole, heldUntil]⟩

theorem HoldsGranted.oauthToken (h : HoldsGranted s) {force : Bool} {answer : Option TokenGrant}
    (hgranted : ∀ grant, answer = some grant → now ≤ grant.grantedAt) :
    HoldsGranted (s.oauthToken now force answer).2 := by
  cases hendpoint : s.hasTokenEndpoint with
  | false =>
    rw [ApicurioSession.oauthToken, hendpoint]
    exact h
  | true =>
    obtain ⟨-, -, -, heq⟩ | ⟨-, hposts, hfailed, hanswered⟩ :=
      s.oauthToken_cases hendpoint now force answer
    · rw [heq]
      exact h
    · cases answer with
      | none =>
        obtain ⟨htoken, hexpires⟩ := hfailed rfl
        constructor
        · rw [htoken, hposts, lastGrant_concat]
          exact h.token
        · intro askedAt grant hlast
          rw [hposts, lastGrant_concat] at hlast
          rw [hexpires]
          exact h.expires askedAt grant hlast
      | some grant =>
        obtain ⟨-, htoken, hexpires⟩ := hanswered grant rfl
        have hlast : lastGrant (s.oauthToken now force (some grant)).2.posts = some (now, grant) := by
          rw [hposts, lastGrant_concat]
          rfl
        constructor
        · rw [htoken, hlast]
          rfl
        · intro askedAt other hother
          rw [hlast] at hother
          cases hother
          exact ⟨hexpires, hgranted grant rfl⟩

def GrantsWhenAsked (events : List (SessionEvent β)) : Prop :=
  ∀ now force grant, .token now force (some grant) ∈ events → now ≤ grant.grantedAt

theorem holdsGranted_run (hgrants : GrantsWhenAsked events) :
    HoldsGranted (run checkPeriodMs hasTokenEndpoint events) := by
  induction events using List.reverseRecOn with
  | nil => exact ⟨rfl, fun _ _ h => by cases h⟩
  | append_singleton events last ih =>
    have hheld := ih fun now force grant hmem => hgrants now force grant (List.mem_append_left _ hmem)
    rw [run_concat]
    cases last with
    | lookup now key => exact ⟨hheld.token, hheld.expires⟩
    | store now key value => exact ⟨hheld.token, hheld.expires⟩
    | token now force answer =>
      refine hheld.oauthToken fun grant hanswer => hgrants now force grant ?_
      rw [hanswer]
      exact List.mem_append_right _ List.mem_cons_self

/-- In every run, an unforced request for a token asks the endpoint exactly when no token was granted
or the last one is no longer held; one that is reused is the last one granted, and more than its
margin is left of its lifetime. -/
theorem reuses_valid_token (hgrants : GrantsWhenAsked events) (now : ℚ)
    (answer : Option TokenGrant) :
    let s : ApicurioSession β := run checkPeriodMs true events
    (∀ askedAt grant, lastGrant s.posts = some (askedAt, grant) → now < heldUntil askedAt grant →
      s.oauthToken now false answer = (.ok (some grant.token), s) ∧
        now + grant.margin < grant.grantedAt + grant.lifetime) ∧
      ((∀ askedAt grant, lastGrant s.posts = some (askedAt, grant) → heldUntil askedAt grant ≤ now) →
        (s.oauthToken now false answer).2.posts = s.posts ++ [⟨now, answer⟩]) := by
  intro s
  have hheld : HoldsGranted s := holdsGranted_run hgrants
  have hendpoint : s.hasTokenEndpoint = true := (run_cache checkPeriodMs true events).2.1
  constructor
  · intro askedAt grant hlast hnow
    have htoken : s.token = some grant.token := by rw [hheld.token, hlast]; rfl
    obtain ⟨hexpires, hasked⟩ := hheld.expires askedAt grant hlast
    obtain ⟨-, -, -, heq⟩ | ⟨hpost, -⟩ := s.oauthToken_cases hendpoint now false answer
    · refine ⟨by rw [heq, htoken], ?_⟩
      rw [heldUntil] at hnow
      linarith
    · rw [hexpires] at hpost
      rcases hpost with hforce | hnone | hover
      · cases hforce
      · rw [htoken] at hnone
        cases hnone
      · exact absurd hnow (not_lt.mpr hover)
  · intro hover
    obtain ⟨-, hsome, hnow, -⟩ | ⟨-, hposts, -⟩ := s.oauthToken_cases hendpoint now false answer
    · rw [hheld.token, Option.isSome_map] at hsome
      obtain ⟨⟨askedAt, grant⟩, hlast⟩ := Option.isSome_iff_exists.mp hsome
      rw [(hheld.expires askedAt grant hlast).1] at hnow
      exact absurd (hover askedAt grant hlast) (not_le.mpr hnow)
    · exact hposts

theorem reuses_valid_token_shop :
    let s : ApicurioSession Bytes :=
      run 30000 true [.token 5 false (some ⟨text "shop", some 300, 6⟩)]
    let grant : TokenGrant := ⟨text "shop", some 300, 6⟩
    s.oauthToken 100 false none = (.ok (some (text "shop")), s) ∧
      100 + grant.margin < 6 + (grant.lifetime : ℚ) := by
  have hgrants : GrantsWhenAsked
      [(.token 5 false (some ⟨text "shop", some 300, 6⟩) : SessionEvent Bytes)] := by
    intro now force grant hmem
    cases List.mem_singleton.mp hmem
    norm_num
  have hheld : (100 : ℚ) < heldUntil 5 ⟨text "shop", some 300, 6⟩ := by decide +kernel
  exact (reuses_valid_token hgrants 100 none).1 5 _ rfl hheld

end ApicurioSession

end Kaskade
