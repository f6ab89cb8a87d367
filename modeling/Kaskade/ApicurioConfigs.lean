import Kaskade.BoundedSteps
import Kaskade.PercentEncoding
import Kaskade.SchemaSelections
import Mathlib.Data.List.Lex
import Mathlib.Data.List.Sort
import Mathlib.Order.Nat

/-!
# Configurations of Apicurio clients

`ApicurioConfig.from_dict`, and whom a client of the configuration trusts. An accepted configuration
has one kind of credentials at most, whole, and a proxy whose credentials are read back from its
address. A token endpoint behind an `https` address is always verified.
-/

namespace Kaskade

open Python

namespace ApicurioOptions

def url : Text := text "apicurio.registry.url"

def useId : Text := text "apicurio.registry.use-id"

def checkPeriod : Text := text "apicurio.registry.check-period-ms"

def retryCount : Text := text "apicurio.registry.retry-count"

def retryBackoff : Text := text "apicurio.registry.retry-backoff-ms"

def tokenEndpoint : Text := text "apicurio.registry.auth.service.token.endpoint"

def clientId : Text := text "apicurio.registry.auth.client.id"

def clientSecret : Text := text "apicurio.registry.auth.client.secret"

def oauthScope : Text := text "apicurio.registry.auth.client.scope"

def username : Text := text "apicurio.registry.auth.username"

def password : Text := text "apicurio.registry.auth.password"

def proxyHost : Text := text "apicurio.registry.proxy.host"

def proxyPort : Text := text "apicurio.registry.proxy.port"

def proxyUsername : Text := text "apicurio.registry.proxy.username"

def proxyPassword : Text := text "apicurio.registry.proxy.password"

def tlsCertificates : Text := text "apicurio.registry.tls.certificates"

def tlsTrustAll : Text := text "apicurio.registry.tls.trust-all"

def tlsVerifyHost : Text := text "apicurio.registry.tls.verify-host"

def tlsClientCertificate : Text := text "apicurio.registry.tls.client-certificate"

def tlsClientKey : Text := text "apicurio.registry.tls.client-key"

/-- `APICURIO_PROPERTIES`. -/
def properties : List Text :=
  [url, useId, checkPeriod, retryCount, retryBackoff, tokenEndpoint, clientId, clientSecret,
    oauthScope, username, password, proxyHost, proxyPort, proxyUsername, proxyPassword,
    tlsCertificates, tlsTrustAll, tlsVerifyHost, tlsClientCertificate, tlsClientKey]

/-- `ApicurioRegistryError(message)`. -/
def failure (message : Text) : PyException := ⟨.apicurioRegistryError, message⟩

/-- `bool(config.get(name))`. -/
def given (config : Properties) (name : Text) : Bool := (config.lookup name).getD [] ≠ []

/-- `sorted(names)`. -/
def sorted (names : List Text) : List Text :=
  names.insertionSort fun a b => a.map (·.val) ≤ b.map (·.val)

variable {F E : Type} (py : Interpreter F E) (config : Properties)

def integer (name : Text) (default : ℤ) : Outcome ℤ :=
  match config.lookup name with
  | none => .ok default
  | some value =>
    match parseInt? py.jsonLimits.digits (strip value) with
    | none => .error (failure (name ++ text " must be an integer"))
    | some result =>
      if result < 0 then .error (failure (name ++ text " must be zero or greater")) else .ok result

def boolean (name : Text) (default : Bool) : Outcome Bool :=
  match config.lookup name with
  | none => .ok default
  | some value =>
    let normalized := value.map lowerChr
    if normalized = text "true" then .ok true
    else if normalized = text "false" then .ok false
    else .error (failure (name ++ text " must be true or false"))

def completeSet (names : List Text) (label : Text) : Outcome Bool :=
  let supplied := names.any fun name => (config.lookup name).isSome
  let missing := sorted (names.filter (!given config ·))
  if supplied && !missing.isEmpty then
    .error (failure (text "Incomplete " ++ label ++ text " configuration; missing: "
      ++ (text ", ").intercalate missing))
  else .ok supplied

def checkProperties : Outcome Unit :=
  let unknown := sorted ((config.map Prod.fst).filter
    fun name => !properties.contains name && name ≠ text "provider")
  if (config.map Prod.fst).any (fun name =>
      (text "apicurio.registry.tls.keystore.").isPrefixOf name ||
        (text "apicurio.registry.tls.truststore.").isPrefixOf name) then
    .error (failure
      (text "JKS and PKCS12 stores are not supported; use the Apicurio PEM TLS properties"))
  else if !unknown.isEmpty then
    .error (failure (text "Unrecognized Apicurio properties: " ++ (text ", ").intercalate unknown))
  else .ok ()

/-- `_oauth_scope`. -/
def parseScope (value : Option Text) : Outcome (Option Text) :=
  match value with
  | none => .ok none
  | some value =>
    let scopes := split value
    if scopes.isEmpty || !decide scopes.Nodup then
      .error (failure (oauthScope ++ text " must contain unique scopes"))
    else .ok (some ((text " ").intercalate scopes))

/-- `_parse_url`; `parse` is `httpx.URL`, of which the scheme and the host are read. -/
def parseUrl (parse : Text → Outcome (Text × Option Text)) : Outcome Text :=
  let address := ((config.lookup url).getD []).rdropWhile (· = chr '/')
  if address = [] then
    .error (failure (text "Missing required configuration property " ++ url))
  else do
    let parsed ← parse address
    if (parsed.1 ≠ text "http" ∧ parsed.1 ≠ text "https") ∨ parsed.2 = none then
      .error (failure (text "Invalid url " ++ address))
    else return address

def parseUseId : Outcome Text :=
  let value := ((config.lookup useId).getD (text "contentId")).map lowerChr
  if value = text "contentid" then .ok (text "contentId")
  else if value = text "globalid" then .ok (text "globalId")
  else .error (failure (useId ++ text " must be contentId or globalId"))

def parseAuth : Outcome Unit := do
  let hasBasic ← completeSet config [username, password] (text "Basic authentication")
  let hasOauth ← completeSet config [tokenEndpoint, clientId, clientSecret]
    (text "OAuth client credentials")
  if hasBasic && hasOauth then
    .error (failure (text "Basic authentication and OAuth cannot be configured together"))
  else if (config.lookup oauthScope).isSome && !hasOauth then
    .error (failure (text "OAuth options require OAuth client credentials"))
  else return ()

def proxyCredentials : Outcome Text :=
  match config.lookup proxyUsername, config.lookup proxyPassword with
  | some name, some secret => do
    let quotedName ← quote py name
    let quotedSecret ← quote py secret
    return quotedName ++ text ":" ++ quotedSecret ++ text "@"
  | _, _ => .ok []

def parseProxy : Outcome (Option Text) := do
  let hasProxy ← completeSet config [proxyHost, proxyPort] (text "proxy")
  if given config proxyUsername ≠ given config proxyPassword then
    .error (failure (text "Proxy username and password must be configured together"))
  else if (given config proxyUsername || given config proxyPassword) && !hasProxy then
    .error (failure (text "Proxy credentials require proxy host and port"))
  else if !hasProxy then return none
  else
    match parseInt? py.jsonLimits.digits (strip ((config.lookup proxyPort).getD [])) with
    | none => .error (failure (proxyPort ++ text " must be an integer"))
    | some port =>
      if 1 ≤ port ∧ port ≤ 65535 then do
        let credentials ← proxyCredentials py config
        return some (text "http://" ++ credentials ++ (config.lookup proxyHost).getD []
          ++ text ":" ++ intText port)
      else .error (failure (proxyPort ++ text " must be between 1 and 65535"))

/-- What `load_verify_locations` is given. -/
inductive TrustSource where
  | data (certificates : Text)
  | file (path : Text)

/-- What an `SSLContext` asks of whom it connects to: the authorities it trusts, a certificate, and
the host name of the certificate. -/
structure SslContext where
  defaultTrust : Bool
  locations : List TrustSource := []
  certificateRequired : Bool := true
  checkHostname : Bool := true

/-- `context.check_hostname = value`, which requires a certificate where it is set. -/
def SslContext.setCheckHostname (context : SslContext) (value : Bool) : SslContext :=
  { context with
    checkHostname := value
    certificateRequired := context.certificateRequired || value }

/-- What the HTTP client is told of the verification. -/
inductive Verification where
  | flag (verify : Bool)
  | context (context : SslContext)

namespace Verification

def requiresCertificate : Verification → Bool
  | flag verify => verify
  | context c => c.certificateRequired

def checksHostname : Verification → Bool
  | flag verify => verify
  | context c => c.checkHostname

/-- Whether a connection under a scheme asks for a certificate; without TLS there is none to ask for. -/
def AsksCertificate (v : Verification) (scheme : Text) : Prop :=
  scheme = text "https" ∧ v.requiresCertificate = true

/-- Whether a connection under a scheme asks for the host name in the certificate. -/
def AsksHostname (v : Verification) (scheme : Text) : Prop :=
  scheme = text "https" ∧ v.checksHostname = true

def trustsNobody : Verification → Bool
  | flag _ => false
  | context c => !c.defaultTrust && c.locations.isEmpty

end Verification

/-- `value.replace(old, new)`; so many code points are left of the last match. -/
def replaceFrom (old new : Text) : ℕ → Text → Text
  | _, [] => []
  | matched + 1, _ :: t => replaceFrom old new matched t
  | 0, c :: t =>
    if old.isPrefixOf (c :: t) then new ++ replaceFrom old new (old.length - 1) t
    else c :: replaceFrom old new 0 t

variable (loadVerifyLocations : TrustSource → Outcome Unit)

/-- What is loaded for the certificates of a configuration: their text, or the files named. -/
def trustSources (certificates : Text) : List TrustSource :=
  if text "-----BEGIN CERTIFICATE-----" <:+: certificates then
    [.data (replaceFrom (text ",-----") (text "\n-----") 0 certificates)]
  else (certificates.splitOn (chr ',')).map fun path => .file (strip path)

/-- The context of `_verification`, with the certificates it has loaded. -/
def trustContext (certificates : Option Text) (trustAll : Bool) : Outcome SslContext :=
  let context : SslContext := if trustAll then
      { defaultTrust := false, certificateRequired := false, checkHostname := false }
    else { defaultTrust := true }
  let sources := if certificates.getD [] ≠ [] ∧ trustAll = false then
      trustSources (certificates.getD [])
    else []
  do
    let _ ← sources.mapM loadVerifyLocations
    return { context with locations := sources }

def verification (certificates : Option Text) (trustAll verifyHost forceContext : Bool)
    (label : Text) : Outcome Verification :=
  if trustAll && !forceContext then .ok (.flag false)
  else if certificates.isNone && verifyHost && !forceContext then .ok (.flag true)
  else do
    let context ← Outcome.tryExcept (trustContext loadVerifyLocations certificates trustAll) [.osError]
      fun ex => .error (failure (label ++ text " certificate file is invalid: " ++ ex.message))
    return .context (context.setCheckHostname verifyHost)

end ApicurioOptions

open ApicurioOptions

structure ApicurioTls where
  certificates : Option Text
  trustAll : Bool
  verifyHost : Bool
  clientIdentity : Option (Text × Text)

namespace ApicurioTls

variable (loadVerifyLocations : TrustSource → Outcome Unit) (tls : ApicurioTls)

def registryVerification : Outcome Verification :=
  verification loadVerifyLocations tls.certificates tls.trustAll tls.verifyHost
    tls.clientIdentity.isSome (text "Registry TLS")

def tokenVerification : Outcome Verification :=
  verification loadVerifyLocations tls.certificates false true false
    (text "OAuth token endpoint TLS")

end ApicurioTls

structure ApicurioConfig where
  url : Text
  useId : Text
  checkPeriodMs : ℤ
  retryCount : ℤ
  retryBackoffMs : ℤ
  username : Option Text
  password : Option Text
  tokenEndpoint : Option Text
  clientId : Option Text
  clientSecret : Option Text
  oauthScope : Option Text
  proxy : Option Text
  tls : ApicurioTls

def parseTls (loadVerifyLocations : TrustSource → Outcome Unit) (config : Properties) :
    Outcome ApicurioTls := do
  let trustAll ← boolean config tlsTrustAll false
  let verifyHost ← boolean config tlsVerifyHost true
  if given config tlsClientCertificate ≠ given config tlsClientKey then
    .error (failure (text "TLS client certificate and client key must be configured together"))
  else
    let tls : ApicurioTls := {
      certificates := config.lookup tlsCertificates
      trustAll := trustAll
      verifyHost := verifyHost
      clientIdentity := match config.lookup tlsClientCertificate, config.lookup tlsClientKey with
        | some certificate, some key => some (certificate, key)
        | _, _ => none }
    let _ ← tls.registryVerification loadVerifyLocations
    let _ ← tls.tokenVerification loadVerifyLocations
    return tls

/-- `ApicurioConfig.from_dict`; `parse` is `httpx.URL`. -/
def ApicurioConfig.fromDict {F E : Type} (py : Interpreter F E)
    (parse : Text → Outcome (Text × Option Text)) (loadVerifyLocations : TrustSource → Outcome Unit)
    (config : Properties) : Outcome ApicurioConfig := do
  checkProperties config
  let address ← parseUrl config parse
  let idKind ← parseUseId config
  parseAuth config
  let proxy ← parseProxy py config
  let tls ← parseTls loadVerifyLocations config
  let checkPeriodMs ← integer py config checkPeriod 30000
  let retries ← integer py config ApicurioOptions.retryCount 3
  let retryBackoffMs ← integer py config retryBackoff 300
  let scope ← parseScope (config.lookup ApicurioOptions.oauthScope)
  return {
    url := address
    useId := idKind
    checkPeriodMs := checkPeriodMs
    retryCount := retries
    retryBackoffMs := retryBackoffMs
    username := config.lookup ApicurioOptions.username
    password := config.lookup ApicurioOptions.password
    tokenEndpoint := config.lookup ApicurioOptions.tokenEndpoint
    clientId := config.lookup ApicurioOptions.clientId
    clientSecret := config.lookup ApicurioOptions.clientSecret
    oauthScope := scope
    proxy := proxy
    tls := tls }

namespace ApicurioOptions

variable {F E : Type} {py : Interpreter F E} {config : Properties}

theorem sorted_isEmpty (names : List Text) : (sorted names).isEmpty = names.isEmpty := by
  have hlength : (sorted names).length = names.length := List.length_insertionSort _ names
  rw [Bool.eq_iff_iff, List.isEmpty_iff_length_eq_zero, List.isEmpty_iff_length_eq_zero, hlength]

theorem given_eq_true {name : Text} (h : given config name = true) :
    ∃ value, config.lookup name = some value ∧ value ≠ [] := by
  rw [given, decide_eq_true_iff] at h
  cases hvalue : config.lookup name with
  | none => simp [hvalue] at h
  | some value => exact ⟨value, rfl, by simpa [hvalue] using h⟩

theorem checkProperties_ok (h : checkProperties config = .ok ()) :
    ∀ name ∈ config.map Prod.fst, name ∈ properties ∨ name = text "provider" := by
  rw [checkProperties, sorted_isEmpty] at h
  split_ifs at h with hstores hunknown
  intro name hname
  by_contra hother
  rw [not_or] at hother
  rw [Bool.not_eq_true', Bool.not_eq_false, List.isEmpty_iff, List.filter_eq_nil_iff] at hunknown
  exact hunknown name hname (by simp [hother.1, hother.2])

theorem completeSet_ok {names : List Text} {label : Text} {supplied : Bool}
    (h : completeSet config names label = .ok supplied) :
    (supplied = true → ∀ name ∈ names, ∃ value, config.lookup name = some value ∧ value ≠ []) ∧
      (supplied = false → ∀ name ∈ names, config.lookup name = none) := by
  rw [completeSet, sorted_isEmpty] at h
  split_ifs at h with hmissing
  obtain rfl := Except.ok.inj h
  constructor
  · intro hsupplied name hname
    rw [hsupplied, Bool.true_and, Bool.not_eq_true', Bool.not_eq_false, List.isEmpty_iff,
      List.filter_eq_nil_iff] at hmissing
    exact given_eq_true (by simpa using hmissing name hname)
  · intro hsupplied name hname
    rw [List.any_eq_false] at hsupplied
    exact Option.not_isSome_iff_eq_none.mp (hsupplied name hname)

theorem integer_ok {name : Text} {default result : ℤ} (hdefault : 0 ≤ default)
    (h : integer py config name default = .ok result) : 0 ≤ result := by
  rw [integer] at h
  cases hvalue : config.lookup name with
  | none =>
    rw [hvalue] at h
    exact Except.ok.inj h ▸ hdefault
  | some value =>
    simp only [hvalue] at h
    cases hparse : parseInt? py.jsonLimits.digits (strip value) with
    | none => simp [hparse] at h
    | some number =>
      simp only [hparse] at h
      split_ifs at h with hnegative
      rw [← Except.ok.inj h]
      omega

structure Words (value : Text) (words : List Text) : Prop where
  eq_split : split value = words
  ne_nil : words ≠ []
  distinct : words.Nodup
  word : ∀ word ∈ words, word ≠ [] ∧ ∀ c ∈ word, isSpace c = false

theorem parseScope_ok {value : Option Text} {scope : Text} (h : parseScope value = .ok (some scope)) :
    ∃ given words, value = some given ∧ Words given words ∧ scope = (text " ").intercalate words := by
  cases value with
  | none => cases h
  | some value =>
    rw [parseScope] at h
    split_ifs at h with hscopes
    rw [Bool.or_eq_true, not_or, List.isEmpty_iff, Bool.not_eq_true', decide_eq_false_iff_not,
      not_not] at hscopes
    refine ⟨value, split value, rfl, ⟨rfl, hscopes.1, hscopes.2, fun word hword => ⟨?_, fun c hc => ?_⟩⟩,
      (Option.some.inj (Except.ok.inj h)).symm⟩
    · rw [split, List.mem_filter, decide_eq_true_iff] at hword
      exact hword.2
    · have hmem : c ∈ (split value).flatten := List.mem_flatten.mpr ⟨word, hword, hc⟩
      rw [flatten_split, List.mem_filter, Bool.not_eq_true'] at hmem
      exact hmem.2

/-- The address is the property without the slashes at its end. -/
theorem parseUrl_ok {parse : Text → Outcome (Text × Option Text)} {address : Text}
    (h : parseUrl config parse = .ok address) :
    address ≠ [] ∧ address.getLast? ≠ some (chr '/') ∧
      (∃ slashes, config.lookup url = some (address ++ slashes) ∧ ∀ c ∈ slashes, c = chr '/') ∧
      ∃ scheme host, parse address = .ok (scheme, some host) ∧
        (scheme = text "http" ∨ scheme = text "https") := by
  rw [parseUrl] at h
  split_ifs at h with hempty
  obtain ⟨⟨scheme, host⟩, hparse, hresult⟩ := bind_eq_ok.mp h
  split_ifs at hresult with hscheme
  obtain rfl := Except.ok.inj hresult
  refine ⟨hempty, ?_, ?_, ?_⟩
  · intro hlast
    have hslash := List.rdropWhile_last_not (· = chr '/') _ hempty
    rw [List.getLast?_eq_some_getLast hempty, Option.some_inj] at hlast
    simp [hlast] at hslash
  · cases hvalue : config.lookup url with
    | none => simp [hvalue] at hempty
    | some value =>
      refine ⟨value.rtakeWhile (· = chr '/'), ?_, fun c hc => ?_⟩
      · rw [Option.getD_some, List.rdropWhile_append_rtakeWhile]
      · simpa using List.mem_rtakeWhile_imp hc
  · cases host with
    | none => simp at hscheme
    | some host =>
      refine ⟨scheme, host, hparse, ?_⟩
      simp only [reduceCtorEq, or_false, not_and_or, not_not] at hscheme
      exact hscheme

theorem parseUseId_ok {value : Text} (h : parseUseId config = .ok value) :
    value = text "contentId" ∨ value = text "globalId" := by
  rw [parseUseId] at h
  split_ifs at h
  · exact .inl (Except.ok.inj h).symm
  · exact .inr (Except.ok.inj h).symm

def Given (value : Option Text) : Prop := ∃ t, value = some t ∧ t ≠ []

def OneAuthentication (username password tokenEndpoint clientId clientSecret : Option Text) : Prop :=
  (Given username ∧ Given password ∨ username = none ∧ password = none) ∧
    (Given tokenEndpoint ∧ Given clientId ∧ Given clientSecret ∨
      tokenEndpoint = none ∧ clientId = none ∧ clientSecret = none) ∧
    ¬ (username.isSome ∧ tokenEndpoint.isSome)

theorem parseAuth_ok (h : parseAuth config = .ok ()) :
    OneAuthentication (config.lookup username) (config.lookup password) (config.lookup tokenEndpoint)
        (config.lookup clientId) (config.lookup clientSecret) ∧
      ((config.lookup oauthScope).isSome → (config.lookup tokenEndpoint).isSome) := by
  obtain ⟨hasBasic, hbasic, h⟩ := bind_eq_ok.mp h
  obtain ⟨hasOauth, hoauth, h⟩ := bind_eq_ok.mp h
  obtain ⟨hbasicGiven, hbasicNone⟩ := completeSet_ok hbasic
  obtain ⟨hoauthGiven, hoauthNone⟩ := completeSet_ok hoauth
  split_ifs at h with hboth hscope
  rw [Bool.and_eq_true, not_and] at hboth hscope
  simp only [List.forall_mem_cons, List.not_mem_nil, false_implies, implies_true, and_true]
    at hbasicGiven hbasicNone hoauthGiven hoauthNone
  refine ⟨⟨?_, ?_, ?_⟩, ?_⟩
  · cases hasBasic with
    | true => exact .inl (hbasicGiven rfl)
    | false => exact .inr (hbasicNone rfl)
  · cases hasOauth with
    | true => exact .inl (hoauthGiven rfl)
    | false => exact .inr (hoauthNone rfl)
  · rintro ⟨hname, hendpoint⟩
    cases hasBasic with
    | false => simp [(hbasicNone rfl).1] at hname
    | true =>
      cases hasOauth with
      | false => simp [(hoauthNone rfl).1] at hendpoint
      | true => exact hboth rfl rfl
  · intro hgiven
    cases hasOauth with
    | false => exact absurd rfl (hscope hgiven)
    | true =>
      obtain ⟨endpoint, hendpoint, -⟩ := (hoauthGiven rfl).1
      rw [hendpoint]
      rfl

/-- The name and the secret in the address of a proxy: what stands before the first `@`, parted at the
first colon, each percent-decoded. -/
def userInfo (address : Text) : Option (Text × Text) :=
  let info := (address.drop (text "http://").length).takeWhile (· ≠ chr '@')
  match percentDecode (info.takeWhile (· ≠ chr ':')) >>= utf8Decode false,
      percentDecode (info.dropWhile (· ≠ chr ':')).tail >>= utf8Decode false with
  | some name, some secret => some (name, secret)
  | _, _ => none

theorem quote_ne {t quoted : Text} (h : quote py t = .ok quoted) {c d : CodePoint} (hc : c ∈ quoted)
    (hreserved : isUnreserved d = false) (hpercent : d ≠ chr '%') : c ≠ d := by
  rintro rfl
  rcases mem_quote h hc with hplain | rfl
  · rw [hreserved] at hplain
    cases hplain
  · exact hpercent rfl

/-- The credentials are read back from the address, whatever they and the host are. -/
theorem userInfo_credentials {name secret quotedName quotedSecret rest : Text}
    (hname : quote py name = .ok quotedName) (hsecret : quote py secret = .ok quotedSecret) :
    userInfo (text "http://" ++ (quotedName ++ text ":" ++ quotedSecret ++ text "@") ++ rest) =
      some (name, secret) := by
  have hcolon : text ":" = [chr ':'] := rfl
  have hat : text "@" = [chr '@'] := rfl
  have hinfo : ((text "http://" ++ (quotedName ++ text ":" ++ quotedSecret ++ text "@") ++ rest).drop
      (text "http://").length).takeWhile (· ≠ chr '@') = quotedName ++ chr ':' :: quotedSecret := by
    rw [List.append_assoc, List.drop_left', hcolon, hat, List.append_assoc, List.takeWhile_append_of_pos]
    · simp
    · intro c hc
      simp only [List.mem_append, List.mem_singleton] at hc
      rw [decide_eq_true_iff]
      rcases hc with (hc | rfl) | hc
      · exact quote_ne hname hc (by decide) (by decide)
      · decide
      · exact quote_ne hsecret hc (by decide) (by decide)
    · rfl
  have hplain : ∀ c ∈ quotedName, decide (c ≠ chr ':') = true := fun c hc =>
    decide_eq_true (quote_ne hname hc (by decide) (by decide))
  rw [userInfo, hinfo, List.takeWhile_append_of_pos hplain, List.dropWhile_append_of_pos hplain]
  simp [quote_decodes hname, quote_decodes hsecret]

theorem parseProxy_ok {address : Text} (h : parseProxy py config = .ok (some address)) :
    ∃ (credentials host portText : Text) (port : ℤ), proxyCredentials py config = .ok credentials ∧
      config.lookup proxyHost = some host ∧ host ≠ [] ∧ config.lookup proxyPort = some portText ∧
      parseInt? py.jsonLimits.digits (strip portText) = some port ∧ 1 ≤ port ∧ port ≤ 65535 ∧
      address = text "http://" ++ credentials ++ host ++ text ":" ++ intText port := by
  obtain ⟨hasProxy, hset, h⟩ := bind_eq_ok.mp h
  split_ifs at h with hpair hcredentials hproxy
  · cases h
  · cases hport : parseInt? py.jsonLimits.digits (strip ((config.lookup proxyPort).getD [])) with
    | none => simp [hport] at h
    | some port =>
      simp only [hport] at h
      split_ifs at h with hrange
      obtain ⟨credentials, hquoted, haddress⟩ := bind_eq_ok.mp h
      have hgiven := (completeSet_ok hset).1 (by simpa using hproxy)
      obtain ⟨host, hhost, hne⟩ := hgiven proxyHost List.mem_cons_self
      obtain ⟨portText, hportText, -⟩ := hgiven proxyPort (List.mem_cons_of_mem _ List.mem_cons_self)
      rw [hportText, Option.getD_some] at hport
      refine ⟨credentials, host, portText, port, hquoted, hhost, hne, hportText, hport, hrange.1,
        hrange.2, ?_⟩
      rw [← Option.some.inj (Except.ok.inj haddress), hhost]
      rfl

theorem parseProxy_userInfo {address name secret : Text}
    (h : parseProxy py config = .ok (some address)) (hname : config.lookup proxyUsername = some name)
    (hsecret : config.lookup proxyPassword = some secret) : userInfo address = some (name, secret) := by
  obtain ⟨credentials, host, _, port, hcredentials, -, -, -, -, -, -, rfl⟩ := parseProxy_ok h
  rw [proxyCredentials, hname, hsecret] at hcredentials
  obtain ⟨quotedName, hquotedName, hcredentials⟩ := bind_eq_ok.mp hcredentials
  obtain ⟨quotedSecret, hquotedSecret, hcredentials⟩ := bind_eq_ok.mp hcredentials
  rw [← Except.ok.inj hcredentials, List.append_assoc _ host, List.append_assoc _ (host ++ _)]
  exact userInfo_credentials hquotedName hquotedSecret

variable {loadVerifyLocations : TrustSource → Outcome Unit}

theorem trustContext_ok {certificates : Option Text} {trustAll : Bool} {context : SslContext}
    (h : trustContext loadVerifyLocations certificates trustAll = .ok context) :
    context.defaultTrust = !trustAll ∧ context.certificateRequired = !trustAll ∧
      context.checkHostname = !trustAll ∧ (trustAll = true → context.locations = []) := by
  obtain ⟨_, -, hcontext⟩ := bind_eq_ok.mp h
  rw [← Except.ok.inj hcontext]
  cases trustAll with
  | true => exact ⟨rfl, rfl, rfl, fun _ => if_neg fun hnone => by cases hnone.2⟩
  | false => exact ⟨rfl, rfl, rfl, fun htrust => by cases htrust⟩

/-- What a verification asks for. Trust in everybody is given up where a client identity is to be
loaded into a context: the context trusts nobody then. -/
theorem verification_ok {certificates : Option Text} {trustAll verifyHost forceContext : Bool}
    {label : Text} {v : Verification}
    (h : verification loadVerifyLocations certificates trustAll verifyHost forceContext label = .ok v) :
    v.requiresCertificate = (!trustAll || forceContext && verifyHost) ∧
      v.checksHostname = (verifyHost && (!trustAll || forceContext)) ∧
      v.trustsNobody = (trustAll && forceContext) := by
  rw [verification] at h
  split_ifs at h with htrust hdefault
  · obtain rfl := Except.ok.inj h
    rw [Bool.and_eq_true, Bool.not_eq_true'] at htrust
    rw [htrust.1, htrust.2]
    exact ⟨rfl, (Bool.and_false verifyHost).symm, rfl⟩
  · obtain rfl := Except.ok.inj h
    simp only [Bool.and_eq_true, Bool.not_eq_true'] at htrust hdefault
    have htrustAll : trustAll = false := eq_false_of_ne_true fun htrue => htrust ⟨htrue, hdefault.2⟩
    rw [htrustAll, hdefault.1.2]
    exact ⟨rfl, rfl, rfl⟩
  · obtain ⟨context, hcontext, hresult⟩ := bind_eq_ok.mp h
    obtain rfl := Except.ok.inj hresult
    have hforced : trustAll = true → forceContext = true := by
      simpa using htrust
    have hloaded : trustContext loadVerifyLocations certificates trustAll = .ok context := by
      cases hcall : trustContext loadVerifyLocations certificates trustAll with
      | ok loaded =>
        rw [hcall] at hcontext
        exact hcontext
      | error e =>
        rw [hcall, Outcome.tryExcept] at hcontext
        split_ifs at hcontext
    obtain ⟨htrusted, hrequired, hhostname, hlocations⟩ := trustContext_ok hloaded
    simp only [Verification.requiresCertificate, Verification.checksHostname,
      Verification.trustsNobody, SslContext.setCheckHostname, htrusted, hrequired]
    cases trustAll with
    | true =>
      rw [hforced rfl, hlocations rfl]
      exact ⟨rfl, (Bool.and_true verifyHost).symm, rfl⟩
    | false => exact ⟨rfl, (Bool.and_true verifyHost).symm, rfl⟩

/-- A property that is `true` or `false` in any case. -/
def Says (config : Properties) (name : Text) (word : Text) : Prop :=
  ∃ value, config.lookup name = some value ∧ value.map lowerChr = word

def Identified (config : Properties) : Prop :=
  (config.lookup tlsClientCertificate).isSome ∧ (config.lookup tlsClientKey).isSome

theorem boolean_ok {name : Text} {default b : Bool} (h : boolean config name default = .ok b) :
    b ≠ default ↔ Says config name (if default then text "false" else text "true") := by
  have hother : text "true" ≠ text "false" := by decide
  rw [boolean] at h
  cases hvalue : config.lookup name with
  | none =>
    rw [hvalue] at h
    obtain rfl := Except.ok.inj h
    simp [Says, hvalue]
  | some value =>
    rw [hvalue] at h
    dsimp only at h
    split_ifs at h with htrue hfalse
    · obtain rfl := Except.ok.inj h
      cases default <;> simp [Says, hvalue, htrue, hother]
    · obtain rfl := Except.ok.inj h
      cases default <;> simp [Says, hvalue, hfalse, hother.symm]

structure TlsOf (config : Properties) (tls : ApicurioTls) : Prop where
  trustAll : tls.trustAll = true ↔ Says config tlsTrustAll (text "true")
  verifyHost : tls.verifyHost = true ↔ ¬ Says config tlsVerifyHost (text "false")
  identified : tls.clientIdentity.isSome = true ↔ Identified config

theorem parseTls_ok {tls : ApicurioTls} (h : parseTls loadVerifyLocations config = .ok tls) :
    (∃ v, tls.registryVerification loadVerifyLocations = .ok v) ∧
      (∃ v, tls.tokenVerification loadVerifyLocations = .ok v) ∧ TlsOf config tls ∧
      ∀ certificate key, tls.clientIdentity = some (certificate, key) → (certificate = [] ↔ key = []) := by
  obtain ⟨trustAll, htrustAll, h⟩ := bind_eq_ok.mp h
  obtain ⟨verifyHost, hverifyHost, h⟩ := bind_eq_ok.mp h
  split_ifs at h with hpair
  obtain ⟨registry, hregistry, h⟩ := bind_eq_ok.mp h
  obtain ⟨token, htoken, h⟩ := bind_eq_ok.mp h
  obtain rfl := Except.ok.inj h
  have htls : TlsOf config {
      certificates := config.lookup tlsCertificates
      trustAll := trustAll
      verifyHost := verifyHost
      clientIdentity := match config.lookup tlsClientCertificate, config.lookup tlsClientKey with
        | some certificate, some key => some (certificate, key)
        | _, _ => none } := by
    constructor
    · simpa using boolean_ok htrustAll
    · simpa using not_congr (boolean_ok hverifyHost)
    · simp only [Identified]
      cases config.lookup tlsClientCertificate <;> cases config.lookup tlsClientKey <;> simp
  refine ⟨⟨registry, hregistry⟩, ⟨token, htoken⟩, htls, ?_⟩
  intro certificate key hidentity
  dsimp only at hidentity
  split at hidentity
  · next hcertificate hkey =>
    obtain ⟨rfl, rfl⟩ := Prod.mk.inj (Option.some.inj hidentity)
    simpa [given, hcertificate, hkey] using hpair
  · cases hidentity

end ApicurioOptions

namespace ApicurioConfig

variable {F E : Type} {py : Interpreter F E} {parse : Text → Outcome (Text × Option Text)}
  {loadVerifyLocations : TrustSource → Outcome Unit} {config : Properties} {result : ApicurioConfig}

/-- What each part of `from_dict` has made of the properties. -/
structure ReadFrom (py : Interpreter F E) (parse : Text → Outcome (Text × Option Text))
    (loadVerifyLocations : TrustSource → Outcome Unit) (config : Properties)
    (result : ApicurioConfig) : Prop where
  known : checkProperties config = .ok ()
  address : parseUrl config parse = .ok result.url
  idKind : parseUseId config = .ok result.useId
  authentication : parseAuth config = .ok ()
  proxy : parseProxy py config = .ok result.proxy
  tls : parseTls loadVerifyLocations config = .ok result.tls
  checkPeriod : integer py config checkPeriod 30000 = .ok result.checkPeriodMs
  retries : integer py config ApicurioOptions.retryCount 3 = .ok result.retryCount
  backoff : integer py config retryBackoff 300 = .ok result.retryBackoffMs
  scope : parseScope (config.lookup ApicurioOptions.oauthScope) = .ok result.oauthScope
  basic : result.username = config.lookup ApicurioOptions.username ∧
    result.password = config.lookup ApicurioOptions.password
  oauth : result.tokenEndpoint = config.lookup ApicurioOptions.tokenEndpoint ∧
    result.clientId = config.lookup ApicurioOptions.clientId ∧
    result.clientSecret = config.lookup ApicurioOptions.clientSecret

theorem readFrom (h : fromDict py parse loadVerifyLocations config = .ok result) :
    result.ReadFrom py parse loadVerifyLocations config := by
  obtain ⟨_, hknown, h⟩ := bind_eq_ok.mp h
  obtain ⟨address, haddress, h⟩ := bind_eq_ok.mp h
  obtain ⟨idKind, hidKind, h⟩ := bind_eq_ok.mp h
  obtain ⟨_, hauth, h⟩ := bind_eq_ok.mp h
  obtain ⟨proxy, hproxy, h⟩ := bind_eq_ok.mp h
  obtain ⟨tls, htls, h⟩ := bind_eq_ok.mp h
  obtain ⟨period, hperiod, h⟩ := bind_eq_ok.mp h
  obtain ⟨retries, hretries, h⟩ := bind_eq_ok.mp h
  obtain ⟨backoff, hbackoff, h⟩ := bind_eq_ok.mp h
  obtain ⟨scope, hscope, h⟩ := bind_eq_ok.mp h
  rw [← Except.ok.inj h]
  exact ⟨hknown, haddress, hidKind, hauth, hproxy, htls, hperiod, hretries, hbackoff, hscope,
    ⟨rfl, rfl⟩, ⟨rfl, rfl, rfl⟩⟩

/-- What every accepted configuration is, of these properties. -/
structure Coherent (py : Interpreter F E) (parse : Text → Outcome (Text × Option Text))
    (config : Properties) (result : ApicurioConfig) : Prop where
  known : ∀ name ∈ config.map Prod.fst, name ∈ properties ∨ name = text "provider"
  address : result.url ≠ [] ∧ result.url.getLast? ≠ some (chr '/') ∧
    (∃ slashes, config.lookup ApicurioOptions.url = some (result.url ++ slashes) ∧
      ∀ c ∈ slashes, c = chr '/') ∧
    ∃ scheme host, parse result.url = .ok (scheme, some host) ∧
      (scheme = text "http" ∨ scheme = text "https")
  idKind : result.useId = text "contentId" ∨ result.useId = text "globalId"
  numbers : 0 ≤ result.checkPeriodMs ∧ 0 ≤ result.retryCount ∧ 0 ≤ result.retryBackoffMs
  authentication : OneAuthentication result.username result.password result.tokenEndpoint
    result.clientId result.clientSecret
  scope : ∀ scope, result.oauthScope = some scope → result.tokenEndpoint.isSome ∧
    ∃ given words, config.lookup ApicurioOptions.oauthScope = some given ∧ Words given words ∧
      scope = (text " ").intercalate words
  proxy : ∀ address, result.proxy = some address →
    (∃ (credentials host portText : Text) (port : ℤ),
      config.lookup proxyHost = some host ∧ host ≠ [] ∧ config.lookup proxyPort = some portText ∧
      parseInt? py.jsonLimits.digits (strip portText) = some port ∧ 1 ≤ port ∧ port ≤ 65535 ∧
      address = text "http://" ++ credentials ++ host ++ text ":" ++ intText port) ∧
    ∀ name secret, config.lookup proxyUsername = some name →
      config.lookup proxyPassword = some secret → userInfo address = some (name, secret)
  identity : ∀ certificate key, result.tls.clientIdentity = some (certificate, key) →
    (certificate = [] ↔ key = [])

/-- An accepted configuration has an address of the registry, one kind of credentials at most and
that whole, a proxy whose credentials are read back from its address, and no number below zero. -/
theorem accepted_is_coherent (h : fromDict py parse loadVerifyLocations config = .ok result) :
    result.Coherent py parse config := by
  have hread := readFrom h
  obtain ⟨hauthentication, hneeds⟩ := parseAuth_ok hread.authentication
  obtain ⟨husername, hpassword⟩ := hread.basic
  obtain ⟨hendpoint, hclientId, hclientSecret⟩ := hread.oauth
  rw [← husername, ← hpassword, ← hendpoint, ← hclientId, ← hclientSecret] at hauthentication
  rw [← hendpoint] at hneeds
  refine ⟨checkProperties_ok hread.known, parseUrl_ok hread.address, parseUseId_ok hread.idKind,
    ⟨integer_ok (by decide) hread.checkPeriod, integer_ok (by decide) hread.retries,
      integer_ok (by decide) hread.backoff⟩, hauthentication, ?_, ?_, (parseTls_ok hread.tls).2.2.2⟩
  · intro scope hscope
    obtain ⟨given, words, hgiven, hwords⟩ := parseScope_ok (hscope ▸ hread.scope)
    exact ⟨hneeds (hgiven ▸ rfl), given, words, hgiven, hwords⟩
  · intro address haddress
    have hproxy := hread.proxy
    rw [haddress] at hproxy
    obtain ⟨credentials, host, portText, port, -, hspelled⟩ := parseProxy_ok hproxy
    exact ⟨⟨credentials, host, portText, port, hspelled⟩,
      fun _ _ hname hsecret => parseProxy_userInfo hproxy hname hsecret⟩

/-- A registry behind a proxy whose secret has a colon and an `@`, with a scope of two words. All is
trusted, but there is a client identity. -/
def proxied : Properties :=
  [(ApicurioOptions.url, text "https://r/"), (proxyHost, text "p"), (proxyPort, text " 31 "),
    (proxyUsername, text "u"), (proxyPassword, text "a:@"), (tlsTrustAll, text "True"),
    (tlsClientCertificate, text "c"), (tlsClientKey, text "k"),
    (ApicurioOptions.tokenEndpoint, text "https://t"), (ApicurioOptions.clientId, text "i"),
    (ApicurioOptions.clientSecret, text "s"), (ApicurioOptions.oauthScope, text " a  b")]

theorem proxied_accepted :
    ∃ result, fromDict Interpreter.plain (fun _ => .ok (text "https", some (text "r")))
        (fun _ => .ok ()) proxied = .ok result ∧
      result.proxy = some (text "http://u:a%3A%40@p:31") ∧ result.oauthScope = some (text "a b") ∧
      result.tls = ⟨none, true, true, some (text "c", text "k")⟩ :=
  ⟨_, rfl, rfl, rfl, rfl⟩

theorem proxied_is_coherent :
    ∃ result : ApicurioConfig, result.proxy = some (text "http://u:a%3A%40@p:31") ∧
      result.oauthScope = some (text "a b") ∧
      result.Coherent Interpreter.plain (fun _ => .ok (text "https", some (text "r"))) proxied := by
  obtain ⟨result, hresult, hproxy, hscope, -⟩ := proxied_accepted
  exact ⟨result, hproxy, hscope, accepted_is_coherent hresult⟩

/-- Over TLS, the token endpoint has to show a certificate of its host, whatever the properties say. The
registry has to unless all is trusted; but with a client identity besides, the context trusts nobody,
and asks for a certificate nonetheless unless the host is not verified. -/
theorem accepted_trust (h : fromDict py parse loadVerifyLocations config = .ok result) :
    ∃ token registry, result.tls.tokenVerification loadVerifyLocations = .ok token ∧
      result.tls.registryVerification loadVerifyLocations = .ok registry ∧
      (∀ scheme, (token.AsksCertificate scheme ↔ scheme = text "https") ∧
        (token.AsksHostname scheme ↔ scheme = text "https")) ∧
      token.trustsNobody = false ∧
      (∀ scheme, (registry.AsksCertificate scheme ↔ scheme = text "https" ∧
          (¬ Says config tlsTrustAll (text "true") ∨
            Identified config ∧ ¬ Says config tlsVerifyHost (text "false"))) ∧
        (registry.AsksHostname scheme ↔ scheme = text "https" ∧
          ¬ Says config tlsVerifyHost (text "false") ∧
          (¬ Says config tlsTrustAll (text "true") ∨ Identified config))) ∧
      (registry.trustsNobody = true ↔ Says config tlsTrustAll (text "true") ∧ Identified config) := by
  obtain ⟨⟨registry, hregistry⟩, ⟨token, htoken⟩, htls, -⟩ := parseTls_ok (readFrom h).tls
  obtain ⟨htokenRequires, htokenChecks, htokenTrusts⟩ := verification_ok htoken
  obtain ⟨hrequires, hchecks, htrusts⟩ := verification_ok hregistry
  refine ⟨token, registry, htoken, hregistry, fun scheme => ?_, htokenTrusts, fun scheme => ?_, ?_⟩
  · simp [Verification.AsksCertificate, Verification.AsksHostname, htokenRequires, htokenChecks]
  · rw [Verification.AsksCertificate, Verification.AsksHostname, hrequires, hchecks, ← htls.trustAll,
      ← htls.verifyHost, ← htls.identified]
    simp
  · rw [htrusts, ← htls.trustAll, ← htls.identified, Bool.and_eq_true]

theorem proxied_trust :
    ∃ (result : ApicurioConfig) (registry : Verification),
      result.tls.registryVerification (fun _ => .ok ()) = .ok registry ∧
      registry.AsksCertificate (text "https") ∧ registry.trustsNobody = true := by
  obtain ⟨result, hresult, -⟩ := proxied_accepted
  obtain ⟨_, registry, -, hregistry, -, -, hasks, htrusts⟩ := accepted_trust hresult
  have hall : Says proxied tlsTrustAll (text "true") := ⟨text "True", rfl, rfl⟩
  have hidentified : Identified proxied := ⟨rfl, rfl⟩
  have hverified : ¬ Says proxied tlsVerifyHost (text "false") := by
    rintro ⟨value, hvalue, -⟩
    have hnone : proxied.lookup tlsVerifyHost = none := rfl
    rw [hnone] at hvalue
    cases hvalue
  exact ⟨result, registry, hregistry, (hasks _).1.mpr ⟨rfl, .inr ⟨hidentified, hverified⟩⟩,
    htrusts.mpr ⟨hall, hidentified⟩⟩

end ApicurioConfig

end Kaskade
