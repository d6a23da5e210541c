import Wanfw.Plugins.CertLetsencrypt.AcmeClient

/-!
# Issuing a certificate

`cert-ensure.ts`. An order has an authorization for each name. One that is not valid yet
is completed by publishing a TXT record, waiting until it can be seen, answering the
challenge and polling; the record is taken down in a `finally`. With all authorizations
valid the order is finalized and polled, and the certificate is stored.

The two polling loops end when the clock says so; here they are followed for `rounds`
rounds, so that every beginning of every run is a run of the model.
-/

namespace Wanfw.Plugins.CertLetsencrypt

open Wanfw.Js Wanfw.Pluginhost Dialogue

/-- `ACCOUNT_KEY_SECRET_NAME`. -/
def accountKeySecretName : JsString := js "cert-letsencrypt-dns01/acme-account-key"

/-- `POLL_INTERVAL_MS`. -/
def pollIntervalMs : ℕ := 2000

/-- `POLL_TIMEOUT_MS`. -/
def pollTimeoutMs : ℕ := 10 * 60 * 1000

/-- `CertEnsureInput`. -/
structure CertEnsureInput where
  zone : JsString
  names : List JsString
  certName : JsString

/-- A key pair, as it is stored. -/
def KeyPair.toJson (keyPair : KeyPair) : Json :=
  .obj [(js "publicKeyPem", .str keyPair.publicKeyPem), (js "privateKeyPem", .str keyPair.privateKeyPem)]

/-- `now() < deadline`, where the deadline is `POLL_TIMEOUT_MS` after `start`. The sum is not rounded. -/
def beforeDeadline (start now : JsNumber) : Bool :=
  match start.place, now.place with
  | some s, some t => decide (t < s + ((pollTimeoutMs : ℚ) : WithTop ℚ))
  | _, _ => false

/-! ### Values of the server -/

/-- `for (const authUrl of order.order.authorizations)`: what it iterates over. -/
def authorizationUrls (order : Json) : Except JsError (List Json) := do
  match ← readProp (js "authorizations") (some order) with
  | some (.arr xs) => .ok xs
  | some (.str s) => .ok ((codePoints s).map .str)
  | _ => .error (.typeError (js "order.order.authorizations is not iterable"))

/-- The first dns-01 challenge of a list. -/
def findDns01 : List Json → Except JsError (Option Json)
  | [] => .ok none
  | c :: cs => do
    let type ← readProp (js "type") (some c)
    if Value.strictEq type (.str (js "dns-01")) then return some c else findDns01 cs

/-- `authorization.challenges.find((c) => c.type === "dns-01")`. -/
def dns01Challenge (authorization : Json) : Except JsError (Option Json) := do
  match ← readProp (js "challenges") (some authorization) with
  | some (.arr xs) => findDns01 xs
  | challenges => do
    let _ ← readProp (js "find") challenges
    .error (.typeError (js "authorization.challenges.find is not a function"))

/-- `authorization.identifier.value`. -/
def identifierValue (authorization : Json) : Except JsError Value := do
  readProp (js "value") (← readProp (js "identifier") (some authorization))

/-- `resource.status === status`. -/
def hasStatus (resource : Json) (status : JsString) : Bool := Value.strictEq (resource.prop (js "status")) (.str status)

/-- `new Error(text)`; making the text may throw. -/
def newError : Except JsError JsString → JsError
  | .ok text => .error text
  | .error e => e

/-- `txtRecordNameFor`. -/
def txtRecordNameFor (identifier : Value) : Except JsError JsString := do
  let wildcard ← Value.startsWithE (js "identifier") (js "*.") identifier
  let base ← Value.toText identifier
  return js "_acme-challenge." ++ if wildcard then base.drop 2 else base

/-- `dns01TxtValue`. -/
def dns01TxtValue (C : Crypto) (token : Value) (thumbprint : JsString) : Except JsError JsString := do
  let tokenText ← Value.toText token
  return base64url (C.sha256 (utf8 (tokenText ++ js "." ++ thumbprint)))

/-! ### The flow -/

section Flow

variable (N : Numerals) (C : Crypto) (rounds : ℕ)

/-- `loadOrCreateAccountKey`. -/
def loadOrCreateAccountKey : Async Json := do
  let existing ← deps.secretsGet accountKeySecretName
  match existing.filter fun t => !t.isEmpty with
  | some text => liftE (parseJson N text)
  | none => do
    let generated ← deps.generateAccountKeyPair
    deps.secretsPut accountKeySecretName (stringify generated.toJson)
    return generated.toJson

/-- A round of `waitForPropagation`. -/
def propagationRound (recordName expectedValue : JsString) (start : JsNumber) (_ : Unit) : Async (Unit ⊕ Unit) := do
  let now ← deps.now
  if beforeDeadline start now then do
    let values ← deps.resolveTxt recordName
    send (Call.dnsQuery recordName (js "TXT") values)
    if expectedValue ∈ values then return .inr ()
    else do
      deps.sleep pollIntervalMs
      return .inl ()
  else throw (.error (js "DNS-01 TXT record for '" ++ recordName ++ js "' never propagated within " ++
    natToString pollTimeoutMs ++ js "ms"))

/-- `waitForPropagation`. -/
def waitForPropagation (recordName expectedValue : JsString) : Async Unit := do
  let start ← deps.now
  loop (propagationRound recordName expectedValue start) rounds ()

/-- A round of `pollUntilDone`, with `currentNonce` as its state. -/
def pollRound (poll : JsString → Async (Json × JsString)) (doneStatuses : List JsString) (start : JsNumber)
    (currentNonce : JsString) : Async (JsString ⊕ (Json × JsString)) := do
  let now ← deps.now
  if beforeDeadline start now then do
    let (resource, nextNonce) ← poll currentNonce
    let _ ← liftE (readProp (js "status") (some resource))
    if doneStatuses.any (hasStatus resource) then return .inr (resource, nextNonce)
    else if hasStatus resource (js "invalid") then return .inr (resource, nextNonce)
    else do
      deps.sleep pollIntervalMs
      return .inl nextNonce
  else throw (.error (js "polling timed out before reaching a terminal status"))

/-- `pollUntilDone`: `resource` and `nextNonce`. -/
def pollUntilDone (poll : JsString → Async (Json × JsString)) (nonce : JsString) (doneStatuses : List JsString) :
    Async (Json × JsString) := do
  let start ← deps.now
  loop (pollRound poll doneStatuses start) rounds nonce

section Order

variable (input : CertEnsureInput) (accountKey : Value) (accountUrl thumbprint : JsString)

/-- The body of the `try`: the nonce at its end. -/
def completeChallenge (authUrl authorization challenge : Json) (recordName txtValue nonce : JsString) : Async JsString := do
  waitForPropagation rounds recordName txtValue
  let nonce ← respondToChallenge N C accountKey accountUrl nonce (challenge.prop (js "url"))
  let (resource, nonce) ← pollUntilDone rounds (fun n => pollResource N C accountKey accountUrl n (some authUrl)) nonce [js "valid"]
  if hasStatus resource (js "valid") then return nonce
  else throw <| newError do
    let value ← Value.toText (← identifierValue authorization)
    let status ← Value.toText (resource.prop (js "status"))
    return js "authorization for '" ++ value ++ js "' did not validate (status: " ++ status ++ js ")"

/-- The body of the loop over the authorizations: the nonce at its end. -/
def authorize (nonce : JsString) (authUrl : Json) : Async JsString := do
  let (authorization, nonce) ← fetchAuthorization N C accountKey accountUrl nonce (some authUrl)
  let _ ← liftE (readProp (js "status") (some authorization))
  if hasStatus authorization (js "valid") then return nonce
  else do
    match ← liftE (dns01Challenge authorization) with
    | none => throw <| newError do
        let value ← Value.toText (← identifierValue authorization)
        return js "no dns-01 challenge offered for '" ++ value ++ js "'"
    | some challenge => do
      let identifier ← liftE (identifierValue authorization)
      let recordName ← liftE (txtRecordNameFor identifier)
      let txtValue ← liftE (dns01TxtValue C (challenge.prop (js "token")) thumbprint)
      let record : DnsRecord := ⟨js "TXT", recordName, txtValue, some 60⟩
      deps.dnsSetRecord input.zone record
      tryFinally (completeChallenge N C rounds accountKey accountUrl authUrl authorization challenge recordName txtValue nonce)
        (deps.dnsDeleteRecord input.zone record)

/-- From the certificate request to the end. -/
def issue (orderUrl : JsString) (order : Json) (nonce : JsString) : Async Unit := do
  let keyPair ← deps.generateCertKeyPair
  let csrDer ← liftE (csrFor C keyPair input.names)
  let (_, nonce) ← finalizeOrder N C accountKey accountUrl nonce (order.prop (js "finalize")) csrDer
  let (resource, nonce) ←
    pollUntilDone rounds (fun n => pollResource N C accountKey accountUrl n (some (.str orderUrl))) nonce [js "valid"]
  if hasStatus resource (js "valid") ∧ isTruthy (resource.prop (js "certificate")) then do
    let (certPem, _) ← downloadCertificate N C accountKey accountUrl nonce (resource.prop (js "certificate"))
    deps.certsStore input.certName certPem keyPair.privateKeyPem [(js "names", .arr (input.names.map .str))]
  else throw <| newError do
    let status ← Value.toText (resource.prop (js "status"))
    return js "order did not finalize to a valid certificate (status: " ++ status ++ js ")"

end Order

/-- `certEnsure`. -/
def certEnsure (directoryUrl : JsString) (input : CertEnsureInput) : Async Unit := do
  let accountKey ← loadOrCreateAccountKey N
  let dir ← fetchDirectory N directoryUrl
  let newNonceUrl ← liftE (readProp (js "newNonce") (some dir))
  let nonce ← fetchNonce newNonceUrl
  let (accountUrl, nonce) ← createAccount N C (some accountKey) nonce dir
  let (orderUrl, order, nonce) ← createOrder N C (some accountKey) accountUrl nonce dir input.names
  let publicKeyPem ← liftE (readProp (js "publicKeyPem") (some accountKey))
  let thumbprint ← liftE (jwkThumbprint C publicKeyPem)
  let authUrls ← liftE (authorizationUrls order)
  let nonce ← authUrls.foldlM (authorize N C rounds input (some accountKey) accountUrl thumbprint) nonce
  issue N C rounds input (some accountKey) accountUrl orderUrl order nonce

end Flow

/-! ### Which calls the functions make -/

section Emits

variable {P : Call → Prop} {N : Numerals} {C : Crypto} {rounds : ℕ}

theorem emits_of_requested {α : Type} {m : Async α} {nonce : JsString} {url : Value} {payload : Json}
    {Q : α → AcmeHttpResponse → JsString → Prop} (hpost : ∀ url body, P (.http .post url body))
    (h : Yields m (Requested C nonce url payload Q)) : Emits P m := by
  have hposted : ∀ {p calls}, Posted C nonce url payload p calls → ∀ e ∈ calls, P e.call := by
    intro p calls hp
    cases hp <;> simp [hpost]
  refine h.conseq fun r calls hr => ?_
  cases hr with
  | threw hp _ => exact hposted hp
  | waits hp => exact hposted hp
  | returned _ _ _ => simp [hpost]

theorem emits_pollUntilDone {poll : JsString → Async (Json × JsString)} (hnow : P .now) (hsleep : ∀ ms, P (.sleep ms))
    (hpoll : ∀ n, Emits P (poll n)) (nonce : JsString) (doneStatuses : List JsString) :
    Emits P (pollUntilDone rounds poll nonce doneStatuses) := by
  refine Emits.bind (Emits.await hnow) fun start => Emits.loop (fun n => ?_) rounds nonce
  refine Emits.bind (Emits.await hnow) fun now => ?_
  split
  · refine Emits.bind (hpoll n) fun r => Emits.bind (Emits.liftE _) fun _ => ?_
    split
    · exact Emits.pure _
    · split
      · exact Emits.pure _
      · exact Emits.bind (Emits.await (hsleep _)) fun _ => Emits.pure _
  · exact Emits.throw _

theorem emits_loadOrCreateAccountKey (hget : ∀ name, P (.secretsGet name))
    (hput : ∀ name value, P (.secretsPut name value)) (hgenerate : P .generateAccountKeyPair) :
    Emits P (loadOrCreateAccountKey N) := by
  refine Emits.bind (Emits.await (hget _)) fun existing => ?_
  split
  · exact Emits.liftE _
  · exact Emits.bind (Emits.await hgenerate) fun _ => Emits.bind (Emits.await (hput _ _)) fun _ => Emits.pure _

theorem emits_fetchDirectory (hget : ∀ url, P (.http .get url none)) (directoryUrl : JsString) :
    Emits P (fetchDirectory N directoryUrl) := by
  refine Emits.bind (Emits.await (hget _)) fun res => Emits.bind (Emits.liftE _) fun _ => Emits.liftE _

theorem emits_waitForPropagation {recordName txtValue : JsString} (hnow : P .now) (hresolve : ∀ name, P (.resolveTxt name))
    (hquery : ∀ name type result, P (.dnsQuery name type result)) (hsleep : ∀ ms, P (.sleep ms)) :
    Emits P (waitForPropagation rounds recordName txtValue) := by
  refine Emits.bind (Emits.await hnow) fun start => Emits.loop (fun _ => ?_) rounds ()
  refine Emits.bind (Emits.await hnow) fun now => ?_
  split
  · refine Emits.bind (Emits.await (hresolve _)) fun values => Emits.bind (Emits.send (hquery _ _ _)) fun _ => ?_
    split
    · exact Emits.pure _
    · exact Emits.bind (Emits.await (hsleep _)) fun _ => Emits.pure _
  · exact Emits.throw _

end Emits

end Wanfw.Plugins.CertLetsencrypt
