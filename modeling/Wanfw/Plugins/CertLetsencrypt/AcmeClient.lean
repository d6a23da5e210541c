import Wanfw.Js.Dialogue
import Wanfw.Js.JsonParse
import Wanfw.Pluginhost.JsonRpc
import Wanfw.Plugins.CertLetsencrypt.Crypto

/-!
# The ACME client

`acme-client.ts`: one function for each request of the issue flow. Every signed request
takes the nonce it is to carry and gives back the one of its answer (`signedPost`).

The dependencies of `cert.ensure` are calls (`Call`): what they come to is decided by the
world outside, and a body is whatever the server sends, so it is read as any JSON value.
-/

namespace Wanfw.Plugins.CertLetsencrypt

open Wanfw.Js Wanfw.Pluginhost

/-! ### Dependencies -/

/-- The `method` of a request. -/
inductive HttpMethod where
  | get
  | head
  | post
  deriving DecidableEq

/-- `AcmeHttpResponse`. -/
structure AcmeHttpResponse where
  status : JsNumber
  headers : Obj JsString
  body : JsString

/-- `DnsRecord`. -/
structure DnsRecord where
  type : JsString
  name : JsString
  value : JsString
  ttl : Option Decimal

/-- The functions of `CertEnsureDeps`, with their arguments. -/
inductive Call where
  | http (method : HttpMethod) (url : Value) (body : Option JsString)
  | secretsGet (name : JsString)
  | secretsPut (name value : JsString)
  | dnsSetRecord (zone : JsString) (record : DnsRecord)
  | dnsDeleteRecord (zone : JsString) (record : DnsRecord)
  | dnsQuery (name type : JsString) (result : List JsString)
  | certsStore (name certPem keyPem : JsString) (certMeta : Obj Json)
  | resolveTxt (name : JsString)
  | sleep (ms : ℕ)
  | generateAccountKeyPair
  | generateCertKeyPair
  | now

/-- What a dependency resolves to. -/
def Answer : Call → Type
  | .http .. => AcmeHttpResponse
  | .secretsGet _ => Option JsString
  | .resolveTxt _ => List JsString
  | .generateAccountKeyPair | .generateCertKeyPair => KeyPair
  | .now => JsNumber
  | _ => Unit

/-- An asynchronous function of the plugin. -/
abbrev Async (α : Type) : Type := Dialogue Call Answer α

/-- A call with its outcome. -/
abbrev Event : Type := Called Call Answer

namespace deps

open Dialogue

/-- `deps.http`. -/
def http (method : HttpMethod) (url : Value) (body : Option JsString) : Async AcmeHttpResponse := await (Call.http method url body)

/-- `deps.secretsGet`. -/
def secretsGet (name : JsString) : Async (Option JsString) := await (Call.secretsGet name)

/-- `deps.secretsPut`. -/
def secretsPut (name value : JsString) : Async Unit := await (Call.secretsPut name value)

/-- `deps.dnsSetRecord`. -/
def dnsSetRecord (zone : JsString) (record : DnsRecord) : Async Unit := await (Call.dnsSetRecord zone record)

/-- `deps.dnsDeleteRecord`. -/
def dnsDeleteRecord (zone : JsString) (record : DnsRecord) : Async Unit := await (Call.dnsDeleteRecord zone record)

/-- `deps.certsStore`. -/
def certsStore (name certPem keyPem : JsString) (certMeta : Obj Json) : Async Unit :=
  await (Call.certsStore name certPem keyPem certMeta)

/-- `deps.resolveTxt`. -/
def resolveTxt (name : JsString) : Async (List JsString) := await (Call.resolveTxt name)

/-- `deps.sleep`. -/
def sleep (ms : ℕ) : Async Unit := await (Call.sleep ms)

/-- `(deps.generateAccountKeyPair ?? generateAccountKey)()`. -/
def generateAccountKeyPair : Async KeyPair := await Call.generateAccountKeyPair

/-- `(deps.generateCertKeyPair ?? defaultCertKeyPair)()`. -/
def generateCertKeyPair : Async KeyPair := await Call.generateCertKeyPair

/-- `(deps.now ?? Date.now)()`. -/
def now : Async JsNumber := await Call.now

end deps

/-! ### Responses -/

section Responses

variable (N : Numerals) (res : AcmeHttpResponse)

/-- `JSON.parse(text)`; the text of its error is left out. -/
def parseJson (text : JsString) : Except JsError Json :=
  match parse N text with
  | some v => .ok v
  | none => .error (.error (js "SyntaxError"))

/-- `nonceOf`. -/
def nonceOf : Except JsError JsString :=
  match (Obj.get res.headers (js "replay-nonce")).filter fun nonce => !nonce.isEmpty with
  | some nonce => .ok nonce
  | none => .error (.error (js "ACME response missing Replay-Nonce header"))

/-- The `detail` of `parseAcmeError`. Reading a property of `null` throws, and is caught. -/
def errorDetail : Json :=
  match parse N res.body with
  | none | some .null => .str res.body
  | some parsed => Value.coalesce (parsed.prop (js "detail")) (Value.coalesce (parsed.prop (js "type")) (.str res.body))

/-- `parseAcmeError`: what it throws. -/
def parseAcmeError : JsError :=
  match Value.jsonToText (errorDetail N res) with
  | .ok detail => .error (js "ACME server error (HTTP " ++ res.status.toText ++ js "): " ++ detail)
  | .error e => e

/-- `if (res.status >= 400) parseAcmeError(res)`. -/
def checkStatus : Except JsError Unit :=
  if res.status.place.any fun status => decide (400 ≤ status) then .error (parseAcmeError N res) else .ok ()

/-- A location that a response has to have. -/
def locationOf (request : JsString) : Except JsError JsString :=
  match (Obj.get res.headers (js "location")).filter fun location => !location.isEmpty with
  | some location => .ok location
  | none => .error (.error (request ++ js " response missing Location header"))

end Responses

/-! ### Requests -/

section Requests

open Dialogue

variable (N : Numerals) (C : Crypto) (accountKey : Value) (kid nonce : JsString)

/-- `fetchDirectory`. -/
def fetchDirectory (directoryUrl : JsString) : Async Json := do
  let res ← deps.http .get (some (.str directoryUrl)) none
  liftE (checkStatus N res)
  liftE (parseJson N res.body)

/-- `fetchNonce`. -/
def fetchNonce (newNonceUrl : Value) : Async JsString := do
  let res ← deps.http .head newNonceUrl none
  liftE (nonceOf res)

/-- The options of `signJws` for a request. -/
def signOptions (url : Value) (payload : Json) (kid : Option JsString) : Except JsError SignJwsOptions := do
  let privateKeyPem ← readProp (js "privateKeyPem") accountKey
  let jwkPublicKeyPem ← (if isTruthy (kid.map .str) then .ok none else readProp (js "publicKeyPem") accountKey : Except JsError Value)
  return ⟨privateKeyPem, payload, url, nonce, jwkPublicKeyPem, kid⟩

/-- `signedPost`. -/
def signedPost (url : Value) (payload : Json) (kid : Option JsString) : Async (AcmeHttpResponse × JsString) := do
  let options ← liftE (signOptions accountKey nonce url payload kid)
  let jws ← liftE (signJws C options)
  let res ← deps.http .post url (some (stringify (.obj jws)))
  let nextNonce ← liftE (nonceOf res)
  return (res, nextNonce)

/-- `createAccount`: `accountUrl` and `nextNonce`. -/
def createAccount (dir : Json) : Async (JsString × JsString) := do
  let url ← liftE (readProp (js "newAccount") dir)
  let (res, nextNonce) ← signedPost C accountKey nonce url (.obj [(js "termsOfServiceAgreed", .bool true)]) none
  liftE (checkStatus N res)
  let accountUrl ← liftE (locationOf res (js "newAccount"))
  return (accountUrl, nextNonce)

/-- The payload of `createOrder`. -/
def orderPayload (names : List JsString) : Json := .obj [(js "identifiers", .arr (names.map fun value =>
  .obj [(js "type", .str (js "dns")), (js "value", .str value)]))]

/-- `createOrder`: `orderUrl`, `order` and `nextNonce`. -/
def createOrder (dir : Json) (names : List JsString) : Async (JsString × Json × JsString) := do
  let url ← liftE (readProp (js "newOrder") dir)
  let (res, nextNonce) ← signedPost C accountKey nonce url (orderPayload names) (some kid)
  liftE (checkStatus N res)
  let orderUrl ← liftE (locationOf res (js "newOrder"))
  let order ← liftE (parseJson N res.body)
  return (orderUrl, order, nextNonce)

/-- `postAsGet`: the empty text as the payload. -/
def postAsGet (url : Value) : Async (AcmeHttpResponse × JsString) := signedPost C accountKey nonce url (.str []) (some kid)

/-- `pollResource`: `resource` and `nextNonce`. -/
def pollResource (url : Value) : Async (Json × JsString) := do
  let (res, nextNonce) ← postAsGet C accountKey kid nonce url
  liftE (checkStatus N res)
  let resource ← liftE (parseJson N res.body)
  return (resource, nextNonce)

/-- `fetchAuthorization`, which is `pollResource` word for word. -/
def fetchAuthorization (authUrl : Value) : Async (Json × JsString) := pollResource N C accountKey kid nonce authUrl

/-- `respondToChallenge`: `nextNonce`. -/
def respondToChallenge (challengeUrl : Value) : Async JsString := do
  let (res, nextNonce) ← signedPost C accountKey nonce challengeUrl (.obj []) (some kid)
  liftE (checkStatus N res)
  return nextNonce

/-- The payload of `finalizeOrder`. -/
def finalizePayload (csrDer : List UInt8) : Json := .obj [(js "csr", .str (base64url csrDer))]

/-- `finalizeOrder`: `order` and `nextNonce`. -/
def finalizeOrder (finalizeUrl : Value) (csrDer : List UInt8) : Async (Json × JsString) := do
  let (res, nextNonce) ← signedPost C accountKey nonce finalizeUrl (finalizePayload csrDer) (some kid)
  liftE (checkStatus N res)
  let order ← liftE (parseJson N res.body)
  return (order, nextNonce)

/-- `downloadCertificate`: `certPem` and `nextNonce`. -/
def downloadCertificate (certificateUrl : Value) : Async (JsString × JsString) := do
  let (res, nextNonce) ← postAsGet C accountKey kid nonce certificateUrl
  liftE (checkStatus N res)
  return (res.body, nextNonce)

end Requests

/-! ### What a request does -/

section Specs

open Dialogue

/-- A body that was signed for this request. -/
def SignedFor (C : Crypto) (nonce : JsString) (url : Value) (payload : Json) (body : JsString) : Prop :=
  ∃ options, IsSigned C options body ∧ options.nonce = nonce ∧ options.url = url ∧ options.payload = payload

/-- What `signedPost` does: it fails before the request, or sends it and gets no answer, a failure, an answer without a
nonce or an answer with one. -/
inductive Posted (C : Crypto) (nonce : JsString) (url : Value) (payload : Json) :
    Progress (AcmeHttpResponse × JsString) → List Event → Prop where
  | unsigned (e : JsError) : Posted C nonce url payload (.threw e) []
  | waits (body : JsString) (h : SignedFor C nonce url payload body) :
    Posted C nonce url payload .running [⟨.http .post url (some body), none⟩]
  | failed (body : JsString) (h : SignedFor C nonce url payload body) (e : JsError) :
    Posted C nonce url payload (.threw e) [⟨.http .post url (some body), some (.error e)⟩]
  | bare (body : JsString) (h : SignedFor C nonce url payload body) (res : AcmeHttpResponse) (e : JsError)
    (hnonce : nonceOf res = .error e) :
    Posted C nonce url payload (.threw e) [⟨.http .post url (some body), some (.ok res)⟩]
  | answered (body : JsString) (h : SignedFor C nonce url payload body) (res : AcmeHttpResponse) (nextNonce : JsString)
    (hnonce : nonceOf res = .ok nextNonce) :
    Posted C nonce url payload (.returned (res, nextNonce)) [⟨.http .post url (some body), some (.ok res)⟩]

variable {N : Numerals} {C : Crypto} {accountKey url : Value} {kid nonce : JsString} {payload : Json}

theorem signedPost_yields (k : Option JsString) :
    Yields (signedPost C accountKey nonce url payload k) (Posted C nonce url payload) := by
  refine Yields.liftE_bind (fun options hoptions => ?_) fun e _ => .unsigned e
  obtain ⟨_, _, hoptions⟩ := except_bind_ok.mp hoptions
  obtain ⟨_, _, hoptions⟩ := except_bind_ok.mp hoptions
  cases hoptions
  refine Yields.liftE_bind (fun jws hjws => ?_) fun e _ => .unsigned e
  have hbody : SignedFor C nonce url payload (stringify (.obj jws)) := ⟨_, ⟨jws, hjws, rfl⟩, rfl, rfl, rfl⟩
  refine Yields.await_bind (fun res => ?_) (.failed _ hbody) (.waits _ hbody)
  exact Yields.liftE_bind (fun n hn => Yields.pure (.answered _ hbody res n hn)) fun e he => .bare _ hbody res e he

/-- What a request with a decoded answer does: `Q` relates what it returns to the answer. -/
inductive Requested {α : Type} (C : Crypto) (nonce : JsString) (url : Value) (payload : Json)
    (Q : α → AcmeHttpResponse → JsString → Prop) : Progress α → List Event → Prop where
  | threw {p : Progress (AcmeHttpResponse × JsString)} {e : JsError} {calls : List Event}
    (h : Posted C nonce url payload p calls) (hp : p ≠ .running) : Requested C nonce url payload Q (.threw e) calls
  | waits {calls : List Event} (h : Posted C nonce url payload .running calls) : Requested C nonce url payload Q .running calls
  | returned {body : JsString} {a : α} {res : AcmeHttpResponse} {nextNonce : JsString} (h : SignedFor C nonce url payload body)
    (hnonce : nonceOf res = .ok nextNonce) (hQ : Q a res nextNonce) :
    Requested C nonce url payload Q (.returned a) [⟨.http .post url (some body), some (.ok res)⟩]

theorem requested_yields {α : Type} {Q : α → AcmeHttpResponse → JsString → Prop} (k : Option JsString)
    {f : AcmeHttpResponse × JsString → Async α} (hf : ∀ res n, Yields (f (res, n)) fun r calls => calls = [] ∧ match r with
      | .returned a => Q a res n
      | .threw _ => True
      | .running => False) : Yields (signedPost C accountKey nonce url payload k >>= f) (Requested C nonce url payload Q) := by
  refine Yields.bind (signedPost_yields k) (fun a calls h => ?_) (fun e calls h => .threw h (by simp)) fun calls h => .waits h
  cases h with
  | answered body hbody res n hn =>
    refine (hf res n).conseq fun r calls' hr => ?_
    obtain ⟨rfl, hr⟩ := hr
    cases r with
    | returned a => exact .returned hbody hn hr
    | threw e => exact .threw (.answered body hbody res n hn) (by simp)
    | running => exact hr.elim

/-- A request whose URL is read first; without one there is no request. -/
theorem requested_url {α : Type} {Q : α → AcmeHttpResponse → JsString → Prop} {x : Except JsError Value} {f : Value → Async α}
    (hf : ∀ url, Yields (f url) (Requested C nonce url payload Q)) :
    ∃ url, Yields (liftE x >>= f) (Requested C nonce url payload Q) := by
  cases x with
  | ok url =>
    refine ⟨url, Yields.liftE_bind (fun a ha => ?_) fun _ h => nomatch h⟩
    cases ha
    exact hf url
  | error e => exact ⟨none, Yields.liftE_bind (fun _ h => nomatch h) fun e _ => .threw (.unsigned e) (by simp)⟩

/-- What is known of a resource that was read: its response is no error, and this is its body. -/
def Holds (N : Numerals) (resource : Json) (res : AcmeHttpResponse) : Prop :=
  checkStatus N res = .ok () ∧ parseJson N res.body = .ok resource

theorem createAccount_yields (dir : Json) : ∃ url, Yields (createAccount N C accountKey nonce dir)
    (Requested C nonce url (.obj [(js "termsOfServiceAgreed", .bool true)]) fun r _ n => r.2 = n) := by
  refine requested_url fun url => requested_yields none fun res n => ?_
  refine Yields.liftE_bind (fun _ _ => ?_) fun _ _ => ⟨rfl, trivial⟩
  refine Yields.liftE_bind (fun _ _ => ?_) fun _ _ => ⟨rfl, trivial⟩
  exact Yields.pure ⟨rfl, rfl⟩

theorem createOrder_yields (dir : Json) (names : List JsString) : ∃ url, Yields (createOrder N C accountKey kid nonce dir names)
    (Requested C nonce url (orderPayload names) fun r res n =>
      locationOf res (js "newOrder") = .ok r.1 ∧ Holds N r.2.1 res ∧ r.2.2 = n) := by
  refine requested_url fun url => requested_yields (some kid) fun res n => ?_
  refine Yields.liftE_bind (fun _ hstatus => ?_) fun _ _ => ⟨rfl, trivial⟩
  refine Yields.liftE_bind (fun orderUrl hlocation => ?_) fun _ _ => ⟨rfl, trivial⟩
  refine Yields.liftE_bind (fun order horder => ?_) fun _ _ => ⟨rfl, trivial⟩
  exact Yields.pure ⟨rfl, hlocation, ⟨hstatus, horder⟩, rfl⟩

theorem pollResource_yields : Yields (pollResource N C accountKey kid nonce url)
    (Requested C nonce url (.str []) fun r res n => Holds N r.1 res ∧ r.2 = n) := by
  refine requested_yields (some kid) fun res n => ?_
  refine Yields.liftE_bind (fun _ hstatus => ?_) fun _ _ => ⟨rfl, trivial⟩
  refine Yields.liftE_bind (fun resource hresource => ?_) fun _ _ => ⟨rfl, trivial⟩
  exact Yields.pure ⟨rfl, ⟨hstatus, hresource⟩, rfl⟩

theorem respondToChallenge_yields :
    Yields (respondToChallenge N C accountKey kid nonce url) (Requested C nonce url (.obj []) fun r _ n => r = n) := by
  refine requested_yields (some kid) fun res n => ?_
  exact Yields.liftE_bind (fun _ _ => Yields.pure ⟨rfl, rfl⟩) fun _ _ => ⟨rfl, trivial⟩

theorem finalizeOrder_yields (csrDer : List UInt8) : Yields (finalizeOrder N C accountKey kid nonce url csrDer)
    (Requested C nonce url (finalizePayload csrDer) fun r _ n => r.2 = n) := by
  refine requested_yields (some kid) fun res n => ?_
  refine Yields.liftE_bind (fun _ _ => ?_) fun _ _ => ⟨rfl, trivial⟩
  exact Yields.liftE_bind (fun _ _ => Yields.pure ⟨rfl, rfl⟩) fun _ _ => ⟨rfl, trivial⟩

theorem downloadCertificate_yields : Yields (downloadCertificate N C accountKey kid nonce url)
    (Requested C nonce url (.str []) fun r res n => r.1 = res.body ∧ r.2 = n) := by
  refine requested_yields (some kid) fun res n => ?_
  exact Yields.liftE_bind (fun _ _ => Yields.pure ⟨rfl, rfl, rfl⟩) fun _ _ => ⟨rfl, trivial⟩

end Specs

end Wanfw.Plugins.CertLetsencrypt
