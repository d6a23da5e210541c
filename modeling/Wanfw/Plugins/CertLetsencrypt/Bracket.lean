import Wanfw.Plugins.CertLetsencrypt.CertEnsure
import Wanfw.Store.History

/-!
# Records that are taken down, certificates that are stored

Between a TXT record that was published and the request to delete it nothing else is
published or deleted, and the request is there before the call is over (`Tidy`); the proof
goes through the constructs of the flow, with the `finally` as its only interesting case.

A certificate is stored at the end only. What must have been answered before is read off
the way through the flow: the order, a valid authorization for each of its URLs, and a
valid order with a certificate (`ReadyToStore`).
-/

namespace Wanfw.Plugins.CertLetsencrypt

open Wanfw.Js Wanfw.Pluginhost Wanfw.Store Dialogue

/-! ### Records -/

/-- Calls that publish a record or delete one. -/
def touchesRecord : Call → Bool
  | .dnsSetRecord _ _ | .dnsDeleteRecord _ _ => true
  | _ => false

/-- The record that was published. -/
def published : Event → Option (JsString × DnsRecord)
  | ⟨.dnsSetRecord zone record, some (.ok _)⟩ => some (zone, record)
  | _ => none

/-- The record that is to be deleted. -/
def retracted : Event → Option (JsString × DnsRecord)
  | ⟨.dnsDeleteRecord zone record, _⟩ => some (zone, record)
  | _ => none

theorem retracted_eq_some {e : Event} {zone : JsString} {record : DnsRecord} (h : retracted e = some (zone, record)) :
    ∃ o, e = ⟨.dnsDeleteRecord zone record, o⟩ := by
  rcases e with ⟨call, outcome⟩
  cases call with
  | dnsDeleteRecord zone' record' =>
    cases h
    exact ⟨outcome, rfl⟩
  | _ => cases h

theorem published_eq_some {e : Event} {zone : JsString} {record : DnsRecord} (h : published e = some (zone, record)) :
    e = ⟨.dnsSetRecord zone record, some (.ok ())⟩ := by
  rcases e with ⟨call, outcome⟩
  cases call with
  | dnsSetRecord zone' record' =>
    rcases outcome with _ | ⟨_ | _⟩
    · cases h
    · cases h
    · cases h
      rfl
  | _ => cases h

/-- From the record that is up before to the one that is up after. -/
abbrev Records : Option (JsString × DnsRecord) → List Event → Option (JsString × DnsRecord) → Prop :=
  History.Bracketed (fun e : Event => touchesRecord e.call = true) published retracted

/-- With no record up, `m` leaves none up unless it is still running. -/
def Tidy {α : Type} (m : Async α) : Prop :=
  Yields m fun r calls => ∃ t, Records none calls t ∧ (r ≠ .running → t = none)

section Tidy

variable {α β : Type} {m : Async α} {f : α → Async β}

theorem Tidy.of_quiet (h : Emits (fun c => touchesRecord c = false) m) : Tidy m :=
  h.conseq fun _ calls hcalls => ⟨none, .of_quiet (by simpa using hcalls), fun _ => rfl⟩

theorem Tidy.throw (e : JsError) : Tidy (Dialogue.throw e : Async α) := Tidy.of_quiet (Emits.throw e)

theorem Tidy.bind (hm : Tidy m) (hf : ∀ a, Tidy (f a)) : Tidy (m >>= f) := by
  refine Yields.bind hm (fun a calls h => ?_) (fun e calls h => ?_) fun calls h => ?_
  · obtain ⟨t, hrecords, ht⟩ := h
    obtain rfl := ht (by simp)
    exact (hf a).conseq fun r calls' ⟨u, hrecords', hu⟩ => ⟨u, hrecords.append hrecords', hu⟩
  · obtain ⟨t, hrecords, ht⟩ := h
    exact ⟨t, hrecords, fun _ => ht (by simp)⟩
  · obtain ⟨t, hrecords, _⟩ := h
    exact ⟨t, hrecords, fun h => absurd rfl h⟩

theorem Tidy.liftE_bind {x : Except JsError α} (h : ∀ a, x = .ok a → Tidy (f a)) : Tidy (liftE x >>= f) :=
  Yields.liftE_bind h fun _ _ => ⟨none, .nil _, fun _ => rfl⟩

theorem Tidy.foldlM {γ : Type} {body : β → γ → Async β} (h : ∀ b x, Tidy (body b x)) (xs : List γ) (b : β) :
    Tidy (xs.foldlM body b) := by
  induction xs generalizing b with
  | nil => exact Tidy.of_quiet (Emits.pure b)
  | cons x xs ih =>
    rw [List.foldlM_cons]
    exact Tidy.bind (h b x) ih

/-- A record that is published, and deleted in a `finally`. -/
theorem Tidy.publish {zone : JsString} {record : DnsRecord} (hm : Emits (fun c => touchesRecord c = false) m) :
    Tidy (deps.dnsSetRecord zone record >>= fun _ => tryFinally m (deps.dnsDeleteRecord zone record)) := by
  refine Yields.await_bind (fun _ => ?_) (fun _ => ⟨none, .failed rfl rfl (.nil _), fun _ => rfl⟩)
    ⟨none, .failed rfl rfl (.nil _), fun _ => rfl⟩
  have hdeleted : ∀ calls : List Event, (∀ e ∈ calls, touchesRecord e.call = false) → ∀ o,
      Records none (⟨.dnsSetRecord zone record, some (.ok ())⟩ :: (calls ++ [⟨.dnsDeleteRecord zone record, o⟩])) none := by
    intro calls hcalls o
    refine .opened rfl (.append (.of_quiet (by simpa using hcalls)) ?_)
    exact .closed rfl rfl (.nil _)
  refine Yields.tryFinally hm (fun a calls h => ?_) (fun e calls h => ?_) fun calls h => ?_
  · exact Yields.await (fun _ => ⟨none, hdeleted calls h _, fun _ => rfl⟩) (fun _ => ⟨none, hdeleted calls h _, fun _ => rfl⟩)
      ⟨none, hdeleted calls h _, fun _ => rfl⟩
  · exact Yields.await (fun _ => ⟨none, hdeleted calls h _, fun _ => rfl⟩) (fun _ => ⟨none, hdeleted calls h _, fun _ => rfl⟩)
      ⟨none, hdeleted calls h _, fun _ => rfl⟩
  · exact ⟨some (zone, record), .opened rfl (.of_quiet (by simpa using h)), fun h => absurd rfl h⟩

end Tidy

/-! ### What a run has been told -/

/-- The call that stores a certificate. -/
def isStore : Call → Bool
  | .certsStore _ _ _ _ => true
  | _ => false

/-- A signed request to this URL was answered with this resource. -/
def Shows (N : Numerals) (url : Value) (resource : Json) (e : Event) : Prop :=
  ∃ body res, e = ⟨.http .post url (some body), some (.ok res)⟩ ∧ Holds N resource res

/-- The authorization was valid when it was fetched. -/
def ValidOnFetch (N : Numerals) (authUrl : Json) (calls : List Event) : Prop :=
  ∃ e authorization, calls = [e] ∧ Shows N (some authUrl) authorization e ∧ hasStatus authorization (js "valid") = true

/-- The authorization was polled as valid, after its dns-01 challenge had been answered. -/
def ValidAfterChallenge (N : Numerals) (authUrl : Json) (calls : List Event) : Prop :=
  ∃ fetched authorization challenge waiting body res polls poll resource deleted,
    calls = fetched :: (waiting ++ ⟨.http .post (challenge.prop (js "url")) (some body), some (.ok res)⟩ ::
      (polls ++ poll :: deleted)) ∧
    Shows N (some authUrl) authorization fetched ∧ dns01Challenge authorization = .ok (some challenge) ∧
    Shows N (some authUrl) resource poll ∧ hasStatus resource (js "valid") = true

/-- The last part of a run: the key pair, the certificate request, the valid order and its certificate. -/
def Finished (N : Numerals) (C : Crypto) (input : CertEnsureInput) (orderUrl : JsString) (order : Json)
    (certPem keyPem : JsString) (calls : List Event) : Prop :=
  ∃ keyPair csrDer nonce body res polls poll resource body' res',
    calls = ⟨.generateCertKeyPair, some (.ok keyPair)⟩ :: ⟨.http .post (order.prop (js "finalize")) (some body), some (.ok res)⟩ ::
      (polls ++ [poll, ⟨.http .post (resource.prop (js "certificate")) (some body'), some (.ok res')⟩]) ∧
    csrFor C keyPair input.names = .ok csrDer ∧
    SignedFor C nonce (order.prop (js "finalize")) (finalizePayload csrDer) body ∧
    Shows N (some (.str orderUrl)) resource poll ∧ hasStatus resource (js "valid") = true ∧
    isTruthy (resource.prop (js "certificate")) = true ∧ certPem = res'.body ∧ keyPem = keyPair.privateKeyPem

/-- What comes before a certificate is stored: the order for the names, each of its authorizations reported valid, and the
order reported valid with a certificate. -/
def ReadyToStore (N : Numerals) (C : Crypto) (input : CertEnsureInput) (certPem keyPem : JsString) (before : List Event) : Prop :=
  ∃ start nonce url body res order orderUrl authUrls segments last,
    before = start ++ ⟨.http .post url (some body), some (.ok res)⟩ :: (segments.flatten ++ last) ∧
    SignedFor C nonce url (orderPayload input.names) body ∧ Holds N order res ∧
    locationOf res (js "newOrder") = .ok orderUrl ∧ authorizationUrls order = .ok authUrls ∧
    List.Forall₂ (fun authUrl calls => ValidOnFetch N authUrl calls ∨ ValidAfterChallenge N authUrl calls) authUrls segments ∧
    Finished N C input orderUrl order certPem keyPem last

section Flow

variable {α : Type} {m : Async α} {N : Numerals} {C : Crypto} {rounds : ℕ} {accountKey url : Value}
  {accountUrl thumbprint recordName txtValue nonce : JsString} {payload : Json} {input : CertEnsureInput}

/-- Calls that neither touch a record nor store a certificate. -/
def Plain (c : Call) : Prop := touchesRecord c = false ∧ isStore c = false

theorem Plain.not_store {c : Call} (h : Plain c) : ¬ isStore c = true := by simp [h.2]

theorem plain_post (url : Value) (body : Option JsString) : Plain (.http .post url body) := ⟨rfl, rfl⟩

theorem returns_of_requested {Q : α → AcmeHttpResponse → JsString → Prop} (h : Yields m (Requested C nonce url payload Q)) :
    Returns m fun a calls => ∃ body res n, calls = [⟨.http .post url (some body), some (.ok res)⟩] ∧
      SignedFor C nonce url payload body ∧ Q a res n := by
  refine h.conseq fun r calls hr a ha => ?_
  subst ha
  cases hr with
  | @returned body _ res n hbody _ hQ => exact ⟨body, res, n, rfl, hbody, hQ⟩

theorem pollResource_returns : Returns (pollResource N C accountKey accountUrl nonce url) fun r calls =>
    ∃ e, calls = [e] ∧ Shows N url r.1 e := by
  refine (returns_of_requested pollResource_yields).conseq fun r calls h => ?_
  obtain ⟨body, res, n, rfl, _, hholds, _⟩ := h
  exact ⟨_, rfl, body, res, rfl, hholds⟩

theorem emits_pollResource : Emits Plain (pollResource N C accountKey accountUrl nonce url) :=
  emits_of_requested plain_post pollResource_yields

/-- What polling returns is what the last poll showed. -/
theorem pollUntilDone_returns {poll : JsString → Async (Json × JsString)}
    (hpoll : ∀ n, Returns (poll n) fun r calls => ∃ e, calls = [e] ∧ Shows N url r.1 e) (doneStatuses : List JsString) :
    Returns (pollUntilDone rounds poll nonce doneStatuses) fun r calls => ∃ polls e, calls = polls ++ [e] ∧ Shows N url r.1 e := by
  have hround : ∀ start n, Returns (pollRound poll doneStatuses start n) fun r calls =>
      ∀ a : Json × JsString, r = .inr a → ∀ before : List Event, ∃ polls e, before ++ calls = polls ++ [e] ∧ Shows N url a.1 e := by
    intro start n
    refine Returns.bind (Returns.await (Q := fun now calls => ∃ r, calls = [⟨.now, r⟩]) fun _ => ⟨_, rfl⟩) fun now calls hnow => ?_
    split
    · refine Returns.bind (hpoll n) fun r calls' hr => ?_
      obtain ⟨e, rfl, hshows⟩ := hr
      refine Returns.bind (Q := fun _ calls => calls = []) (Returns.liftE fun _ _ => rfl) fun _ calls' hnil => ?_
      subst hnil
      have hlast : ∀ a : Json × JsString, (Sum.inr r : JsString ⊕ (Json × JsString)) = .inr a → ∀ before : List Event,
          ∃ polls e', before ++ (calls ++ ([e] ++ ([] ++ []))) = polls ++ [e'] ∧ Shows N url a.1 e' := by
        intro a ha before
        cases ha
        exact ⟨before ++ calls, e, by simp, hshows⟩
      split
      · exact Returns.pure hlast
      · split
        · exact Returns.pure hlast
        · exact Returns.bind (Q := fun _ _ => True) (Returns.await fun _ => trivial) fun _ _ _ => Returns.pure fun _ h => nomatch h
    · exact Returns.throw _
  refine Returns.bind (Q := fun _ _ => True) (Returns.await fun _ => trivial) fun start calls _ => ?_
  exact Returns.loop (Q := fun (a : Json × JsString) calls => ∃ polls e, calls = polls ++ [e] ∧ Shows N url a.1 e) (hround start) rounds nonce calls

theorem emits_completeChallenge (authUrl authorization challenge : Json) :
    Emits Plain (completeChallenge N C rounds accountKey accountUrl authUrl authorization challenge recordName txtValue nonce) := by
  refine Emits.bind (emits_waitForPropagation ⟨rfl, rfl⟩ (fun _ => ⟨rfl, rfl⟩) (fun _ _ _ => ⟨rfl, rfl⟩) fun _ => ⟨rfl, rfl⟩)
    fun _ => ?_
  refine Emits.bind (emits_of_requested plain_post respondToChallenge_yields) fun n => ?_
  refine Emits.bind (emits_pollUntilDone ⟨rfl, rfl⟩ (fun _ => ⟨rfl, rfl⟩) (fun _ => emits_pollResource) _ _) fun r => ?_
  dsimp only
  split
  · exact Emits.pure _
  · exact Emits.throw _

theorem completeChallenge_returns (authUrl authorization challenge : Json) :
    Returns (completeChallenge N C rounds accountKey accountUrl authUrl authorization challenge recordName txtValue nonce)
      fun _ calls => ∃ waiting body res polls poll resource,
        calls = waiting ++ ⟨.http .post (challenge.prop (js "url")) (some body), some (.ok res)⟩ :: (polls ++ [poll]) ∧
        Shows N (some authUrl) resource poll ∧ hasStatus resource (js "valid") = true := by
  refine Returns.bind (Q := fun _ _ => True) (fun _ _ _ _ => trivial) fun _ waiting _ => ?_
  refine Returns.bind (returns_of_requested respondToChallenge_yields) fun n calls hresponded => ?_
  obtain ⟨body, res, _, rfl, _⟩ := hresponded
  refine Returns.bind (pollUntilDone_returns (fun _ => pollResource_returns) _) fun r calls hpolled => ?_
  obtain ⟨polls, poll, rfl, hshows⟩ := hpolled
  dsimp only
  split
  · rename_i hvalid
    exact Returns.pure ⟨waiting, body, res, polls, poll, r.1, by simp, hshows, hvalid⟩
  · exact Returns.throw _

/-- An authorization was valid already, or its challenge was completed. -/
theorem authorize_returns (authUrl : Json) :
    Returns (authorize N C rounds input accountKey accountUrl thumbprint nonce authUrl) fun _ calls =>
      ValidOnFetch N authUrl calls ∨ ValidAfterChallenge N authUrl calls := by
  refine Returns.bind pollResource_returns fun r calls hfetched => ?_
  obtain ⟨fetched, rfl, hshows⟩ := hfetched
  refine Returns.bind (Q := fun _ calls => calls = []) (Returns.liftE fun _ _ => rfl) fun _ calls hnil => ?_
  subst hnil
  split
  · rename_i hvalid
    exact Returns.pure (.inl ⟨fetched, r.1, rfl, hshows, hvalid⟩)
  · refine Returns.bind (Q := fun challenge calls => calls = [] ∧ dns01Challenge r.1 = .ok challenge)
      (Returns.liftE fun _ h => ⟨rfl, h⟩) fun challenge calls hchallenge => ?_
    obtain ⟨rfl, hchallenge⟩ := hchallenge
    cases challenge with
    | none => exact Returns.throw _
    | some challenge =>
      refine Returns.bind (Q := fun _ calls => calls = []) (Returns.liftE fun _ _ => rfl) fun identifier calls hnil => ?_
      subst hnil
      refine Returns.bind (Q := fun _ calls => calls = []) (Returns.liftE fun _ _ => rfl) fun recordName calls hnil => ?_
      subst hnil
      refine Returns.bind (Q := fun _ calls => calls = []) (Returns.liftE fun _ _ => rfl) fun txtValue calls hnil => ?_
      subst hnil
      refine Returns.bind (Q := fun _ _ => True) (Returns.await fun _ => trivial) fun _ set _ => ?_
      refine Returns.tryFinally (completeChallenge_returns authUrl r.1 challenge) fun _ calls hcompleted => ?_
      obtain ⟨waiting, body, res, polls, poll, resource, rfl, hpoll, hvalid⟩ := hcompleted
      refine (Returns.await (Q := fun _ _ => True) fun _ => trivial).conseq fun _ deleted _ => .inr ?_
      exact ⟨fetched, r.1, challenge, set ++ waiting, body, res, polls, poll, resource, deleted, by simp, hshows, hchallenge, hpoll,
        hvalid⟩

theorem emits_authorize (authUrl : Json) :
    Emits (fun c => isStore c = false) (authorize N C rounds input accountKey accountUrl thumbprint nonce authUrl) := by
  refine Emits.bind (emits_pollResource.mono fun _ h => h.2) fun r => Emits.bind (Emits.liftE _) fun _ => ?_
  split
  · exact Emits.pure _
  · refine Emits.bind (Emits.liftE _) fun challenge => ?_
    cases challenge with
    | none => exact Emits.throw _
    | some challenge =>
      refine Emits.bind (Emits.liftE _) fun _ => Emits.bind (Emits.liftE _) fun _ => Emits.bind (Emits.liftE _) fun _ => ?_
      refine Emits.bind (Emits.await rfl) fun _ => ?_
      exact Emits.tryFinally ((emits_completeChallenge authUrl r.1 challenge).mono fun _ h => h.2) (Emits.await rfl)

theorem authorize_tidy (authUrl : Json) :
    Tidy (authorize N C rounds input accountKey accountUrl thumbprint nonce authUrl) := by
  refine Tidy.bind (Tidy.of_quiet (emits_pollResource.mono fun _ h => h.1)) fun r => Tidy.liftE_bind fun _ _ => ?_
  split
  · exact Tidy.of_quiet (Emits.pure _)
  · refine Tidy.liftE_bind fun challenge _ => ?_
    cases challenge with
    | none => exact Tidy.throw _
    | some challenge =>
      refine Tidy.liftE_bind fun _ _ => Tidy.liftE_bind fun _ _ => Tidy.liftE_bind fun _ _ => ?_
      exact Tidy.publish ((emits_completeChallenge authUrl r.1 challenge).mono fun _ h => h.1)

/-- The part of `issue` before the certificate is stored. -/
theorem issue_places (orderUrl : JsString) (order : Json) :
    Places (fun c => isStore c = true) (issue N C rounds input accountKey accountUrl orderUrl order nonce) fun before e after =>
      after = [] ∧ ∃ certPem keyPem o, e = ⟨.certsStore input.certName certPem keyPem [(js "names", .arr (input.names.map .str))], o⟩ ∧
        Finished N C input orderUrl order certPem keyPem before := by
  have hplain : ∀ {α : Type} {m : Async α}, Emits Plain m → Emits (fun c => ¬ isStore c = true) m :=
    fun h => h.mono fun _ hc => hc.not_store
  refine Places.bind (Emits.await (by decide)) (Returns.await (Q := fun keyPair calls =>
    calls = [⟨.generateCertKeyPair, some (.ok keyPair)⟩]) fun _ => rfl) fun keyPair calls hkey => ?_
  subst hkey
  refine Places.bind (Q := fun csrDer calls => calls = [] ∧ csrFor C keyPair input.names = .ok csrDer) (Emits.liftE _)
    (Returns.liftE fun _ h => ⟨rfl, h⟩) fun csrDer calls hcsr => ?_
  obtain ⟨rfl, hcsr⟩ := hcsr
  refine Places.bind (hplain (emits_of_requested plain_post (finalizeOrder_yields csrDer)))
    (returns_of_requested (finalizeOrder_yields csrDer)) fun r calls hfinalized => ?_
  obtain ⟨body, res, _, rfl, hsigned, _⟩ := hfinalized
  refine Places.bind (hplain (emits_pollUntilDone ⟨rfl, rfl⟩ (fun _ => ⟨rfl, rfl⟩) (fun _ => emits_pollResource) _ _))
    (pollUntilDone_returns (fun _ => pollResource_returns) _) fun polled calls hpolled => ?_
  obtain ⟨polls, poll, rfl, hshows⟩ := hpolled
  dsimp only
  split
  · rename_i hvalid
    refine Places.bind (hplain (emits_of_requested plain_post downloadCertificate_yields))
      (returns_of_requested downloadCertificate_yields) fun downloaded calls hdownloaded => ?_
    obtain ⟨body', res', _, rfl, _, hcert, _⟩ := hdownloaded
    refine Places.await fun o => ⟨rfl, downloaded.1, keyPair.privateKeyPem, o, rfl, ?_⟩
    exact ⟨keyPair, csrDer, _, body, res, polls, poll, polled.1, body', res', by simp, hcsr, hsigned, hshows, hvalid.1, hvalid.2,
      hcert, rfl⟩
  · exact Places.of_emits (Emits.throw _)

theorem issue_tidy (orderUrl : JsString) (order : Json) :
    Tidy (issue N C rounds input accountKey accountUrl orderUrl order nonce) := by
  have hquiet : ∀ {α : Type} {m : Async α}, Emits Plain m → Tidy m := fun h => Tidy.of_quiet (h.mono fun _ hc => hc.1)
  refine Tidy.bind (Tidy.of_quiet (Emits.await rfl)) fun keyPair => Tidy.liftE_bind fun csrDer _ => ?_
  refine Tidy.bind (hquiet (emits_of_requested plain_post (finalizeOrder_yields csrDer))) fun r => ?_
  refine Tidy.bind (hquiet (emits_pollUntilDone ⟨rfl, rfl⟩ (fun _ => ⟨rfl, rfl⟩) (fun _ => emits_pollResource) _ _)) fun polled => ?_
  dsimp only
  split
  · refine Tidy.bind (hquiet (emits_of_requested plain_post downloadCertificate_yields)) fun downloaded => ?_
    exact Tidy.of_quiet (Emits.await rfl)
  · exact Tidy.throw _

/-- The call `e` stores the certificate that was issued, as the last call of all. -/
def StoresAtEnd (N : Numerals) (C : Crypto) (input : CertEnsureInput) (before : List Event) (e : Event) (after : List Event) : Prop :=
  after = [] ∧ ∃ certPem keyPem o, e = ⟨.certsStore input.certName certPem keyPem [(js "names", .arr (input.names.map .str))], o⟩ ∧
    ReadyToStore N C input certPem keyPem before

theorem ReadyToStore.prepend {certPem keyPem : JsString} {before : List Event} (h : ReadyToStore N C input certPem keyPem before)
    (calls : List Event) : ReadyToStore N C input certPem keyPem (calls ++ before) := by
  obtain ⟨start, nonce, url, body, res, order, orderUrl, authUrls, segments, last, rfl, hrest⟩ := h
  exact ⟨calls ++ start, nonce, url, body, res, order, orderUrl, authUrls, segments, last, by simp, hrest⟩

theorem certEnsure_tidy (directoryUrl : JsString) : Tidy (certEnsure N C rounds directoryUrl input) := by
  have hposts : ∀ {α : Type} {m : Async α} {nonce : JsString} {payload : Json} {Q : α → AcmeHttpResponse → JsString → Prop},
      (∃ url, Yields m (Requested C nonce url payload Q)) → Tidy m :=
    fun ⟨_, h⟩ => Tidy.of_quiet ((emits_of_requested plain_post h).mono fun _ hc => hc.1)
  refine Tidy.bind (Tidy.of_quiet (emits_loadOrCreateAccountKey (fun _ => rfl) (fun _ _ => rfl) rfl)) fun accountKey => ?_
  refine Tidy.bind (Tidy.of_quiet (emits_fetchDirectory (fun _ => rfl) _)) fun dir => Tidy.liftE_bind fun newNonceUrl _ => ?_
  refine Tidy.bind (Tidy.of_quiet (Emits.bind (Emits.await rfl) fun _ => Emits.liftE _)) fun nonce => ?_
  refine Tidy.bind (hposts (createAccount_yields dir)) fun account => Tidy.bind (hposts (createOrder_yields dir _)) fun order => ?_
  refine Tidy.liftE_bind fun _ _ => Tidy.liftE_bind fun _ _ => Tidy.liftE_bind fun authUrls _ => ?_
  exact Tidy.bind (Tidy.foldlM (fun nonce authUrl => authorize_tidy authUrl) authUrls _) fun nonce => issue_tidy _ _

/-- A certificate is stored at the end, and only then. -/
theorem certEnsure_places (directoryUrl : JsString) :
    Places (fun c => isStore c = true) (certEnsure N C rounds directoryUrl input) (StoresAtEnd N C input) := by
  have hskip : ∀ {α : Type} {m : Async α} {f : α → Async Unit}, Emits (fun c => ¬ isStore c = true) m →
      (∀ a, Places (fun c => isStore c = true) (f a) (StoresAtEnd N C input)) →
      Places (fun c => isStore c = true) (m >>= f) (StoresAtEnd N C input) := by
    refine fun hm hf => Places.bind (Q := fun _ _ => True) hm (fun _ _ _ _ => trivial) fun a calls _ => (hf a).mono ?_
    rintro before e after ⟨hafter, certPem, keyPem, o, he, hready⟩
    exact ⟨hafter, certPem, keyPem, o, he, hready.prepend calls⟩
  refine hskip (emits_loadOrCreateAccountKey (fun _ => Bool.false_ne_true) (fun _ _ => Bool.false_ne_true) Bool.false_ne_true) fun accountKey => ?_
  refine hskip (emits_fetchDirectory (fun _ => Bool.false_ne_true) _) fun dir => Places.liftE_bind fun newNonceUrl _ => ?_
  refine hskip (Emits.bind (Emits.await Bool.false_ne_true) fun _ => Emits.liftE _) fun nonce => ?_
  obtain ⟨_, haccount⟩ : ∃ url, Yields (createAccount N C (some accountKey) nonce dir) (Requested C nonce url _ _) :=
    createAccount_yields dir
  refine hskip ((emits_of_requested plain_post haccount).mono fun _ hc => hc.not_store) fun account => ?_
  obtain ⟨url, horder⟩ : ∃ url, Yields (createOrder N C (some accountKey) account.1 account.2 dir input.names)
      (Requested C account.2 url _ _) := createOrder_yields dir input.names
  refine Places.bind ((emits_of_requested plain_post horder).mono fun _ hc => hc.not_store) (returns_of_requested horder)
    fun ordered calls hordered => ?_
  obtain ⟨body, res, _, rfl, hsigned, hlocation, hholds, _⟩ := hordered
  refine Places.liftE_bind fun _ _ => Places.liftE_bind fun thumbprint _ => Places.liftE_bind fun authUrls hurls => ?_
  refine Places.bind (Emits.foldlM (fun nonce authUrl => (emits_authorize authUrl).mono fun _ h => by simp [h]) authUrls _)
    (Returns.foldlM (fun nonce authUrl => authorize_returns authUrl) authUrls _) fun nonce calls hauthorized => ?_
  obtain ⟨segments, rfl, hvalid⟩ := hauthorized
  refine (issue_places _ _).mono fun before e after hissued => ?_
  obtain ⟨hafter, certPem, keyPem, o, he, hfinished⟩ := hissued
  refine ⟨hafter, certPem, keyPem, o, he, ?_⟩
  exact ⟨[], _, url, body, res, ordered.2.1, ordered.1, authUrls, segments, before, by simp, hsigned, hholds, hlocation, hurls, hvalid,
    hfinished⟩

end Flow

/-- What was published is deleted, or the call is still running. -/
theorem Tidy.deleted {α : Type} {m : Async α} (hm : Tidy m) (answers : Answers Call Answer) {before after : List Event}
    {zone : JsString} {record : DnsRecord}
    (htrace : (m answers []).2 = before ++ ⟨.dnsSetRecord zone record, some (.ok ())⟩ :: after) :
    (∃ between o rest, after = between ++ ⟨.dnsDeleteRecord zone record, o⟩ :: rest ∧
      ∀ e ∈ between, touchesRecord e.call = false) ∨
    (m answers []).1 = .running ∧ ∀ e ∈ after, touchesRecord e.call = false := by
  obtain ⟨t, hrecords, ht⟩ := hm answers []
  rcases hrecords.of_opens htrace rfl rfl with ⟨between, d, rest, rfl, hd, hbetween⟩ | ⟨hup, hafter⟩
  · obtain ⟨o, rfl⟩ := retracted_eq_some hd
    exact .inl ⟨between, o, rest, rfl, by simpa using hbetween⟩
  · refine .inr ⟨?_, by simpa using hafter⟩
    by_contra hover
    exact nomatch hup.symm.trans (ht hover)

/-- **The challenge bracket.** Whatever the dependencies answer, and however far the call has come: a record that was
published is deleted before another is published or deleted and before the call is over, and nothing else is deleted. The
certificate is stored at most once, as the last call, with the private key its request was made from, after the order, its
authorizations and then the order again were reported valid. -/
theorem challenge_bracket (N : Numerals) (C : Crypto) (rounds : ℕ) (directoryUrl : JsString) (input : CertEnsureInput)
    (answers : Answers Call Answer) :
    let (progress, trace) := certEnsure N C rounds directoryUrl input answers []
    (∀ before zone record after, trace = before ++ ⟨.dnsSetRecord zone record, some (.ok ())⟩ :: after →
      (∃ between o rest, after = between ++ ⟨.dnsDeleteRecord zone record, o⟩ :: rest ∧
        ∀ e ∈ between, touchesRecord e.call = false) ∨
      progress = .running ∧ ∀ e ∈ after, touchesRecord e.call = false) ∧
    (∀ before zone record o after, trace = before ++ ⟨.dnsDeleteRecord zone record, o⟩ :: after →
      ∃ start between, before = start ++ ⟨.dnsSetRecord zone record, some (.ok ())⟩ :: between ∧
        ∀ e ∈ between, touchesRecord e.call = false) ∧
    ∀ before name certPem keyPem certMeta o after, trace = before ++ ⟨.certsStore name certPem keyPem certMeta, o⟩ :: after →
      after = [] ∧ (∀ e ∈ before, isStore e.call = false) ∧ name = input.certName ∧
        certMeta = [(js "names", .arr (input.names.map .str))] ∧ ReadyToStore N C input certPem keyPem before := by
  have htidy : Tidy (certEnsure N C rounds directoryUrl input) := certEnsure_tidy directoryUrl
  have hplaces : Places (fun c => isStore c = true) (certEnsure N C rounds directoryUrl input) (StoresAtEnd N C input) :=
    certEnsure_places directoryUrl
  obtain ⟨t, hrecords, -⟩ := htidy answers []
  have hstores := hplaces answers []
  have hdeleted : ∀ before zone record after, (certEnsure N C rounds directoryUrl input answers []).2 =
      before ++ ⟨.dnsSetRecord zone record, some (.ok ())⟩ :: after → _ := fun _ _ _ _ => htidy.deleted answers
  rcases hrun : certEnsure N C rounds directoryUrl input answers [] with ⟨progress, trace⟩
  rw [hrun] at hrecords hstores hdeleted
  refine ⟨fun before zone record after htrace => hdeleted before zone record after htrace,
    fun before zone record o after htrace => ?_, fun before name certPem keyPem certMeta o after htrace => ?_⟩
  · rcases hrecords.of_closes htrace rfl rfl rfl with ⟨hnone, _⟩ | ⟨start, d, between, rfl, hd, hbetween⟩
    · cases hnone
    · cases published_eq_some hd
      exact ⟨start, between, rfl, by simpa using hbetween⟩
  · obtain ⟨hafter, certPem', keyPem', o', he, hready⟩ := hstores before _ after htrace rfl
    cases he
    refine ⟨hafter, fun e he => ?_, rfl, rfl, hready⟩
    by_contra hstore
    obtain ⟨b, a, rfl⟩ := List.append_of_mem he
    have hlast := (hstores b e _ (by rw [htrace, List.append_assoc]; rfl) (by simpa using hstore)).1
    simp at hlast

end Wanfw.Plugins.CertLetsencrypt
