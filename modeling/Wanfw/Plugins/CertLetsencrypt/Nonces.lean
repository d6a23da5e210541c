import Wanfw.Plugins.CertLetsencrypt.CertEnsure

/-!
# The nonces of a call

Each answer of the ACME server carries a nonce for the next request. `Chained` follows the
nonce that is at hand through the calls of a function: a signed request uses it, an answer
replaces it, and after an answer without one there is none. Every function of the flow
threads the nonce it is given to the one it gives back (`Threads`), on every way through it.
-/

namespace Wanfw.Plugins.CertLetsencrypt

open Wanfw.Js Wanfw.Pluginhost Dialogue

/-- The requests whose answers carry a nonce: `newNonce` and the signed ones. -/
def bearsNonce : Call → Bool
  | .http .get _ _ => false
  | .http _ _ _ => true
  | _ => false

/-- The nonce that the answer of a request carries. -/
def issued : Event → Option JsString
  | ⟨.http .head _ _, some (.ok res)⟩ => (nonceOf res).toOption
  | ⟨.http .post _ _, some (.ok res)⟩ => (nonceOf res).toOption
  | _ => none

/-- The body of a signed request. -/
def postBody : Event → Option JsString
  | ⟨.http .post _ body, _⟩ => body
  | _ => none

/-- From the nonce at hand to the one at the end. -/
inductive Chained (C : Crypto) : Option JsString → List Event → Option JsString → Prop where
  | nil (s : Option JsString) : Chained C s [] s
  | other {e : Event} {calls : List Event} {s t : Option JsString} (h : bearsNonce e.call = false) (rest : Chained C s calls t) :
    Chained C s (e :: calls) t
  | head {url : Value} {o : Option (Except JsError AcmeHttpResponse)} {calls : List Event} {s t : Option JsString}
    (rest : Chained C (issued ⟨.http .head url none, o⟩) calls t) : Chained C s (⟨.http .head url none, o⟩ :: calls) t
  | post {url : Value} {body n : JsString} {o : Option (Except JsError AcmeHttpResponse)} {calls : List Event}
    {t : Option JsString} (h : CarriesNonce C body n) (rest : Chained C (issued ⟨.http .post url (some body), o⟩) calls t) :
    Chained C (some n) (⟨.http .post url (some body), o⟩ :: calls) t

section Chained

variable {C : Crypto} {s t u : Option JsString} {calls calls' : List Event}

theorem Chained.append (h : Chained C s calls t) (h' : Chained C t calls' u) : Chained C s (calls ++ calls') u := by
  induction h with
  | nil => exact h'
  | other hquiet _ ih => exact .other hquiet (ih h')
  | head _ ih => exact .head (ih h')
  | post hbody _ ih => exact .post hbody (ih h')

theorem Chained.of_quiet (h : ∀ e ∈ calls, bearsNonce e.call = false) : Chained C s calls s := by
  induction calls with
  | nil => exact .nil s
  | cons e calls ih => exact .other (h e (by simp)) (ih fun x hx => h x (by simp [hx]))

theorem issued_eq_none {e : Event} (h : bearsNonce e.call = false) : issued e = none := by
  rcases e with ⟨call, outcome⟩
  cases call with
  | http method url body => cases method <;> first | rfl | cases h
  | _ => rfl

theorem postBody_eq_none {e : Event} (h : bearsNonce e.call = false) : postBody e = none := by
  rcases e with ⟨call, outcome⟩
  cases call with
  | http method url body => cases method <;> first | rfl | cases h
  | _ => rfl

/-- The nonces that are sent are among the one at hand and those that are issued, in their order. -/
theorem Chained.sent (h : Chained C s calls t) {nonces : List JsString}
    (hsent : List.Forall₂ (CarriesNonce C) (calls.filterMap postBody) nonces) :
    nonces.Sublist (s.toList ++ calls.filterMap issued) := by
  induction h generalizing nonces with
  | nil s =>
    cases hsent
    simp
  | other hquiet _ ih =>
    rw [List.filterMap_cons_none (postBody_eq_none hquiet)] at hsent
    rw [List.filterMap_cons_none (issued_eq_none hquiet)]
    exact ih hsent
  | @head url o calls s t _ ih =>
    have hissued : (⟨.http .head url none, o⟩ :: calls : List Event).filterMap issued =
        (issued ⟨.http .head url none, o⟩).toList ++ calls.filterMap issued := by
      cases h : issued ⟨.http .head url none, o⟩ <;> simp [h]
    rw [hissued]
    exact (ih hsent).trans (List.sublist_append_right _ _)
  | @post url body n o calls t hbody _ ih =>
    have hissued : (⟨.http .post url (some body), o⟩ :: calls : List Event).filterMap issued =
        (issued ⟨.http .post url (some body), o⟩).toList ++ calls.filterMap issued := by
      cases h : issued ⟨.http .post url (some body), o⟩ <;> simp [h]
    have hbodies : (⟨.http .post url (some body), o⟩ :: calls : List Event).filterMap postBody =
        body :: calls.filterMap postBody := rfl
    rw [hbodies] at hsent
    cases hsent with
    | cons hcarries hrest =>
      rw [hissued, nonce_unique hcarries hbody]
      exact (ih hrest).cons_cons n

/-- A signed request uses the nonce at hand, which is that of the last answer. -/
theorem Chained.last (h : Chained C s calls t) {before after : List Event} {url : Value} {body : Option JsString}
    {o : Option (Except JsError AcmeHttpResponse)} (hcalls : calls = before ++ ⟨.http .post url body, o⟩ :: after) :
    ∃ text n, body = some text ∧ CarriesNonce C text n ∧ (s = some n ∧ (∀ e ∈ before, bearsNonce e.call = false) ∨
      ∃ start e between, before = start ++ e :: between ∧ bearsNonce e.call = true ∧ issued e = some n ∧
        ∀ x ∈ between, bearsNonce x.call = false) := by
  induction h generalizing before with
  | nil => simp at hcalls
  | @other e calls s t hquiet _ ih =>
    rcases before with _ | ⟨x, before⟩
    · cases hcalls
      cases hquiet
    · cases hcalls
      obtain ⟨text, n, hbody, hcarries, ⟨hs, hbefore⟩ | ⟨start, y, between, hbefore, hrest⟩⟩ := ih rfl
      · refine ⟨text, n, hbody, hcarries, .inl ⟨hs, fun z hz => ?_⟩⟩
        rcases List.mem_cons.mp hz with rfl | hz
        · exact hquiet
        · exact hbefore z hz
      · exact ⟨text, n, hbody, hcarries, .inr ⟨e :: start, y, between, by simp [hbefore], hrest⟩⟩
  | @head url' o' calls s t _ ih =>
    rcases before with _ | ⟨x, before⟩
    · cases hcalls
    · cases hcalls
      obtain ⟨text, n, hbody, hcarries, ⟨hs, hbefore⟩ | ⟨start, y, between, hbefore, hrest⟩⟩ := ih rfl
      · exact ⟨text, n, hbody, hcarries, .inr ⟨[], _, before, rfl, rfl, hs, hbefore⟩⟩
      · exact ⟨text, n, hbody, hcarries, .inr ⟨_ :: start, y, between, congrArg (List.cons _) hbefore, hrest⟩⟩
  | @post url' body' n' o' calls t hbody' _ ih =>
    rcases before with _ | ⟨x, before⟩
    · cases hcalls
      exact ⟨body', n', rfl, hbody', .inl ⟨rfl, by simp⟩⟩
    · cases hcalls
      obtain ⟨text, n, hbody, hcarries, ⟨hs, hbefore⟩ | ⟨start, y, between, hbefore, hrest⟩⟩ := ih rfl
      · exact ⟨text, n, hbody, hcarries, .inr ⟨[], _, before, rfl, rfl, hs, hbefore⟩⟩
      · exact ⟨text, n, hbody, hcarries, .inr ⟨_ :: start, y, between, congrArg (List.cons _) hbefore, hrest⟩⟩

end Chained

/-! ### The functions of the flow -/

/-- With the nonce `s` at hand `m` makes its requests, and the one that its result gives back is the one at hand then. -/
def Threads {α : Type} (C : Crypto) (s : Option JsString) (m : Async α) (next : α → Option JsString) : Prop :=
  Yields m fun r calls => ∃ t, Chained C s calls t ∧ ∀ a, r = .returned a → t = next a

section Threads

variable {α β : Type} {C : Crypto} {s : Option JsString} {m : Async α} {f : α → Async β} {next : α → Option JsString}
  {next' : β → Option JsString} {rounds : ℕ}

theorem Threads.pure {a : α} (h : s = next a) : Threads C s (Pure.pure a) next :=
  Yields.pure ⟨s, .nil s, fun _ hb => by cases hb; exact h⟩

theorem Threads.throw (e : JsError) : Threads C s (Dialogue.throw e) next := Yields.throw ⟨s, .nil s, by simp⟩

theorem Threads.liftE_bind {x : Except JsError α} (h : ∀ a, x = .ok a → Threads C s (f a) next') :
    Threads C s (liftE x >>= f) next' :=
  Yields.liftE_bind h fun _ _ => ⟨s, .nil s, by simp⟩

theorem Threads.bind (hm : Threads C s m next) (hf : ∀ a, Threads C (next a) (f a) next') : Threads C s (m >>= f) next' := by
  refine Yields.bind hm (fun a calls h => ?_) (fun e calls h => ?_) fun calls h => ?_
  · obtain ⟨t, hchained, ht⟩ := h
    obtain rfl := ht a rfl
    exact (hf a).conseq fun r calls' ⟨u, hchained', hu⟩ => ⟨u, hchained.append hchained', hu⟩
  · obtain ⟨t, hchained, _⟩ := h
    exact ⟨t, hchained, by simp⟩
  · obtain ⟨t, hchained, _⟩ := h
    exact ⟨t, hchained, by simp⟩

/-- The last part of a function, whose result gives no nonce back. -/
theorem Threads.bind_last (hm : Threads C s m next)
    (hf : ∀ a, Yields (f a) fun _ calls => ∃ t, Chained C (next a) calls t) :
    Yields (m >>= f) fun _ calls => ∃ t, Chained C s calls t := by
  refine Yields.bind hm (fun a calls h => ?_) (fun e calls h => ?_) fun calls h => ?_
  · obtain ⟨t, hchained, ht⟩ := h
    obtain rfl := ht a rfl
    exact (hf a).conseq fun r calls' ⟨u, hchained'⟩ => ⟨u, hchained.append hchained'⟩
  · obtain ⟨t, hchained, _⟩ := h
    exact ⟨t, hchained⟩
  · obtain ⟨t, hchained, _⟩ := h
    exact ⟨t, hchained⟩

/-- A function that asks for no nonce and uses none. -/
theorem Threads.of_quiet (h : Emits (fun c => bearsNonce c = false) m) : Threads C s m fun _ => s :=
  h.conseq fun _ _ hcalls => ⟨s, .of_quiet hcalls, fun _ _ => rfl⟩

theorem Threads.quiet_bind (hm : Emits (fun c => bearsNonce c = false) m) (hf : ∀ a, Threads C s (f a) next') :
    Threads C s (m >>= f) next' := Threads.bind (Threads.of_quiet hm) hf

theorem Threads.tryFinally {cleanup : Async Unit} (hm : Threads C s m next)
    (hcleanup : Emits (fun c => bearsNonce c = false) cleanup) : Threads C s (Dialogue.tryFinally m cleanup) next := by
  refine Yields.tryFinally hm (fun a calls h => ?_) (fun e calls h => ?_) fun calls h => h
  · obtain ⟨t, hchained, ht⟩ := h
    refine hcleanup.conseq fun r calls' hquiet => ⟨t, hchained.append (.of_quiet hquiet), fun b hb => ?_⟩
    cases r with
    | returned _ => exact ht b hb
    | threw _ => cases hb
    | running => cases hb
  · obtain ⟨t, hchained, _⟩ := h
    refine hcleanup.conseq fun r calls' hquiet => ⟨t, hchained.append (.of_quiet hquiet), fun b hb => ?_⟩
    cases r <;> cases hb

theorem Threads.loop {round : JsString → Async (JsString ⊕ α)} (h : ∀ n, Threads C (some n) (round n) (Sum.elim some next))
    (rounds : ℕ) (n : JsString) : Threads C (some n) (Dialogue.loop round rounds n) next := by
  induction rounds generalizing n with
  | zero => exact fun _ _ => ⟨some n, .nil _, fun _ h => nomatch h⟩
  | succ rounds ih =>
    refine Threads.bind (h n) fun r => ?_
    cases r with
    | inl n' => exact ih n'
    | inr a => exact Threads.pure rfl

theorem Threads.foldlM {γ : Type} {body : JsString → γ → Async JsString} (h : ∀ n x, Threads C (some n) (body n x) some)
    (xs : List γ) (n : JsString) : Threads C (some n) (xs.foldlM body n) some := by
  induction xs generalizing n with
  | nil => exact Threads.pure rfl
  | cons x xs ih =>
    rw [List.foldlM_cons]
    exact Threads.bind (h n x) ih

theorem SignedFor.carries {nonce body : JsString} {url : Value} {payload : Json} (h : SignedFor C nonce url payload body) :
    CarriesNonce C body nonce := by
  obtain ⟨options, hsigned, hnonce, _⟩ := h
  exact ⟨options, hsigned, hnonce⟩

/-- A request that was made with the nonce at hand. -/
theorem Posted.chained {nonce : JsString} {url : Value} {payload : Json} {p : Progress (AcmeHttpResponse × JsString)}
    {calls : List Event} (h : Posted C nonce url payload p calls) : ∃ t, Chained C (some nonce) calls t := by
  cases h with
  | unsigned e => exact ⟨_, .nil _⟩
  | waits body hbody => exact ⟨_, .post hbody.carries (.nil _)⟩
  | failed body hbody e => exact ⟨_, .post hbody.carries (.nil _)⟩
  | bare body hbody res e _ => exact ⟨_, .post hbody.carries (.nil _)⟩
  | answered body hbody res n _ => exact ⟨_, .post hbody.carries (.nil _)⟩

/-- A request whose result gives back the nonce of the answer. -/
theorem Threads.of_requested (next : α → Option JsString) {nonce : JsString} {url : Value} {payload : Json} {Q : α → AcmeHttpResponse → JsString → Prop}
    (h : Yields m (Requested C nonce url payload Q)) (hnext : ∀ a res n, Q a res n → next a = some n) :
    Threads C (some nonce) m next := by
  refine h.conseq fun r calls hr => ?_
  cases hr with
  | threw hposted _ =>
    obtain ⟨t, hchained⟩ := hposted.chained
    exact ⟨t, hchained, by simp⟩
  | waits hposted =>
    obtain ⟨t, hchained⟩ := hposted.chained
    exact ⟨t, hchained, by simp⟩
  | @returned body a res n hbody hnonce hQ =>
    refine ⟨_, .post hbody.carries (.nil _), fun b hb => ?_⟩
    cases hb
    rw [hnext a res n hQ]
    simp [issued, hnonce, Except.toOption]

variable {N : Numerals} {accountKey : Value} {accountUrl thumbprint recordName txtValue : JsString} {input : CertEnsureInput}

theorem pollUntilDone_threads {poll : JsString → Async (Json × JsString)}
    (hpoll : ∀ n, Threads C (some n) (poll n) fun r => some r.2) (nonce : JsString) (doneStatuses : List JsString) :
    Threads C (some nonce) (pollUntilDone rounds poll nonce doneStatuses) fun r => some r.2 := by
  refine Threads.quiet_bind (Emits.await rfl) fun start => Threads.loop (fun n => ?_) rounds nonce
  refine Threads.quiet_bind (Emits.await rfl) fun now => ?_
  split
  · refine Threads.bind (hpoll n) fun r => Threads.liftE_bind fun _ _ => ?_
    split
    · exact Threads.pure rfl
    · split
      · exact Threads.pure rfl
      · exact Threads.quiet_bind (Emits.await rfl) fun _ => Threads.pure rfl
  · exact Threads.throw _

theorem pollResource_threads (url : Value) (nonce : JsString) :
    Threads C (some nonce) (pollResource N C accountKey accountUrl nonce url) fun r => some r.2 :=
  Threads.of_requested (fun r => some r.2) pollResource_yields fun _ _ _ h => congrArg some h.2

theorem completeChallenge_threads (authUrl authorization challenge : Json) (nonce : JsString) :
    Threads C (some nonce) (completeChallenge N C rounds accountKey accountUrl authUrl authorization challenge recordName txtValue
      nonce) some := by
  refine Threads.quiet_bind (emits_waitForPropagation rfl (fun _ => rfl) (fun _ _ _ => rfl) fun _ => rfl) fun _ => ?_
  refine Threads.bind (Threads.of_requested some respondToChallenge_yields fun _ _ _ h => congrArg some h) fun n => ?_
  refine Threads.bind (pollUntilDone_threads (pollResource_threads _) n _) fun r => ?_
  dsimp only
  split
  · exact Threads.pure rfl
  · exact Threads.throw _

/-- One authorization, valid already or not. -/
theorem authorize_threads (nonce : JsString) (authUrl : Json) :
    Threads C (some nonce) (authorize N C rounds input accountKey accountUrl thumbprint nonce authUrl) some := by
  refine Threads.bind (pollResource_threads _ nonce) fun r => Threads.liftE_bind fun _ _ => ?_
  split
  · exact Threads.pure rfl
  · refine Threads.liftE_bind fun challenge _ => ?_
    cases challenge with
    | none => exact Threads.throw _
    | some challenge =>
      refine Threads.liftE_bind fun _ _ => Threads.liftE_bind fun _ _ => Threads.liftE_bind fun _ _ => ?_
      refine Threads.quiet_bind (Emits.await rfl) fun _ => Threads.tryFinally (completeChallenge_threads _ _ _ _) ?_
      exact Emits.await rfl

theorem issue_chained (orderUrl : JsString) (order : Json) (nonce : JsString) :
    Yields (issue N C rounds input accountKey accountUrl orderUrl order nonce) fun _ calls =>
      ∃ t, Chained C (some nonce) calls t := by
  have hnone : ∀ {α : Type} (e : JsError), Yields (Dialogue.throw e : Async α) fun _ calls => ∃ t, Chained C (some nonce) calls t :=
    fun e => Yields.throw ⟨_, .nil _⟩
  refine Threads.bind_last (Threads.of_quiet (Emits.await rfl)) fun keyPair => ?_
  refine Yields.liftE_bind (fun csrDer _ => ?_) fun _ _ => ⟨_, .nil _⟩
  refine Threads.bind_last
    (Threads.of_requested (fun r => some r.2) (finalizeOrder_yields csrDer) fun _ _ _ h => congrArg some h) fun r => ?_
  refine Threads.bind_last (pollUntilDone_threads (pollResource_threads _) _ _) fun r => ?_
  dsimp only
  split
  · refine Threads.bind_last
      (Threads.of_requested (fun r => some r.2) downloadCertificate_yields fun _ _ _ h => congrArg some h.2) fun r => ?_
    exact (Emits.await (P := fun c => bearsNonce c = false) rfl).conseq fun _ calls hcalls => ⟨_, .of_quiet hcalls⟩
  · exact Yields.throw ⟨_, .nil _⟩

theorem fetchNonce_threads (url : Value) : Threads C s (fetchNonce url) some := by
  refine Yields.await_bind (fun res => ?_) (fun e => ⟨_, .head (.nil _), by simp⟩) ⟨_, .head (.nil _), by simp⟩
  rcases hnonce : nonceOf res with e | n
  · exact Yields.throw ⟨_, .head (.nil _), by simp⟩
  · exact Yields.pure ⟨_, .head (.nil _), by simp [issued, hnonce, Except.toOption]⟩

theorem createAccount_threads (dir : Json) (nonce : JsString) :
    Threads C (some nonce) (createAccount N C accountKey nonce dir) fun r => some r.2 := by
  obtain ⟨_, h⟩ : ∃ url, Yields (createAccount N C accountKey nonce dir) (Requested C nonce url _ _) := createAccount_yields dir
  exact Threads.of_requested _ h fun _ _ _ h => congrArg some h

theorem createOrder_threads (dir : Json) (nonce : JsString) :
    Threads C (some nonce) (createOrder N C accountKey accountUrl nonce dir input.names) fun r => some r.2.2 := by
  obtain ⟨_, h⟩ : ∃ url, Yields (createOrder N C accountKey accountUrl nonce dir input.names) (Requested C nonce url _ _) :=
    createOrder_yields dir input.names
  exact Threads.of_requested _ h fun _ _ _ h => congrArg some h.2.2

/-- The nonces of a whole call. -/
theorem certEnsure_chained (directoryUrl : JsString) :
    Yields (certEnsure N C rounds directoryUrl input) fun _ calls => ∃ t, Chained C none calls t := by
  refine Threads.bind_last (Threads.of_quiet (emits_loadOrCreateAccountKey (fun _ => rfl) (fun _ _ => rfl) rfl)) fun accountKey => ?_
  refine Threads.bind_last (Threads.of_quiet (emits_fetchDirectory (fun _ => rfl) _)) fun dir => ?_
  refine Yields.liftE_bind (fun newNonceUrl _ => ?_) fun _ _ => ⟨_, .nil _⟩
  refine Threads.bind_last (fetchNonce_threads newNonceUrl) fun nonce => ?_
  refine Threads.bind_last (createAccount_threads dir nonce) fun account => ?_
  refine Threads.bind_last (createOrder_threads dir account.2) fun order => ?_
  refine Yields.liftE_bind (fun publicKeyPem _ => ?_) fun _ _ => ⟨_, .nil _⟩
  refine Yields.liftE_bind (fun thumbprint _ => ?_) fun _ _ => ⟨_, .nil _⟩
  refine Yields.liftE_bind (fun authUrls _ => ?_) fun _ _ => ⟨_, .nil _⟩
  exact Threads.bind_last (Threads.foldlM authorize_threads authUrls _) fun nonce => issue_chained _ _ _

end Threads

/-- **Nonce discipline.** Whatever the server and the other dependencies answer, each signed request of a call carries one
nonce, that of the last answer before it to a request whose answers carry nonces. So if all the nonces that the server
issues are different, then so are those that are sent. -/
theorem nonce_discipline (N : Numerals) (C : Crypto) (rounds : ℕ) (directoryUrl : JsString) (input : CertEnsureInput)
    (answers : Answers Call Answer) :
    let trace := (certEnsure N C rounds directoryUrl input answers []).2
    (∀ before url body o after, trace = before ++ ⟨.http .post url body, o⟩ :: after →
      ∃ text n start last between, body = some text ∧ CarriesNonce C text n ∧ (∀ n', CarriesNonce C text n' → n' = n) ∧
        before = start ++ last :: between ∧ bearsNonce last.call = true ∧ issued last = some n ∧
        ∀ e ∈ between, bearsNonce e.call = false) ∧
    ((trace.filterMap issued).Nodup → ∀ nonces, List.Forall₂ (CarriesNonce C) (trace.filterMap postBody) nonces →
      nonces.Nodup) := by
  have hall : Yields (certEnsure N C rounds directoryUrl input) fun _ calls => ∃ t, Chained C none calls t :=
    certEnsure_chained directoryUrl
  obtain ⟨t, hchained⟩ := hall answers []
  refine ⟨fun before url body o after htrace => ?_, fun hnodup nonces hsent => ?_⟩
  · obtain ⟨text, n, hbody, hcarries, ⟨hs, _⟩ | ⟨start, last, between, hbefore, hlast, hissued, hbetween⟩⟩ := hchained.last htrace
    · cases hs
    · exact ⟨text, n, start, last, between, hbody, hcarries, fun n' h => nonce_unique h hcarries, hbefore, hlast, hissued, hbetween⟩
  · exact hnodup.sublist (by simpa using hchained.sent hsent)

end Wanfw.Plugins.CertLetsencrypt
