import Wanfw.Pluginhost.Supervisor

/-!
# Calls and invocations

The plugin socket carries both: the orchestrator's `invoke` requests and the
`host.call` requests of the plugins that run. A host call names an invocation, but the
dispatcher does not read it, and the wiring of the socket (`main.ts`) keeps no table of
the invocations that are running.

`effective_iff`: a call has an effect exactly when the rows of the plugin that it names
authorise it. `contained_iff`: so a run keeps its calls within the invocations in flight
exactly when no authorised call outside of them arrives.
-/

namespace Wanfw.Orchestrator

open Wanfw.Js

/-! ### Effects -/

section Metered

variable {ρ α β : Type}

/-- An operation of a store, counted. -/
def counted (m : Act ρ α) : Act (ρ × ℕ) α := fun s => ((m s.1).1, ((m s.1).2, s.2 + 1))

/-- An operation that no store takes part in. -/
def uncounted (m : Act ρ α) : Act (ρ × ℕ) α := fun s => ((m s.1).1, ((m s.1).2, s.2))

/-- The same modules, with a count of what was asked of secrets, certificates, DNS and IPAM. -/
def HostDeps.metered (deps : HostDeps ρ) : HostDeps (ρ × ℕ) where
  bind := deps.bind
  bind_str := deps.bind_str
  getSecret name := counted (deps.getSecret name)
  putSecret name value := counted (deps.putSecret name value)
  storeCert name certPem keyPem certMeta := counted (deps.storeCert name certPem keyPem certMeta)
  onCertChange := uncounted deps.onCertChange
  manifestTypes sha256 := uncounted (deps.manifestTypes sha256)
  allocateIp rangeId owner := counted (deps.allocateIp rangeId owner)
  releaseIp ip := counted (deps.releaseIp ip)
  probeNetwork := deps.probeNetwork.map fun probe mode parent => uncounted (probe mode parent)
  dnsProvider := uncounted deps.dnsProvider
  pluginInvoker pluginId task input := counted (deps.pluginInvoker pluginId task input)
  log text fields := uncounted (deps.log text fields)

/-- Between the two states a row has changed, or something was asked of a store. -/
def Touched (s s' : HostState (ρ × ℕ)) : Prop := s'.rows ≠ s.rows ∨ s'.rest.2 ≠ s.rest.2

/-- The call has an effect. -/
def Effective (deps : HostDeps ρ) (s : HostState (ρ × ℕ)) (params : Value) : Prop :=
  Touched s (dispatch deps.metered params s).2

/-- An action without an effect. -/
def Inert (m : HostM (ρ × ℕ) α) : Prop := ∀ s, (m s).2.rows = s.rows ∧ (m s).2.rest.2 = s.rest.2

/-- An action that asks for no less than nothing. -/
def Grows (m : HostM (ρ × ℕ) α) : Prop := ∀ s, (m s).2.rows = s.rows ∧ s.rest.2 ≤ (m s).2.rest.2

variable {m : HostM (ρ × ℕ) α} {f : α → HostM (ρ × ℕ) β} {s : HostState (ρ × ℕ)}

theorem Inert.not_touched (h : Inert m) (s : HostState (ρ × ℕ)) : ¬ Touched s (m s).2 := by
  rintro (hrows | hcount)
  · exact hrows (h s).1
  · exact hcount (h s).2

theorem Inert.grows (h : Inert m) : Grows m := fun s => ⟨(h s).1, (h s).2.ge⟩

theorem inert_pure (a : α) : Inert (pure a : HostM (ρ × ℕ) α) := fun _ => ⟨rfl, rfl⟩

theorem inert_throw (e : JsError) : Inert (Act.throw e : HostM (ρ × ℕ) α) := fun _ => ⟨rfl, rfl⟩

theorem inert_ofExcept (x : Except JsError α) : Inert (Act.ofExcept x : HostM (ρ × ℕ) α) := fun _ => ⟨rfl, rfl⟩

theorem inert_onRest (m : Act ρ α) : Inert (onRest (uncounted m) : HostM (ρ × ℕ) α) := fun _ => ⟨rfl, rfl⟩

theorem Inert.bind (hm : Inert m) (hf : ∀ a, Inert (f a)) : Inert (m >>= f) := by
  intro s
  have h := hm s
  rw [Act.bind_apply]
  revert h
  rcases m s with ⟨r, t⟩
  intro h
  cases r with
  | error e => exact h
  | ok a => exact ⟨(hf a t).1.trans h.1, (hf a t).2.trans h.2⟩

theorem inert_deny (parts : List (JsString × Value)) (last : JsString) : Inert (deny parts last : HostM (ρ × ℕ) α) :=
  (inert_ofExcept _).bind fun _ => inert_throw _

theorem Grows.bind (hm : Grows m) (hf : ∀ a, Grows (f a)) : Grows (m >>= f) := by
  intro s
  have h := hm s
  rw [Act.bind_apply]
  revert h
  rcases m s with ⟨r, t⟩
  intro h
  cases r with
  | error e => exact h
  | ok a => exact ⟨(hf a t).1.trans h.1, h.2.trans (hf a t).2⟩

/-- After an action without an effect, what the rest of the program does decides. -/
theorem touched_bind (hm : Inert m) :
    Touched s ((m >>= f) s).2 ↔ ∃ a, (m s).1 = .ok a ∧ Touched (m s).2 (f a (m s).2).2 := by
  have h := hm s
  rw [Act.bind_apply]
  revert h
  rcases m s with ⟨r, t⟩
  rintro ⟨hrows, hcount⟩
  dsimp only at hrows hcount
  cases r with
  | error e => simp [Touched, hrows, hcount]
  | ok a => simp [Touched, hrows, hcount]

/-- A check without an effect on the state. -/
theorem touched_ofExcept {x : Except JsError α} :
    Touched s ((Act.ofExcept x >>= f) s).2 ↔ ∃ a, x = .ok a ∧ Touched s (f a s).2 := touched_bind (inert_ofExcept x)

/-- Once something was asked of a store, the call has an effect. -/
theorem touched_counted (m : Act ρ α) {f : α → HostM (ρ × ℕ) β} (hf : ∀ a, Grows (f a)) :
    Touched s ((onRest (counted m) >>= f) s).2 := by
  refine .inr ?_
  rw [Act.bind_apply]
  simp only [onRest, counted]
  cases (m s.rest.1).1 with
  | error e => simp
  | ok a =>
    have := (hf a { s with rest := ((m s.rest.1).2, s.rest.2 + 1) }).2
    simp only at this ⊢
    omega

end Metered

/-! ### What the rows of a plugin authorise -/

section Authority

variable {ρ : Type} (deps : HostDeps ρ) (s : HostState (ρ × ℕ)) (pluginId args : Value)

/-- A live grant of the plugin covers the call. -/
def Granted (cap : String) (p : Json → Except JsError Bool) : Prop :=
  (requireCap deps.metered pluginId cap p s).1 = .ok true

/-- The plugin is a trusted network provider. -/
def IsProvider : Prop := ∃ types, (callingPluginTypes deps.metered pluginId s).1 = .ok types ∧ js "network-provider" ∈ types

/-- An argument. -/
def IsArg (k : String) (v : Value) : Prop := args.destructure (js "args") (js k) = .ok v

/-- `state.put`: the row is not there yet. -/
def mayStatePut : Prop :=
  ∃ key value id k v, IsArg args "key" key ∧ IsArg args "value" value ∧ deps.bind key = .ok k ∧ deps.bind value = .ok v ∧
    deps.bind pluginId = .ok id ∧ Obj.setOwn (s.rows id).kv k v ≠ (s.rows id).kv

/-- `state.delete`: the row is there. -/
def mayStateDelete : Prop :=
  ∃ key id k, IsArg args "key" key ∧ deps.bind key = .ok k ∧ deps.bind pluginId = .ok id ∧ k ∈ Obj.keys (s.rows id).kv

/-- `secrets.get`. -/
def maySecretsGet : Prop :=
  ∃ name, IsArg args "name" name ∧ Granted deps s pluginId "secrets.read" fun scope => do
    matchNamePrefixValue (← scopeField scope (js "names")) name

/-- `secrets.put`. -/
def maySecretsPut : Prop :=
  ∃ name value, IsArg args "name" name ∧ IsArg args "value" value ∧ Granted deps s pluginId "secrets.write" fun scope => do
    matchNamePrefixValue (← scopeField scope (js "names")) name

/-- `dns.setRecord` and `dns.deleteRecord`, while a provider is bound. -/
def mayApplyDns : Prop :=
  ∃ zone record provider, IsArg args "zone" zone ∧ IsArg args "record" record ∧
    (Granted deps s pluginId "dns.record.write" fun scope => do matchZoneValue (← scopeField scope (js "zones")) zone) ∧
    (deps.dnsProvider s.rest.1).1 = .ok (some provider) ∧ provider ≠ []

/-- `certs.store`. -/
def mayCertsStore : Prop :=
  (∃ name certPem keyPem certMeta, IsArg args "name" name ∧ IsArg args "certPem" certPem ∧ IsArg args "keyPem" keyPem ∧
    IsArg args "meta" certMeta) ∧ Granted deps s pluginId "certs.store" fun _ => .ok true

/-- `ipam.allocate`. -/
def mayIpamAllocate : Prop :=
  (∃ rangeId owner, IsArg args "rangeId" rangeId ∧ IsArg args "owner" owner) ∧ IsProvider deps s pluginId

/-- `ipam.release`. -/
def mayIpamRelease : Prop := (∃ ip, IsArg args "ip" ip) ∧ IsProvider deps s pluginId

/-- The methods with an effect, and what they require. -/
def authority : Obj Prop :=
  [(js "state.put", mayStatePut deps s pluginId args), (js "state.delete", mayStateDelete deps s pluginId args),
    (js "secrets.get", maySecretsGet deps s pluginId args), (js "secrets.put", maySecretsPut deps s pluginId args),
    (js "dns.setRecord", mayApplyDns deps s pluginId args), (js "dns.deleteRecord", mayApplyDns deps s pluginId args),
    (js "certs.store", mayCertsStore deps s pluginId args), (js "ipam.allocate", mayIpamAllocate deps s pluginId args),
    (js "ipam.release", mayIpamRelease deps s pluginId args)]

/-- The rows of the plugin that the message names authorise its call. -/
def Authorised (params : Value) : Prop :=
  ∃ pluginId method args key, params.destructure (js "params") (js "pluginId") = .ok pluginId ∧
    params.destructure (js "params") (js "method") = .ok method ∧ params.destructure (js "params") (js "args") = .ok args ∧
    method.toText = .ok key ∧ (Obj.get (authority deps s pluginId args) key).getD False

end Authority

section Handlers

variable {ρ : Type} {deps : HostDeps ρ} {s : HostState (ρ × ℕ)} {pluginId args : Value}

theorem touched_arg {β : Type} {k : String} {f : Value → HostM (ρ × ℕ) β} :
    Touched s ((arg k args >>= f) s).2 ↔ ∃ v, IsArg args k v ∧ Touched s (f v s).2 := touched_ofExcept

/-- An action that only reads. -/
def Reads {α : Type} (m : HostM (ρ × ℕ) α) : Prop := ∀ s, (m s).2 = s

theorem Reads.inert {α : Type} {m : HostM (ρ × ℕ) α} (h : Reads m) : Inert m := fun s => by simp [h s]

theorem Reads.bind {α β : Type} {m : HostM (ρ × ℕ) α} {f : α → HostM (ρ × ℕ) β} (hm : Reads m) (hf : ∀ a, Reads (f a)) :
    Reads (m >>= f) := by
  intro s
  have h := hm s
  rw [Act.bind_apply]
  revert h
  rcases m s with ⟨r, t⟩
  rintro rfl
  cases r with
  | error e => rfl
  | ok a => exact hf a t

theorem reads_ofExcept {α : Type} (x : Except JsError α) : Reads (Act.ofExcept x : HostM (ρ × ℕ) α) := fun _ => rfl

theorem reads_rowsOf (id : Value) : Reads (rowsOf deps.metered id) :=
  (reads_ofExcept _).bind fun _ => Reads.bind (fun _ => rfl) fun _ _ => rfl

theorem reads_requireCap (id : Value) (cap : String) (p : Json → Except JsError Bool) :
    Reads (requireCap deps.metered id cap p) :=
  ((reads_rowsOf id).bind fun _ => reads_ofExcept _).bind fun _ => reads_ofExcept _

/-- What follows a check of a grant. -/
theorem touched_checked {β : Type} {cap : String} {p : Json → Except JsError Bool} {m m' : HostM (ρ × ℕ) β} (hm' : Inert m') :
    Touched s ((requireCap deps.metered pluginId cap p >>= fun granted => if granted = true then m else m') s).2 ↔
      Granted deps s pluginId cap p ∧ Touched s (m s).2 := by
  rw [touched_bind (reads_requireCap _ _ _).inert, reads_requireCap _ _ _ s, Granted]
  constructor
  · rintro ⟨granted, hgranted, h⟩
    cases granted with
    | true => exact ⟨hgranted, h⟩
    | false => exact absurd h (hm'.not_touched s)
  · rintro ⟨hgranted, h⟩
    exact ⟨true, hgranted, h⟩

/-- A change of the rows. -/
theorem touched_modifyRows {β : Type} {f : PluginRows → PluginRows} {m : HostM (ρ × ℕ) β} (hm : Inert m) :
    Touched s ((modifyRows deps.metered pluginId f >>= fun _ => m) s).2 ↔
      ∃ id, deps.bind pluginId = .ok id ∧ f (s.rows id) ≠ s.rows id := by
  have hstep : ∀ id, Touched s (m { s with rows := Function.update s.rows id (f (s.rows id)) }).2 ↔ f (s.rows id) ≠ s.rows id := by
    intro id
    have hinert := hm { s with rows := Function.update s.rows id (f (s.rows id)) }
    simp only [Touched, hinert.1, hinert.2, ne_eq, not_true_eq_false, or_false, Function.update_eq_self_iff]
  simp only [modifyRows, Act.bind_apply, Act.ofExcept, Act.modify, HostDeps.metered]
  cases deps.bind pluginId with
  | error e => simp [Touched]
  | ok id => simpa using hstep id

theorem with_kv_ne_iff {rows : PluginRows} {kv : Obj JsString} : { rows with kv := kv } ≠ rows ↔ kv ≠ rows.kv := by
  refine not_congr ⟨fun h => congrArg PluginRows.kv h, ?_⟩
  rintro rfl
  rfl

theorem filter_keys_ne_iff {kv : Obj JsString} {k : JsString} : (kv.filter fun e => e.1 != k) ≠ kv ↔ k ∈ Obj.keys kv := by
  rw [Ne, List.filter_eq_self, Obj.keys, List.mem_map]
  simp

theorem touched_statePut : Touched s (statePut deps.metered pluginId args s).2 ↔ mayStatePut deps s pluginId args := by
  unfold statePut mayStatePut
  rw [touched_arg]
  simp only [touched_arg, touched_ofExcept, touched_modifyRows (inert_pure _), with_kv_ne_iff]
  constructor
  · rintro ⟨key, hkey, value, hvalue, k, hk, v, hv, id, hid, hne⟩
    exact ⟨key, value, id, k, v, hkey, hvalue, hk, hv, hid, hne⟩
  · rintro ⟨key, value, id, k, v, hkey, hvalue, hk, hv, hid, hne⟩
    exact ⟨key, hkey, value, hvalue, k, hk, v, hv, id, hid, hne⟩

theorem touched_stateDelete : Touched s (stateDelete deps.metered pluginId args s).2 ↔ mayStateDelete deps s pluginId args := by
  unfold stateDelete mayStateDelete
  rw [touched_arg]
  simp only [touched_ofExcept, touched_modifyRows (inert_pure _), with_kv_ne_iff, filter_keys_ne_iff]
  constructor
  · rintro ⟨key, hkey, k, hk, id, hid, hmem⟩
    exact ⟨key, id, k, hkey, hk, hid, hmem⟩
  · rintro ⟨key, id, k, hkey, hk, hid, hmem⟩
    exact ⟨key, hkey, k, hk, id, hid, hmem⟩

theorem touched_secretsGet : Touched s (secretsGet deps.metered pluginId args s).2 ↔ maySecretsGet deps s pluginId args := by
  unfold secretsGet maySecretsGet
  rw [touched_arg]
  refine exists_congr fun name => and_congr_right fun _ => ?_
  rw [touched_checked (inert_deny _ _)]
  exact and_iff_left (touched_counted _ fun _ => (inert_pure _).grows)

theorem touched_secretsPut : Touched s (secretsPut deps.metered pluginId args s).2 ↔ maySecretsPut deps s pluginId args := by
  unfold secretsPut maySecretsPut
  rw [touched_arg]
  simp only [touched_arg, touched_checked (inert_deny _ _), exists_and_left]
  refine exists_congr fun name => and_congr_right fun _ => exists_congr fun value => and_congr_right fun _ => ?_
  exact and_iff_left (touched_counted _ fun _ => (inert_pure _).grows)

theorem touched_brokerDnsApply (method action : String) :
    Touched s (brokerDnsApply deps.metered method action pluginId args s).2 ↔ mayApplyDns deps s pluginId args := by
  unfold brokerDnsApply mayApplyDns
  rw [touched_arg]
  simp only [touched_arg, touched_checked (inert_deny _ _), exists_and_left]
  refine exists_congr fun name => and_congr_right fun _ => exists_congr fun value => and_congr_right fun _ => ?_
  refine and_congr_right fun _ => ?_
  refine (touched_bind (inert_onRest deps.dnsProvider)).trans ?_
  constructor
  · rintro ⟨provider, hprovider, h⟩
    cases hbound : truthy provider with
    | none =>
      rw [hbound] at h
      exact absurd h ((inert_throw _).not_touched _)
    | some id =>
      obtain ⟨hid, hne⟩ := Option.filter_eq_some_iff.mp hbound
      exact ⟨id, hid ▸ hprovider, by simpa using hne⟩
  · rintro ⟨id, hid, hne⟩
    refine ⟨some id, hid, ?_⟩
    have hbound : truthy (some id) = some id := by simp [truthy, hne]
    rw [hbound]
    refine touched_counted _ fun answer => ?_
    cases answer with
    | error text => exact (inert_throw _).grows
    | ok result => exact (inert_pure _).grows

theorem touched_certsStore : Touched s (certsStore deps.metered pluginId args s).2 ↔ mayCertsStore deps s pluginId args := by
  unfold certsStore mayCertsStore
  rw [touched_arg]
  simp only [touched_arg, touched_checked (inert_deny _ _)]
  constructor
  · rintro ⟨name, hname, certPem, hcert, keyPem, hkey, certMeta, hmeta, hgranted, -⟩
    exact ⟨⟨name, certPem, keyPem, certMeta, hname, hcert, hkey, hmeta⟩, hgranted⟩
  · rintro ⟨⟨name, certPem, keyPem, certMeta, hname, hcert, hkey, hmeta⟩, hgranted⟩
    refine ⟨name, hname, certPem, hcert, keyPem, hkey, certMeta, hmeta, hgranted, touched_counted _ fun generation => ?_⟩
    exact ((inert_onRest _).bind fun _ => (inert_onRest _).bind fun _ => inert_pure _).grows

theorem inert_callingPluginTypes : Inert (callingPluginTypes deps.metered pluginId) := by
  refine Inert.bind (fun _ => ⟨rfl, rfl⟩) fun s => ?_
  split
  · split
    · exact inert_pure _
    · exact inert_onRest _
  · exact inert_pure _

theorem inert_requireProvider (method : String) : Inert (requireProvider deps.metered method pluginId) := by
  refine inert_callingPluginTypes.bind fun types => ?_
  split
  · exact inert_pure _
  · exact inert_deny _ _

theorem requireProvider_ok_iff (method : String) :
    (requireProvider deps.metered method pluginId s).1 = .ok () ↔ IsProvider deps s pluginId := by
  unfold requireProvider IsProvider
  rw [Act.bind_apply]
  rcases callingPluginTypes deps.metered pluginId s with ⟨r, t⟩
  cases r with
  | error e => simp
  | ok types =>
    by_cases hmem : js "network-provider" ∈ types
    · simp [hmem]
    · simp only [hmem, if_false, Except.ok.injEq, exists_eq_left', iff_false]
      rw [deny, Act.bind_apply]
      simp only [Act.ofExcept, Act.throw]
      split <;> simp

/-- What follows the check for a network provider. -/
theorem touched_provider {β : Type} {method : String} {f : Unit → HostM (ρ × ℕ) β} :
    Touched s ((requireProvider deps.metered method pluginId >>= f) s).2 ↔
      IsProvider deps s pluginId ∧
        Touched (requireProvider deps.metered method pluginId s).2 (f () (requireProvider deps.metered method pluginId s).2).2 := by
  rw [touched_bind (inert_requireProvider method), ← requireProvider_ok_iff method]
  exact ⟨fun ⟨(), hok, h⟩ => ⟨hok, h⟩, fun ⟨hok, h⟩ => ⟨(), hok, h⟩⟩

theorem touched_ipamAllocate :
    Touched s (ipamAllocate deps.metered pluginId args s).2 ↔ mayIpamAllocate deps s pluginId args := by
  unfold ipamAllocate mayIpamAllocate
  rw [touched_arg]
  simp only [touched_arg, touched_provider]
  constructor
  · rintro ⟨rangeId, hrange, owner, howner, hprovider, -⟩
    exact ⟨⟨rangeId, owner, hrange, howner⟩, hprovider⟩
  · rintro ⟨⟨rangeId, owner, hrange, howner⟩, hprovider⟩
    refine ⟨rangeId, hrange, owner, howner, hprovider, touched_counted _ fun ip => ?_⟩
    exact ((inert_onRest _).bind fun _ => inert_pure _).grows

theorem touched_ipamRelease :
    Touched s (ipamRelease deps.metered pluginId args s).2 ↔ mayIpamRelease deps s pluginId args := by
  unfold ipamRelease mayIpamRelease
  rw [touched_arg]
  simp only [touched_provider]
  constructor
  · rintro ⟨ip, hip, hprovider, -⟩
    exact ⟨⟨ip, hip⟩, hprovider⟩
  · rintro ⟨⟨ip, hip⟩, hprovider⟩
    refine ⟨ip, hip, hprovider, touched_counted _ fun _ => ?_⟩
    exact ((inert_onRest _).bind fun _ => inert_pure _).grows

/-- The methods that only answer. -/
theorem inert_readers (deps : HostDeps ρ) (pluginId args : Value) :
    Inert (stateGet deps.metered pluginId args) ∧ Inert (logEmit deps.metered pluginId args) ∧
      Inert (dnsQuery deps.metered pluginId args) ∧ Inert (netProbeNetwork deps.metered pluginId args) := by
  refine ⟨?_, ?_, ?_, ?_⟩
  · exact (inert_ofExcept _).bind fun _ => (reads_rowsOf _).inert.bind fun _ => (inert_ofExcept _).bind fun _ => inert_pure _
  · exact (inert_ofExcept _).bind fun _ => (inert_ofExcept _).bind fun _ => (inert_ofExcept _).bind fun _ =>
      (inert_onRest _).bind fun _ => inert_pure _
  · exact (inert_ofExcept _).bind fun _ => (inert_ofExcept _).bind fun _ => (inert_ofExcept _).bind fun _ =>
      (inert_ofExcept _).bind fun _ => (inert_onRest _).bind fun _ => inert_pure _
  · refine (inert_ofExcept _).bind fun _ => (inert_ofExcept _).bind fun _ => (inert_requireProvider _).bind fun _ => ?_
    cases h : deps.probeNetwork with
    | none =>
      simp only [HostDeps.metered, h, Option.map_none]
      exact inert_pure _
    | some probe =>
      simp only [HostDeps.metered, h, Option.map_some]
      exact inert_onRest _

/-- A handler has an effect exactly when the table says so. -/
theorem touched_handler : ∀ e ∈ handlers deps.metered, Touched s (e.2 pluginId args s).2 ↔
    (Obj.get (authority deps s pluginId args) e.1).getD False := by
  obtain ⟨hget, hlog, hquery, hprobe⟩ := inert_readers deps pluginId args
  have hinert : ∀ {m : HostM (ρ × ℕ) Json}, Inert m → (Touched s (m s).2 ↔ False) := fun h => iff_false_intro (h.not_touched s)
  simp only [handlers, List.forall_mem_cons]
  exact ⟨hinert hget, touched_statePut, touched_stateDelete, hinert hlog, touched_secretsGet, touched_secretsPut,
    touched_brokerDnsApply _ _, touched_brokerDnsApply _ _, hinert hquery, touched_certsStore, touched_ipamAllocate,
    touched_ipamRelease, hinert hprobe, by simp⟩

/-- Only handlers of the table have an effect. -/
theorem isSome_handler_of_mem_authority {key : JsString} (h : key ∈ Obj.keys (authority deps s pluginId args)) :
    (Obj.get (handlers deps.metered) key).isSome := by
  simp only [authority, Obj.keys, List.map_cons, List.map_nil, List.mem_cons, List.not_mem_nil, or_false] at h
  rcases h with rfl | rfl | rfl | rfl | rfl | rfl | rfl | rfl | rfl <;> rfl

theorem inert_inherited {method : JsString} {handler : Handler (ρ × ℕ)} (h : inheritedHandler method = some handler) :
    Inert (handler pluginId args) := by
  simp only [inheritedHandler] at h
  split at h
  · cases h
    exact inert_pure _
  · split at h
    · cases h
      exact inert_pure _
    · split at h
      · cases h
        dsimp only
        split
        · exact inert_throw _
        · exact inert_throw _
        · exact inert_pure _
      · split at h
        · cases h
          exact inert_throw _
        · split at h
          · cases h
            exact inert_throw _
          · cases h

theorem get_authority_of_handlers {key : JsString} (h : Obj.get (handlers deps.metered) key = none) :
    Obj.get (authority deps s pluginId args) key = none := by
  refine Obj.get_eq_none fun hmem => ?_
  have := isSome_handler_of_mem_authority hmem
  rw [h] at this
  cases this

/-- A method that the dispatcher finds. -/
theorem touched_lookup {key : JsString} {handler : Handler (ρ × ℕ)} (h : lookupHandler deps.metered key = some handler) :
    Touched s (handler pluginId args s).2 ↔ (Obj.get (authority deps s pluginId args) key).getD False := by
  rcases Option.or_eq_some_iff.mp h with hown | ⟨hown, hinherited⟩
  · obtain ⟨e, he, rfl⟩ := Option.map_eq_some_iff.mp hown
    have hkey : e.1 = key := by simpa using List.find?_some he
    rw [← hkey]
    exact touched_handler e (List.mem_of_find?_eq_some he)
  · rw [get_authority_of_handlers hown]
    exact iff_of_false ((inert_inherited hinherited).not_touched s) id

/-- **A call has an effect exactly when the rows of the plugin it names authorise it.** -/
theorem effective_iff {params : Value} : Effective deps s params ↔ Authorised deps s params := by
  have hauthorised : Authorised deps s params ↔ ∃ id, params.destructure (js "params") (js "pluginId") = .ok id ∧
      ∃ method, params.destructure (js "params") (js "method") = .ok method ∧
        ∃ args, params.destructure (js "params") (js "args") = .ok args ∧
          ∃ key, method.toText = .ok key ∧ (Obj.get (authority deps s id args) key).getD False := by
    constructor
    · rintro ⟨id, method, args, key, hid, hmethod, hargs, hkey, h⟩
      exact ⟨id, hid, method, hmethod, args, hargs, key, hkey, h⟩
    · rintro ⟨id, hid, method, hmethod, args, hargs, key, hkey, h⟩
      exact ⟨id, method, args, key, hid, hmethod, hargs, hkey, h⟩
  rw [hauthorised, Effective, dispatch, touched_ofExcept]
  simp only [touched_ofExcept]
  refine exists_congr fun id => and_congr_right fun _ => exists_congr fun method => and_congr_right fun _ =>
    exists_congr fun args => and_congr_right fun _ => exists_congr fun key => and_congr_right fun _ => ?_
  cases hlookup : lookupHandler deps.metered key with
  | some handler => exact touched_lookup hlookup
  | none =>
    rw [get_authority_of_handlers (Option.or_eq_none_iff.mp hlookup).1]
    exact iff_of_false ((inert_deny _ _).not_touched s) not_false

end Handlers

/-! ### A history of the socket -/

/-- What happens on the plugin socket. -/
inductive SocketEvent where
  /-- The orchestrator asks for an invocation of the plugin. -/
  | started (invocationId pluginId : JsString)
  /-- The invocation was answered. -/
  | finished (invocationId : JsString)
  /-- A `host.call` with these parameters arrives. -/
  | hostCall (params : Value)

/-- The orchestrator's end of the socket. -/
structure Socket (ρ : Type) where
  state : HostState (ρ × ℕ)
  /-- The invocations that were started and not answered, with their plugins. -/
  inFlight : List (JsString × JsString)

section Socket

variable {ρ : Type} (deps : HostDeps ρ)

/-- One event. A host call goes to the dispatcher, whatever is in flight. -/
def Socket.step (c : Socket ρ) : SocketEvent → Socket ρ
  | .started invocationId pluginId => { c with inFlight := (invocationId, pluginId) :: c.inFlight }
  | .finished invocationId => { c with inFlight := c.inFlight.filter fun e => e.1 != invocationId }
  | .hostCall params => { c with state := (dispatch deps.metered params c.state).2 }

/-- The events, one after the other. -/
def Socket.run (c : Socket ρ) (events : List SocketEvent) : Socket ρ := events.foldl (Socket.step deps) c

/-- The call names an invocation in flight, and its plugin. -/
def InFlight (flights : List (JsString × JsString)) (params : Value) : Prop :=
  ∃ invocationId pluginId, params.destructure (js "params") (js "invocationId") = .ok (some (.str invocationId)) ∧
    params.destructure (js "params") (js "pluginId") = .ok (some (.str pluginId)) ∧ (invocationId, pluginId) ∈ flights

/-- Whenever a call with `P` arrives, it names an invocation in flight. -/
def NamesInFlight (P : HostState (ρ × ℕ) → Value → Prop) (c : Socket ρ) (events : List SocketEvent) : Prop :=
  ∀ before params after, events = before ++ .hostCall params :: after → P (c.run deps before).state params →
    InFlight (c.run deps before).inFlight params

/-- Calls have an effect only within the invocations in flight. -/
def Contained (c : Socket ρ) (events : List SocketEvent) : Prop := NamesInFlight deps (Effective deps) c events

variable {deps} {c c' : Socket ρ} {events : List SocketEvent}

/-- **When host calls stay within the invocations in flight.** For every history of invocations and
messages, from any state of the stores: exactly when no other call arrives that the rows of the plugin
it names authorise. -/
theorem contained_iff : Contained deps c events ↔ NamesInFlight deps (Authorised deps) c events := by
  unfold Contained NamesInFlight
  simp only [effective_iff]

end Socket

/-! ### A call after its invocation -/

/-- The certificate issuer's invocation is answered, and then its account key is asked for. -/
def lateCall : List SocketEvent :=
  [.started (js "1") (js "cert-letsencrypt-dns01"), .finished (js "1"),
    .hostCall (some (.obj [(js "invocationId", .str (js "1")), (js "pluginId", .str (js "cert-letsencrypt-dns01")),
      (js "method", .str (js "secrets.get")),
      (js "args", .obj [(js "name", .str (js "cert-letsencrypt-dns01/acme-account-key"))])]))]

/-- The secret is read although nothing is in flight. -/
theorem not_contained_lateCall :
    ¬ Contained Pluginhost.secretsHost ⟨⟨Pluginhost.issuerState.rows, (Pluginhost.issuerState.rest, 0)⟩, []⟩ lateCall := by
  intro h
  obtain ⟨invocationId, pluginId, -, -, hmem⟩ := h _ _ _ (show lateCall = [_, _] ++ _ :: [] from rfl)
    (.inr (by decide +kernel))
  simp [Socket.run, Socket.step] at hmem

end Wanfw.Orchestrator
