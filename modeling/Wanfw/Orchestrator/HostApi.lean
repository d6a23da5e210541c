import Wanfw.Js.Values
import Wanfw.Orchestrator.World

/-!
# The host API

`host-api/dispatcher.ts`: what a plugin may call. The dispatcher takes the plugin id,
the method and the arguments from the message, looks the method up among its handlers
and lets the handler decide, from the rows that the store holds under this id: live
grants, key-value pairs, trust records.

The other stores are modules of their own and enter as operations (`HostDeps`) on
their own state. A message can hold anything, so that every field of the arguments is
a `Value`.

`dispatch_local`: a call that carries the id of a plugin depends on the rows of this
plugin alone, and changes no others.
-/

namespace Wanfw.Orchestrator

open Wanfw.Js

/-! ### Scopes against values -/

/-- `matchNamePrefix`, for a name from a message. -/
def matchNamePrefixValue (patterns : Json) (name : Value) : Except JsError Bool := do
  let ps ← patternsOf patterns
  someE (fun p => do
    let pattern ← patternText (js "p") p
    if endsWith pattern (js "/*") then name.startsWithE (js "name") (pattern.take (pattern.length - 1))
    else return pattern == js "*" || name.strictEq (.str pattern)) ps

/-- `zones.includes(x)`, for a value from a message. -/
def includesValue (zones : Json) (x : Value) : Except JsError Bool :=
  match zones with
  | .arr xs => .ok (xs.any fun y => x.strictEq y)
  | .str s => do return includesText s (← x.toText)
  | _ => .error (.typeError (js "zones.includes is not a function"))

/-- `matchZone`, for a zone from a message. -/
def matchZoneValue (zones : Json) (zone : Value) : Except JsError Bool := do
  if ← includesValue zones (some (.str (js "*"))) then return true
  includesValue zones zone

/-! ### State -/

/-- The rows that the store holds under one plugin id. -/
structure PluginRows where
  /-- The rows of `grants` that are not revoked. -/
  grants : List GrantRow
  /-- `plugin_kv`. -/
  kv : Obj JsString
  /-- The bundle hashes of the trust records that are not revoked, by version. -/
  trusted : List JsString

/-- The state a host call runs in: the rows of every plugin, and the other stores. -/
structure HostState (ρ : Type) where
  rows : JsString → PluginRows
  rest : ρ

/-- What the dispatcher is given: the database driver's binding of a parameter, and the modules
it calls, as operations on their own state. -/
structure HostDeps (ρ : Type) where
  /-- The text a parameter of a statement is bound to; the driver rejects values of other types. A
  text with a lone surrogate, which the driver writes as `U+FFFD`, is bound as it is. -/
  bind : Value → Except JsError JsString
  bind_str : ∀ s, bind (some (.str s)) = .ok s
  getSecret : Value → Act ρ Value
  putSecret : Value → Value → Act ρ Unit
  storeCert : Value → Value → Value → Json → Act ρ Json
  onCertChange : Act ρ Unit
  /-- `manifest?.types ?? []` of a bundle. -/
  manifestTypes : JsString → Act ρ (List JsString)
  allocateIp : Value → Value → Act ρ Value
  releaseIp : Value → Act ρ Unit
  probeNetwork : Option (Value → Value → Act ρ Json)
  /-- `rolesHolder.roles.dnsProvider`. -/
  dnsProvider : Act ρ (Option JsString)
  /-- `pluginInvoker`: the result, or the message of the error. -/
  pluginInvoker : JsString → JsString → Obj Json → Act ρ (Except (Option JsString) Value)
  /-- `log.info`. -/
  log : Value → Obj Json → Act ρ Unit

/-- An action of the dispatcher. -/
abbrev HostM (ρ : Type) := Act (HostState ρ)

section Handlers

variable {ρ : Type} (deps : HostDeps ρ)

/-- An operation of another module. -/
def onRest {α : Type} (m : Act ρ α) : HostM ρ α := fun s =>
  let (r, rest) := m s.rest
  (r, { s with rest := rest })

/-- The rows under the id that a statement's parameter is bound to. -/
def rowsOf (pluginId : Value) : HostM ρ PluginRows := do
  let id ← Act.ofExcept (deps.bind pluginId)
  let s ← Act.get
  return s.rows id

/-- Change the rows under one id. -/
def modifyRows (pluginId : Value) (f : PluginRows → PluginRows) : HostM ρ Unit := do
  let id ← Act.ofExcept (deps.bind pluginId)
  Act.modify fun s => { s with rows := Function.update s.rows id (f (s.rows id)) }

/-- `decodedGrants`. -/
def decodedGrants (pluginId : Value) : HostM ρ (List Grant) := do
  let rows ← rowsOf deps pluginId
  Act.ofExcept (rows.grants.mapM fun row =>
    match row.scope with
    | some scope => .ok ⟨row.cap, scope⟩
    | none => .error (.error (js "scope_json is not valid JSON")))

/-- `callingPluginTypes`: of the first trust record under exactly this id. -/
def callingPluginTypes (pluginId : Value) : HostM ρ (List JsString) := do
  let s ← Act.get
  match pluginId with
  | some (.str id) =>
    match (s.rows id).trusted with
    | [] => return []
    | sha256 :: _ => onRest (deps.manifestTypes sha256)
  | _ => return []

/-- The text of a message with values in it. -/
def message (parts : List (JsString × Value)) (last : JsString) : Except JsError JsString := do
  let texts ← parts.mapM fun p => do return p.1 ++ (← p.2.toText)
  return texts.flatten ++ last

/-- `throw new CapabilityError(…)`. -/
def deny {α : Type} (parts : List (JsString × Value)) (last : JsString) : HostM ρ α := do
  let text ← Act.ofExcept (message parts last)
  Act.throw (.error text)

/-- One field of the arguments. -/
def arg (k : String) (args : Value) : HostM ρ Value := Act.ofExcept (args.destructure (js "args") (js k))

/-- The grant that a method needs. -/
def requireCap (pluginId : Value) (cap : String) (p : Json → Except JsError Bool) : HostM ρ Bool := do
  let grants ← decodedGrants deps pluginId
  Act.ofExcept (hasGrant grants (js cap) p)

/-- A method for network providers alone. -/
def requireProvider (method : String) (pluginId : Value) : HostM ρ Unit := do
  let types ← callingPluginTypes deps pluginId
  if js "network-provider" ∈ types then return ()
  else deny [(js method ++ js " denied: ", pluginId)] (js " is not a trusted network-provider plugin")

/-- `brokerDnsApply`. -/
def brokerDnsApply (method action : String) (pluginId args : Value) : HostM ρ Json := do
  let zone ← arg "zone" args
  let record ← arg "record" args
  if ← requireCap deps pluginId "dns.record.write" fun scope => do
      matchZoneValue (← scopeField scope (js "zones")) zone then
    match truthy (← onRest deps.dnsProvider) with
    | none => Act.throw (.error (js "no dnsProvider role is currently bound in the framework document"))
    | some dnsProviderId =>
      match ← onRest (deps.pluginInvoker dnsProviderId (js "dns.apply")
          (Value.object [(js "zone", zone), (js "action", some (.str (js action))), (js "record", record)])) with
      | .error text =>
        Act.throw (.error (js "dns-provider '" ++ dnsProviderId ++ js "' rejected the DNS change: " ++
          text.getD (js "unknown error")))
      | .ok result => return result.coalesce (.obj [])
  else deny [(js method ++ js " denied: ", pluginId), (js " has no dns.record.write grant covering zone '", zone)] (js "'")

/-- A handler: the plugin id and the arguments, as they come. -/
abbrev Handler (ρ : Type) := Value → Value → HostM ρ Json

/-- The fields of a log record. -/
def pluginFields (pluginId : Value) (more : List (JsString × Value)) : Obj Json :=
  Value.object ((js "component", some (.str (js "plugin"))) :: (js "pluginId", pluginId) :: more)

/-- `state.get`. -/
def stateGet : Handler ρ := fun pluginId args => do
  let key ← arg "key" args
  let rows ← rowsOf deps pluginId
  let k ← Act.ofExcept (deps.bind key)
  return .obj [(js "value", ((Obj.get rows.kv k).map Json.str).getD .null)]

/-- `state.put`. -/
def statePut : Handler ρ := fun pluginId args => do
  let key ← arg "key" args
  let value ← arg "value" args
  let k ← Act.ofExcept (deps.bind key)
  let v ← Act.ofExcept (deps.bind value)
  modifyRows deps pluginId fun rows => { rows with kv := Obj.setOwn rows.kv k v }
  return .obj []

/-- `state.delete`. -/
def stateDelete : Handler ρ := fun pluginId args => do
  let key ← arg "key" args
  let k ← Act.ofExcept (deps.bind key)
  modifyRows deps pluginId fun rows => { rows with kv := rows.kv.filter fun e => e.1 != k }
  return .obj []

/-- `log.emit`. -/
def logEmit : Handler ρ := fun pluginId args => do
  let level ← arg "level" args
  let msg ← arg "msg" args
  let fields ← arg "fields" args
  onRest (deps.log (some (msg.coalesce (.str [])))
    (Obj.spread (pluginFields pluginId [(js "level", some (level.coalesce (.str (js "info"))))]) fields.ownProps))
  return .obj []

/-- `secrets.get`. -/
def secretsGet : Handler ρ := fun pluginId args => do
  let name ← arg "name" args
  if ← requireCap deps pluginId "secrets.read" fun scope => do
      matchNamePrefixValue (← scopeField scope (js "names")) name then
    return .obj [(js "value", (← onRest (deps.getSecret name)).coalesce .null)]
  else deny [(js "secrets.get denied: ", pluginId), (js " has no secrets.read grant covering '", name)] (js "'")

/-- `secrets.put`. -/
def secretsPut : Handler ρ := fun pluginId args => do
  let name ← arg "name" args
  let value ← arg "value" args
  if ← requireCap deps pluginId "secrets.write" fun scope => do
      matchNamePrefixValue (← scopeField scope (js "names")) name then
    onRest (deps.putSecret name value)
    return .obj []
  else deny [(js "secrets.put denied: ", pluginId), (js " has no secrets.write grant covering '", name)] (js "'")

/-- `dns.setRecord`. -/
def dnsSetRecord : Handler ρ := brokerDnsApply deps "dns.setRecord" "set"

/-- `dns.deleteRecord`. -/
def dnsDeleteRecord : Handler ρ := brokerDnsApply deps "dns.deleteRecord" "delete"

/-- `dns.query`. -/
def dnsQuery : Handler ρ := fun pluginId args => do
  let name ← arg "name" args
  let type ← arg "type" args
  let result ← arg "result" args
  let text ← Act.ofExcept (message [(js "dns.query (advisory, plugin-resolved): ", name), (js " ", type)] [])
  onRest (deps.log (some (.str text)) (pluginFields pluginId [(js "result", result)]))
  return .obj []

/-- `certs.store`. -/
def certsStore : Handler ρ := fun pluginId args => do
  let name ← arg "name" args
  let certPem ← arg "certPem" args
  let keyPem ← arg "keyPem" args
  let certMeta ← arg "meta" args
  if ← requireCap deps pluginId "certs.store" fun _ => .ok true then
    let generation ← onRest (deps.storeCert name certPem keyPem (certMeta.coalesce (.obj [])))
    onRest (deps.log (some (.str (js "certificate stored")))
      (pluginFields pluginId [(js "name", name), (js "generation", some generation)]))
    onRest deps.onCertChange
    return .obj [(js "generation", generation)]
  else deny [(js "certs.store denied: ", pluginId)] (js " has no certs.store grant")

/-- `ipam.allocate`. The error of an exhausted range is thrown again with its message. -/
def ipamAllocate : Handler ρ := fun pluginId args => do
  let rangeId ← arg "rangeId" args
  let owner ← arg "owner" args
  requireProvider deps "ipam.allocate" pluginId
  let ip ← onRest (deps.allocateIp rangeId owner)
  onRest (deps.log (some (.str (js "ipam address allocated")))
    (pluginFields pluginId [(js "rangeId", rangeId), (js "owner", owner), (js "ip", ip)]))
  return .obj (Value.object [(js "ip", ip)])

/-- `ipam.release`. -/
def ipamRelease : Handler ρ := fun pluginId args => do
  let ip ← arg "ip" args
  requireProvider deps "ipam.release" pluginId
  onRest (deps.releaseIp ip)
  onRest (deps.log (some (.str (js "ipam address released"))) (pluginFields pluginId [(js "ip", ip)]))
  return .obj []

/-- `net.probeNetwork`. -/
def netProbeNetwork : Handler ρ := fun pluginId args => do
  let mode ← arg "mode" args
  let parent ← arg "parent" args
  requireProvider deps "net.probeNetwork" pluginId
  match deps.probeNetwork with
  | none =>
    return .obj [(js "ok", .bool false), (js "reason", .str (js "network probing is unavailable in this environment"))]
  | some probe => onRest (probe mode parent)

/-! ### Dispatch -/

/-- `handlers`. -/
def handlers : Obj (Handler ρ) :=
  [(js "state.get", stateGet deps), (js "state.put", statePut deps), (js "state.delete", stateDelete deps),
    (js "log.emit", logEmit deps), (js "secrets.get", secretsGet deps), (js "secrets.put", secretsPut deps),
    (js "dns.setRecord", dnsSetRecord deps), (js "dns.deleteRecord", dnsDeleteRecord deps),
    (js "dns.query", dnsQuery deps), (js "certs.store", certsStore deps), (js "ipam.allocate", ipamAllocate deps),
    (js "ipam.release", ipamRelease deps), (js "net.probeNetwork", netProbeNetwork deps)]

/-- The methods of `Object.prototype` that throw when they are called without an object. -/
def throwingMembers : List JsString :=
  [js "toLocaleString", js "valueOf", js "hasOwnProperty", js "propertyIsEnumerable", js "__defineGetter__",
    js "__defineSetter__", js "__lookupGetter__", js "__lookupSetter__"]

/-- What such a method says. -/
def noObjectMessage (method : JsString) : JsString :=
  if method = js "toLocaleString" then js "Object.prototype.toLocaleString called on null or undefined"
  else js "Cannot convert undefined or null to object"

/-- What `handlers` inherits from `Object.prototype`, called as a handler is. -/
def inheritedHandler (method : JsString) : Option (Handler ρ) :=
  let noObject : HostM ρ Json := Act.throw (.typeError (noObjectMessage method))
  if method = js "constructor" then some fun pluginId _ => return pluginId.coalesce (.obj [])
  else if method = js "toString" then some fun _ _ => return .str (js "[object Undefined]")
  else if method = js "isPrototypeOf" then some fun pluginId _ =>
    match pluginId with
    | some (.obj _) | some (.arr _) => noObject
    | _ => return .bool false
  else if method = js "__proto__" then some fun _ _ => Act.throw (.typeError (js "handler is not a function"))
  else if method ∈ throwingMembers then some fun _ _ => noObject
  else none

/-- `handlers[method]`. -/
def lookupHandler (method : JsString) : Option (Handler ρ) :=
  (Obj.get (handlers deps) method).or (inheritedHandler method)

/-- The dispatcher, for the parameters of a `host.call`. -/
def dispatch (params : Value) : HostM ρ Json := do
  let pluginId ← Act.ofExcept (params.destructure (js "params") (js "pluginId"))
  let method ← Act.ofExcept (params.destructure (js "params") (js "method"))
  let args ← Act.ofExcept (params.destructure (js "params") (js "args"))
  let key ← Act.ofExcept method.toText
  match lookupHandler deps key with
  | none => deny [(js "unknown host API method: ", method)] []
  | some handler => handler pluginId args

end Handlers

/-! ### A call concerns one plugin -/

/-- An action that depends on the rows of one plugin and on the other stores alone, and changes no
other plugin's rows. -/
def Local {ρ α : Type} (id : JsString) (m : HostM ρ α) : Prop :=
  ∀ s s', s.rows id = s'.rows id → s.rest = s'.rest →
    (m s).1 = (m s').1 ∧ (m s).2.rest = (m s').2.rest ∧ (m s).2.rows id = (m s').2.rows id ∧
      ∀ other, other ≠ id → (m s).2.rows other = s.rows other

section Local

variable {ρ α β : Type} {id : JsString} {deps : HostDeps ρ}

theorem local_pure (a : α) : Local id (pure a : HostM ρ α) := fun _ _ hrows hrest => ⟨rfl, hrest, hrows, fun _ _ => rfl⟩

theorem local_throw (e : JsError) : Local id (Act.throw e : HostM ρ α) :=
  fun _ _ hrows hrest => ⟨rfl, hrest, hrows, fun _ _ => rfl⟩

theorem local_ofExcept (x : Except JsError α) : Local id (Act.ofExcept x : HostM ρ α) :=
  fun _ _ hrows hrest => ⟨rfl, hrest, hrows, fun _ _ => rfl⟩

theorem Local.bind {m : HostM ρ α} {f : α → HostM ρ β} (hm : Local id m) (hf : ∀ a, Local id (f a)) :
    Local id (m >>= f) := by
  intro s s' hrows hrest
  obtain ⟨h1, h2, h3, h4⟩ := hm s s' hrows hrest
  rw [Act.bind_apply, Act.bind_apply]
  cases hs : m s with
  | mk r t =>
    cases hs' : m s' with
    | mk r' t' =>
      simp only [hs, hs'] at h1 h2 h3 h4
      subst h1
      cases r with
      | error e => exact ⟨rfl, h2, h3, h4⟩
      | ok a =>
        obtain ⟨g1, g2, g3, g4⟩ := hf a t t' h3 h2
        exact ⟨g1, g2, g3, fun other hne => (g4 other hne).trans (h4 other hne)⟩

theorem local_onRest (m : Act ρ α) : Local id (onRest m : HostM ρ α) := by
  intro s s' hrows hrest
  unfold onRest
  rw [hrest]
  exact ⟨rfl, rfl, hrows, fun _ _ => rfl⟩

theorem local_rowsOf : Local id (rowsOf deps (some (.str id))) := by
  intro s s' hrows hrest
  simp only [rowsOf, deps.bind_str, Act.bind_apply, Act.ofExcept, Act.get, Act.pure_apply, hrows]
  exact ⟨trivial, hrest, trivial, fun _ _ => trivial⟩

theorem local_modifyRows (f : PluginRows → PluginRows) : Local id (modifyRows deps (some (.str id)) f) := by
  intro s s' hrows hrest
  simp only [modifyRows, deps.bind_str, Act.bind_apply, Act.ofExcept, Act.modify, hrows]
  refine ⟨trivial, hrest, by simp, fun other hne => ?_⟩
  rw [Function.update_of_ne hne]

theorem local_decodedGrants : Local id (decodedGrants deps (some (.str id))) :=
  local_rowsOf.bind fun _ => local_ofExcept _

theorem local_requireCap (cap : String) (p : Json → Except JsError Bool) :
    Local id (requireCap deps (some (.str id)) cap p) :=
  local_decodedGrants.bind fun _ => local_ofExcept _

theorem local_callingPluginTypes : Local id (callingPluginTypes deps (some (.str id))) := by
  intro s s' hrows hrest
  simp only [callingPluginTypes, Act.bind_apply, Act.get, hrows]
  cases (s'.rows id).trusted with
  | nil => exact ⟨rfl, hrest, hrows, fun _ _ => rfl⟩
  | cons sha256 _ => exact local_onRest _ s s' hrows hrest

theorem local_arg (k : String) (args : Value) : Local id (arg k args : HostM ρ Value) := local_ofExcept _

theorem local_deny (parts : List (JsString × Value)) (last : JsString) : Local id (deny parts last : HostM ρ α) :=
  (local_ofExcept _).bind fun _ => local_throw _

theorem local_requireProvider (method : String) : Local id (requireProvider deps method (some (.str id))) := by
  refine local_callingPluginTypes.bind fun types => ?_
  split
  · exact local_pure _
  · exact local_deny _ _

/-- What follows a check of a grant. -/
theorem local_checked {cap : String} {p : Json → Except JsError Bool} {m m' : HostM ρ α} (hm : Local id m)
    (hm' : Local id m') :
    Local id (do if ← requireCap deps (some (.str id)) cap p then m else m') := by
  refine (local_requireCap cap p).bind fun granted => ?_
  cases granted with
  | true => exact hm
  | false => exact hm'

theorem local_brokerDnsApply (method action : String) (args : Value) :
    Local id (brokerDnsApply deps method action (some (.str id)) args) := by
  refine (local_arg _ _).bind fun zone => (local_arg _ _).bind fun record => local_checked ?_ (local_deny _ _)
  refine (local_onRest _).bind fun provider => ?_
  split
  · exact local_throw _
  · refine (local_onRest _).bind fun answer => ?_
    split
    · exact local_throw _
    · exact local_pure _

theorem local_secretsGet (args : Value) : Local id (secretsGet deps (some (.str id)) args) :=
  (local_arg _ _).bind fun _ => local_checked ((local_onRest _).bind fun _ => local_pure _) (local_deny _ _)

theorem local_secretsPut (args : Value) : Local id (secretsPut deps (some (.str id)) args) :=
  (local_arg _ _).bind fun _ => (local_arg _ _).bind fun _ =>
    local_checked ((local_onRest _).bind fun _ => local_pure _) (local_deny _ _)

theorem local_certsStore (args : Value) : Local id (certsStore deps (some (.str id)) args) := by
  refine (local_arg _ _).bind fun _ => (local_arg _ _).bind fun _ => (local_arg _ _).bind fun _ =>
    (local_arg _ _).bind fun _ => local_checked ?_ (local_deny _ _)
  exact (local_onRest _).bind fun _ => (local_onRest _).bind fun _ => (local_onRest _).bind fun _ => local_pure _

theorem local_state (args : Value) :
    Local id (stateGet deps (some (.str id)) args) ∧ Local id (statePut deps (some (.str id)) args) ∧
      Local id (stateDelete deps (some (.str id)) args) := by
  refine ⟨?_, ?_, ?_⟩
  · exact (local_arg _ _).bind fun _ => local_rowsOf.bind fun _ => (local_ofExcept _).bind fun _ => local_pure _
  · exact (local_arg _ _).bind fun _ => (local_arg _ _).bind fun _ => (local_ofExcept _).bind fun _ =>
      (local_ofExcept _).bind fun _ => (local_modifyRows _).bind fun _ => local_pure _
  · exact (local_arg _ _).bind fun _ => (local_ofExcept _).bind fun _ => (local_modifyRows _).bind fun _ => local_pure _

theorem local_logging (args : Value) :
    Local id (logEmit deps (some (.str id)) args) ∧ Local id (dnsQuery deps (some (.str id)) args) := by
  refine ⟨?_, ?_⟩
  · exact (local_arg _ _).bind fun _ => (local_arg _ _).bind fun _ => (local_arg _ _).bind fun _ =>
      (local_onRest _).bind fun _ => local_pure _
  · exact (local_arg _ _).bind fun _ => (local_arg _ _).bind fun _ => (local_arg _ _).bind fun _ =>
      (local_ofExcept _).bind fun _ => (local_onRest _).bind fun _ => local_pure _

theorem local_network (args : Value) :
    Local id (ipamAllocate deps (some (.str id)) args) ∧ Local id (ipamRelease deps (some (.str id)) args) ∧
      Local id (netProbeNetwork deps (some (.str id)) args) := by
  refine ⟨?_, ?_, ?_⟩
  · exact (local_arg _ _).bind fun _ => (local_arg _ _).bind fun _ => (local_requireProvider _).bind fun _ =>
      (local_onRest _).bind fun _ => (local_onRest _).bind fun _ => local_pure _
  · exact (local_arg _ _).bind fun _ => (local_requireProvider _).bind fun _ => (local_onRest _).bind fun _ =>
      (local_onRest _).bind fun _ => local_pure _
  · refine (local_arg _ _).bind fun _ => (local_arg _ _).bind fun _ => (local_requireProvider _).bind fun _ => ?_
    split
    · exact local_pure _
    · exact local_onRest _

theorem local_handlers (args : Value) :
    ∀ e ∈ handlers deps, Local id (e.2 (some (.str id)) args) := by
  simp only [handlers, List.forall_mem_cons]
  exact ⟨(local_state args).1, (local_state args).2.1, (local_state args).2.2, (local_logging args).1,
    local_secretsGet args, local_secretsPut args, local_brokerDnsApply _ _ args, local_brokerDnsApply _ _ args,
    (local_logging args).2, local_certsStore args, (local_network args).1, (local_network args).2.1,
    (local_network args).2.2, by simp⟩

theorem local_inherited {method : JsString} {handler : Handler ρ} (h : inheritedHandler method = some handler)
    (args : Value) : Local id (handler (some (.str id)) args) := by
  simp only [inheritedHandler] at h
  split at h
  · cases h
    exact local_pure _
  · split at h
    · cases h
      exact local_pure _
    · split at h
      · cases h
        exact local_pure _
      · split at h
        · cases h
          exact local_throw _
        · split at h
          · cases h
            exact local_throw _
          · cases h

/-- **A call that carries a plugin's id concerns this plugin alone.** -/
theorem dispatch_local {params : Value} (h : params.destructure (js "params") (js "pluginId") = .ok (some (.str id))) :
    Local id (dispatch deps params) := by
  unfold dispatch
  rw [h, Act.ofExcept_ok_bind]
  refine (local_ofExcept _).bind fun method => (local_ofExcept _).bind fun args => (local_ofExcept _).bind fun key => ?_
  cases hhandler : lookupHandler deps key with
  | none => exact local_deny _ _
  | some handler =>
    rcases Option.or_eq_some_iff.mp hhandler with hown | ⟨-, hinherited⟩
    · obtain ⟨e, he, rfl⟩ := Option.map_eq_some_iff.mp hown
      exact local_handlers args e (List.mem_of_find?_eq_some he)
    · exact local_inherited hinherited args

end Local

end Wanfw.Orchestrator
