import Wanfw.Js.Arrays
import Wanfw.Orchestrator.World

/-!
# LOAD, RESOLVE, PLAN and RENEWAL

The stages before VALIDATE: `reconciler/core-stages.ts`, `reconciler/plan-stage.ts`
and `reconciler/renewal-stage.ts` with `renewal/scheduler.ts`. LOAD takes over the
documents and the role bindings, RESOLVE fails the run when a dependency is
missing, PLAN asks the bound plugins for their plans, RENEWAL for a certificate
when one is due. None of them calls Docker.

`planServices_ok`: each plan of the graph is the answer of the deploy plugin that
the service document names.
-/

namespace Wanfw.Orchestrator

open Wanfw.Js

/-! ### LOAD and RESOLVE -/

/-- `buildLoadStage`. -/
def loadStage (env : Env) : M StageResult :=
  Act.tryCatch
    (do
      let ds ← Act.ofExcept env.load
      setCtx fun ctx => { ctx with desiredState := some ds }
      Act.modify fun w => { w with roles := ((ds.framework).map (·.roles)).getD [] }
      match ds.framework.bind (·.macvlan) with
      | some macvlan =>
        match truthy macvlan.reservedCidr, truthy macvlan.gateway with
        | some cidr, some gateway => Act.modify fun w => { w with ipamRange := some (cidr, gateway) }
        | _, _ => pure ()
      | none => pure ()
      match ds.errors with
      | [] => return none
      | errors =>
        return some ⟨js "load", none,
          natToString errors.length ++ js " document(s) failed to load: " ++ join errors (js "; ")⟩)
    fun e => return some ⟨js "load", none, e.message⟩

/-- `buildResolveStage`. -/
def resolveStage (env : Env) : M StageResult := do
  let w ← Act.get
  match w.ctx.desiredState.bind (·.framework) with
  | none => return none
  | some _ =>
    match ← Act.ofExcept env.resolve with
    | none => return none
    | some (pluginId, message) => return some ⟨js "resolve", some pluginId, message⟩

/-! ### PLAN -/

/-- A graph without plans. -/
def PlanGraph.empty (networkPlan : Option NetworkPlan) : PlanGraph where
  networkPlan := networkPlan
  servicePlans := []
  routes := []
  proxyRender := none
  certNames := []
  plans_nodup := List.nodup_nil
  plans_plain := List.not_mem_nil

/-- `graph.servicePlans[id] = plan`, with the route and the certificate name of the service. -/
def PlanGraph.add (g : PlanGraph) (id : JsString) (plan : ContainerSpec) (expose : Expose) : PlanGraph where
  networkPlan := g.networkPlan
  servicePlans := Obj.assign g.servicePlans id plan
  routes := g.routes ++ [⟨id, expose.hostname, expose.backendPort, expose.backendProtocol⟩]
  proxyRender := g.proxyRender
  certNames := g.certNames ++ [expose.hostname]
  plans_nodup := (Obj.keys_assign g.servicePlans id plan g.plans_nodup g.plans_plain).1
  plans_plain := (Obj.keys_assign g.servicePlans id plan g.plans_nodup g.plans_plain).2

/-- The loop of PLAN over the services. -/
def planServices (env : Env) : List Service → PlanGraph → Except JsError (Except StageError PlanGraph)
  | [], g => .ok (.ok g)
  | service :: services, g =>
    match truthy service.deployPlugin with
    | none =>
      .ok (.error ⟨js "plan", some service.id, js "service " ++ service.id ++ js " has no deploy plugin bound"⟩)
    | some pluginId =>
      match env.deployPlan pluginId service.spec service.id with
      | .error message =>
        .ok (.error ⟨js "plan", some pluginId, message.getD (js "deploy.plan failed for " ++ service.id)⟩)
      | .ok plan =>
        match service.expose with
        | none => .error (.typeError (js "Cannot read properties of undefined (reading 'hostname')"))
        | some expose => planServices env services (g.add service.id plan expose)

/-- The request for `network.plan`. -/
def networkRequest (framework : Framework) : NetworkRequest where
  ports := [443, 80]
  parent := truthy (framework.macvlan.bind (·.parent))
  reservedCidr := truthy (framework.macvlan.bind (·.reservedCidr))
  gateway := truthy (framework.macvlan.bind (·.gateway))

/-- The network plan of the bound provider, if there is one. -/
def planNetwork (env : Env) (framework : Framework) : Except StageError (Option NetworkPlan) :=
  match truthy (Obj.get framework.roles (js "networkProvider")) with
  | none => .ok none
  | some id =>
    match env.networkPlan id (networkRequest framework) with
    | .error message => .error ⟨js "plan", some id, message.getD (js "network.plan failed")⟩
    | .ok plan => .ok plan

/-- The routes in order, and the certificate names once each in order. -/
def PlanGraph.finish (g : PlanGraph) (env : Env) : PlanGraph :=
  { g with
    routes := sortBy (fun a b => env.localeCompare a.serviceId b.serviceId) g.routes
    certNames := sortStrings g.certNames.eraseDups }

/-- The configuration the bound proxy engine renders, if there is one. -/
def planProxy (env : Env) (framework : Framework) (g : PlanGraph) : Except StageError PlanGraph :=
  match truthy (Obj.get framework.roles (js "proxyEngine")) with
  | none => .ok g
  | some id =>
    match env.proxyRender id g.routes with
    | .error message => .error ⟨js "plan", some id, message.getD (js "proxy.render failed")⟩
    | .ok rendered => .ok { g with proxyRender := rendered }

/-- The plan graph of a run. -/
def planOf (env : Env) (ds : DesiredState) (framework : Framework) : Except JsError (Except StageError PlanGraph) :=
  match planNetwork env framework with
  | .error e => .ok (.error e)
  | .ok networkPlan => do
    match ← planServices env ds.services (.empty networkPlan) with
    | .error e => .ok (.error e)
    | .ok g => .ok (planProxy env framework (g.finish env))

/-- `buildPlanStage`. -/
def planStage (env : Env) : M StageResult := do
  let w ← Act.get
  match w.ctx.desiredState with
  | none => return none
  | some ds =>
    match ds.framework with
    | none => return none
    | some framework =>
      match ← Act.ofExcept (planOf env ds framework) with
      | .error e => return some e
      | .ok graph =>
        setCtx fun ctx => { ctx with planGraph := some graph }
        return none

/-- The plan is the answer of the service's deploy plugin in this run. -/
structure PlannedBy (env : Env) (ds : DesiredState) (serviceId : JsString) (plan : ContainerSpec) : Prop where
  answer : ∃ service pluginId, ds.service serviceId = some service ∧ truthy service.deployPlugin = some pluginId ∧
    env.deployPlan pluginId service.spec serviceId = .ok plan

/-- **Every plan of the graph comes from the plugin its service names.** -/
theorem planServices_ok {env : Env} {services : List Service} {g g' : PlanGraph}
    (hnd : (services.map (·.id)).Nodup) (h : planServices env services g = .ok (.ok g')) :
    g'.networkPlan = g.networkPlan ∧ ∀ id plan, (id, plan) ∈ g'.servicePlans → (id, plan) ∈ g.servicePlans ∨
      ∃ service ∈ services, service.id = id ∧ ∃ pluginId, truthy service.deployPlugin = some pluginId ∧
        env.deployPlan pluginId service.spec id = .ok plan := by
  induction services generalizing g with
  | nil =>
    cases h
    exact ⟨rfl, fun id plan hmem => .inl hmem⟩
  | cons service services ih =>
    rw [planServices] at h
    split at h
    · cases h
    · rename_i pluginId hplugin
      split at h
      · cases h
      · rename_i answer hanswer
        split at h
        · cases h
        · rename_i expose hexpose
          rw [List.map_cons, List.nodup_cons] at hnd
          obtain ⟨hnet, hplans⟩ := ih hnd.2 h
          refine ⟨hnet, fun id plan hmem => ?_⟩
          rcases hplans id plan hmem with hmem | ⟨s, hs, hid, hrest⟩
          · rw [PlanGraph.add, Obj.mem_iff_get (Obj.keys_assign _ _ _ g.plans_nodup g.plans_plain).1] at hmem
            by_cases hproto : service.id = js "__proto__"
            · rw [Obj.assign, if_pos hproto, ← Obj.mem_iff_get g.plans_nodup] at hmem
              exact .inl hmem
            · rw [Obj.get_assign hproto] at hmem
              split at hmem
              · rename_i hid
                cases hmem
                exact .inr ⟨service, by simp, hid, pluginId, hplugin, hid ▸ hanswer⟩
              · exact .inl ((Obj.mem_iff_get g.plans_nodup).mpr hmem)
          · exact .inr ⟨s, by simp [hs], hid, hrest⟩

theorem planProxy_ok {env : Env} {framework : Framework} {g g' : PlanGraph}
    (h : planProxy env framework g = .ok g') : g'.servicePlans = g.servicePlans ∧ g'.networkPlan = g.networkPlan := by
  unfold planProxy at h
  split at h
  · cases h
    exact ⟨rfl, rfl⟩
  · split at h
    · cases h
    · cases h
      exact ⟨rfl, rfl⟩

theorem planOf_ok {env : Env} {ds : DesiredState} {framework : Framework} {g : PlanGraph}
    (h : planOf env ds framework = .ok (.ok g)) :
    planNetwork env framework = .ok g.networkPlan ∧
      ∀ id plan, (id, plan) ∈ g.servicePlans → PlannedBy env ds id plan := by
  unfold planOf at h
  split at h
  · cases h
  · rename_i networkPlan hnet
    obtain ⟨r, hservices, h⟩ := except_bind_ok.mp h
    cases r with
    | error e => cases h
    | ok g₀ =>
      have hproxy := Except.ok.inj h
      obtain ⟨hplans, hnp⟩ := planProxy_ok hproxy
      obtain ⟨hnp', hall⟩ := planServices_ok ds.nodup hservices
      refine ⟨by rw [hnet, hnp]; exact congrArg Except.ok hnp'.symm, fun id plan hmem => ?_⟩
      rw [hplans] at hmem
      rcases hall id plan hmem with hmem | ⟨service, hs, rfl, pluginId, hplugin, hanswer⟩
      · cases hmem
      · refine ⟨service, pluginId, ?_, hplugin, hanswer⟩
        unfold DesiredState.service
        cases hf : ds.services.find? fun s => s.id == service.id with
        | none =>
          have := List.find?_eq_none.mp hf service hs
          simp at this
        | some s =>
          have hid : s.id = service.id := by simpa using List.find?_some hf
          rw [List.inj_on_of_nodup_map ds.nodup (List.mem_of_find?_eq_some hf) hs hid]

/-! ### RENEWAL -/

/-- `CERT_LIFETIME_DAYS`, in milliseconds. -/
def certLifetimeMs : ℤ := 90 * 86400000

/-- `RENEW_WITHIN_DAYS`, in milliseconds. -/
def renewWithinMs : ℤ := 30 * 86400000

/-- `ESCALATE_WITHIN_DAYS`, in milliseconds. -/
def escalateWithinMs : ℤ := 7 * 86400000

/-- `WILDCARD_CERT_NAME`. -/
def wildcardCertName : JsString := js "wildcard"

/-- `BACKOFF_STEPS_MS[min(failures - 1, 3)]`. -/
def backoffStep (failures : ℕ) : ℤ :=
  match failures with
  | 0 | 1 => 3600000
  | 2 => 4 * 3600000
  | 3 => 12 * 3600000
  | _ => 24 * 3600000

/-- `jitterMs`. -/
def jitterMs (certName : JsString) : ℤ :=
  (certName.foldl (fun hash u => (hash * 31 + u.toNat) % 2 ^ 32) 0 % (4 * 3600000) : ℕ)

/-- `dueByBackoffOrPace`; a date that cannot be read makes every comparison false. -/
def dueByBackoffOrPace (env : Env) (state : RenewalState) (paceMs : ℤ) : Bool :=
  match truthy state.lastAttemptAt with
  | none => true
  | some last =>
    match env.parseDate last with
    | none => false
    | some t =>
      if 0 < state.consecutiveFailures then backoffStep state.consecutiveFailures ≤ env.now - t
      else paceMs ≤ env.now - t

/-- `remainingDays`, in milliseconds: `none` for a date that cannot be read. -/
def remainingMs (env : Env) (storedAt : JsString) : Option ℤ :=
  (env.parseDate storedAt).map fun t => certLifetimeMs - (env.now - t)

/-- `computeRenewalDecision`: whether an attempt is due. -/
def renewalDue (env : Env) (storedAt : Option JsString) (namesMatch : Bool) (state : RenewalState) : Bool :=
  match truthy storedAt with
  | none => dueByBackoffOrPace env state 0
  | some stored =>
    if !namesMatch then dueByBackoffOrPace env state 0
    else
      match remainingMs env stored with
      | some remaining =>
        if renewWithinMs < remaining then false
        else dueByBackoffOrPace env state (86400000 + jitterMs wildcardCertName)
      | none => dueByBackoffOrPace env state (86400000 + jitterMs wildcardCertName)

/-- `isEscalated`, for names that are required. -/
def isEscalated (env : Env) (storedAt : Option JsString) : Bool :=
  match truthy storedAt with
  | none => true
  | some stored =>
    match remainingMs env stored with
    | some remaining => remaining < escalateWithinMs
    | none => false

/-- The reason a run is degraded for. -/
def degradedReason (env : Env) (names : List JsString) (state : RenewalState) : StageError :=
  let failed (text : JsString) := match state.lastError with
    | some message => text ++ message
    | none => []
  match env.certMeta with
  | some _ => ⟨js "renewal", none, js "cert '" ++ wildcardCertName ++
      js "' has fewer than 7 days remaining and has not been renewed in time" ++
      failed (js "; last renewal attempt failed: ")⟩
  | none => ⟨js "renewal", none, js "no cert has ever been issued for required names [" ++ join names (js ", ") ++
      js "]" ++ failed (js "; last attempt failed: ")⟩

/-- The renewal state after an attempt. -/
def renewalAfter (env : Env) (state : RenewalState) (answer : Answer Unit) : RenewalState :=
  match answer with
  | .ok () => { lastAttemptAt := some (env.toISOString env.now), lastSuccessAt := some (env.toISOString env.now) }
  | .error message =>
    { state with
      lastAttemptAt := some (env.toISOString env.now)
      consecutiveFailures := state.consecutiveFailures + 1
      lastError := message }

/-- `buildRenewalStage`. -/
def renewalStage (env : Env) : M StageResult := do
  let w ← Act.get
  match (w.ctx.planGraph.map (·.certNames)).getD [] with
  | [] => return none
  | names =>
    let storedAt := env.certMeta.map (·.1)
    let namesMatch := match env.certMeta with
      | some (_, stored) => join (sortStrings stored) (js ",") == join (sortStrings names) (js ",")
      | none => false
    let state := w.renewal
    if isEscalated env storedAt then
      setCtx fun ctx => { ctx with degraded := some (degradedReason env names state) }
    match truthy (Obj.get w.roles (js "certIssuer")) with
    | none => return none
    | some certIssuerId =>
      if renewalDue env storedAt namesMatch state then
        let zone := (w.ctx.desiredState.bind (·.framework)).bind (·.domain)
        let answer := env.certEnsure certIssuerId names zone
        Act.modify fun w => { w with renewal := renewalAfter env state answer }
        return none
      else return none

end Wanfw.Orchestrator
