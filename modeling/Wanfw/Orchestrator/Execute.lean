import Wanfw.Orchestrator.Ensure

/-!
# EXECUTE

`reconciler/execute-stage.ts` with `execute/proxy-container.ts` and
`execute/proxy.ts`. For each service plan that is not parked at the gate: its
network, its volumes, its container, the connections; then, for a network plan, the
exposure network and the proxy container on all the service networks; then the
rendered proxy configuration. Every step is journaled, the first failure ends the
stage.

`issues_executeService` and `issues_executeProxy` say which Docker calls the two
parts issue.
-/

namespace Wanfw.Orchestrator

open Wanfw.Js

/-! ### Services -/

/-- `namedVolumes`. -/
def namedVolumes (serviceId : JsString) (spec : ContainerSpec) : List MountSpec :=
  spec.mountList.filter fun m => m.type = .volume ∧ startsWith m.source (js "wanfw_" ++ serviceId)

/-- `specWithPrimaryNetwork`: the service's own network if the plan names none. -/
def withPrimaryNetwork (serviceId : JsString) (spec : ContainerSpec) : ContainerSpec :=
  { spec with networks := some (match spec.networks.getD [] with
      | [] => [serviceNetworkName serviceId]
      | networks => networks) }

/-- `wanfw_<serviceId>`, the name of a service's container. -/
def containerName (serviceId : JsString) : JsString := js "wanfw_" ++ serviceId

/-- `expose.removeVolumesOnDelete` of a service. -/
def removeVolumesOnDelete (ds : DesiredState) (serviceId : JsString) : Bool :=
  (((ds.service serviceId).bind (·.expose)).bind (·.removeVolumesOnDelete)).getD false

/-- `{ serviceId }`. -/
def servicePayload (serviceId : JsString) (more : Obj Json) : Json := .obj ((js "serviceId", .str serviceId) :: more)

section Execute

variable (env : Env)

/-- The steps for one service. -/
def executeService (ds : DesiredState) (serviceId : JsString) (spec : ContainerSpec) : M Unit := do
  let net ← ensureNetwork env (serviceNetworkName serviceId) env.planId (.service serviceId) none
  journal env.planId net.step (servicePayload serviceId []) net.toJson
  Act.forEach (namedVolumes serviceId spec) fun vol => do
    let r ← ensureVolume env vol.source env.planId serviceId (removeVolumesOnDelete ds serviceId)
    journal env.planId r.step (servicePayload serviceId [(js "volume", .str vol.source)]) r.toJson
  let full := withPrimaryNetwork serviceId spec
  let r ← ensureContainer env (containerName serviceId) full env.planId (.service serviceId)
  journal env.planId r.step (servicePayload serviceId []) r.toJson
  Act.forEach (full.networks.getD []) fun networkName => do
    let r ← connect env (containerName serviceId) networkName
    journal env.planId r.step (servicePayload serviceId [(js "networkName", .str networkName)]) r.toJson

/-- A step that failed: journaled, and the error of the stage. -/
def failStep (step plugin : JsString) (payload : Json) (e : JsError) : M StageResult := do
  journal env.planId step payload (.obj [(js "error", .str e.message)])
  return some ⟨js "execute", some plugin, e.message⟩

/-- A service that the gate did not approve. -/
def isParked (gateSnapshot : Option (Obj GatedService)) (serviceId : JsString) : Bool :=
  match gateSnapshot.bind fun g => Obj.get g serviceId with
  | some gate => !gate.approved
  | none => false

/-- The body of EXECUTE's loop. -/
def executeEntry (ds : DesiredState) (gateSnapshot : Option (Obj GatedService)) (e : JsString × ContainerSpec) :
    M (Option StageError) := do
  if isParked gateSnapshot e.1 then
    journal env.planId (js "skip:" ++ e.1) (.obj [])
      (StepResult.toJson ⟨js "skip", false, js "parked pending approval"⟩)
    return none
  else
    Act.tryCatch (do
        executeService env ds e.1 e.2
        return none)
      (failStep env (js "error:" ++ e.1) e.1 (servicePayload e.1 []))

/-! ### The proxy -/

/-- `PROXY_CONTAINER_NAME`. -/
def proxyContainerName : JsString := js "wanfw-proxy"

/-- `PROXY_IMAGE`. -/
def proxyImage : JsString := js "caddy@sha256:af5fdcd76f2db5e4e974ee92f96ee8c0fc3edb55bd4ba5032547cbf3f65e486d"

/-- `buildProxyContainerSpec`. -/
def buildProxyContainerSpec (exposureNetwork : JsString) (serviceNetworks : List JsString) (hostPorts : List Decimal)
    (certsVolumeName proxycfgVolumeName : JsString) : ContainerSpec where
  image := proxyImage
  mounts := some [⟨.volume, certsVolumeName, js "/data/certs", some true⟩,
    ⟨.volume, proxycfgVolumeName, js "/etc/caddy", some true⟩]
  ports := some hostPorts
  networks := some (exposureNetwork :: serviceNetworks)
  restart := some (js "unless-stopped")

/-- The exposure network of a plan: `attachment?.network`, unless it is empty. -/
def NetworkPlan.exposureNetwork (plan : NetworkPlan) : Option JsString := plan.network.filter fun n => !n.isEmpty

/-- The host ports of a plan. -/
def NetworkPlan.hostPorts (plan : NetworkPlan) : List Decimal :=
  match plan.endpoint with
  | some endpoint => if endpoint.kind = some (js "host-ports") then endpoint.hostPorts.getD [] else []
  | none => []

/-- `exposureNetworkDriverOptions`: the resource of the plan with the network's name. -/
def exposureNetworkDriverOptions (plan : NetworkPlan) (exposureNetwork : JsString) : Option NetworkDriverOptions :=
  ((plan.resources.getD []).find? fun r => r.name == exposureNetwork).map fun r =>
    ⟨r.driver, r.parent, r.ipamSubnet, r.ipamGateway⟩

/-- The plan of the proxy container for a network plan. -/
def proxySpec (plan : NetworkPlan) (exposureNetwork : JsString) (serviceIds : List JsString) : ContainerSpec :=
  buildProxyContainerSpec exposureNetwork (serviceIds.map serviceNetworkName) plan.hostPorts env.certsVolumeName
    env.proxycfgVolumeName

/-- The exposure network and the proxy container. -/
def executeProxy (plan : NetworkPlan) (exposureNetwork : JsString) (serviceIds : List JsString) : M Unit := do
  let net ← ensureNetwork env exposureNetwork env.planId .core (exposureNetworkDriverOptions plan exposureNetwork)
  journal env.planId net.step (.obj []) net.toJson
  let spec := proxySpec env plan exposureNetwork serviceIds
  let r ← ensureContainer env proxyContainerName spec env.planId .core
  journal env.planId r.step (.obj []) r.toJson
  Act.forEach (spec.networks.getD []) fun networkName => do
    let r ← connect env proxyContainerName networkName
    journal env.planId r.step (.obj [(js "networkName", .str networkName)]) r.toJson

/-- The part of EXECUTE for the network plan. -/
def executeNetworkPlan (graph : PlanGraph) : M StageResult :=
  match graph.networkPlan with
  | none => return none
  | some plan =>
    match plan.exposureNetwork with
    | none => return none
    | some exposureNetwork =>
      Act.tryCatch (do
          executeProxy env plan exposureNetwork (Obj.keys graph.servicePlans)
          return none)
        (failStep env (js "error:proxy-container") (js "proxy") (.obj []))

/-- `writeProxyConfigAndReload`: the output of the reload. -/
def writeProxyConfigAndReload (filename content : JsString) (reloadCmd : List JsString) : M JsString := do
  match env.writeFault filename with
  | some message => Act.throw (.error message)
  | none =>
    Act.modify fun w => { w with proxycfg := w.proxycfg ++ [(filename, content)] }
    let (exitCode, output) ← dockerExec env .execute proxyContainerName reloadCmd
    if exitCode ≠ 0 then
      Act.throw (.error (js "proxy reload failed (exit " ++ (if exitCode < 0 then js "-" else []) ++
        natToString exitCode.natAbs ++ js "): " ++ output))
    else return output

/-- The part of EXECUTE for the rendered proxy configuration. -/
def executeProxyRender (graph : PlanGraph) : M StageResult :=
  match graph.proxyRender with
  | none => return none
  | some rendered =>
    match rendered.filename.filter (!·.isEmpty), rendered.content.filter (!·.isEmpty), rendered.reloadCmd with
    | some filename, some content, some reloadCmd =>
      let payload := Json.obj [(js "filename", .str filename)]
      Act.tryCatch (do
          let output ← writeProxyConfigAndReload env filename content reloadCmd
          journal env.planId (js "proxy.reload") payload (StepResult.toJson ⟨js "proxy.reload", true, output⟩)
          return none)
        (failStep env (js "proxy.reload") (js "proxy") payload)
    | _, _, _ => return none

/-! ### The stage -/

/-- EXECUTE for a graph and a snapshot. -/
def executeGraph (ds : DesiredState) (graph : PlanGraph) (gateSnapshot : Option (Obj GatedService)) : M StageResult := do
  match ← Act.forReturn graph.servicePlans (executeEntry env ds gateSnapshot) with
  | some e => return some e
  | none =>
    match ← executeNetworkPlan env graph with
    | some e => return some e
    | none => executeProxyRender env graph

/-- `buildExecuteStage`. -/
def executeStage : M StageResult := do
  let w ← Act.get
  match w.ctx.desiredState, w.ctx.planGraph with
  | some ds, some graph =>
    match ds.framework with
    | none => return none
    | some _ =>
      match ← executeGraph env ds graph w.ctx.gateSnapshot with
      | some e => return some e
      | none =>
        setCtx fun ctx => { ctx with executedPlanId := some env.planId }
        return none
  | _, _ => return none

end Execute

/-! ### Which calls it issues -/

section Issues

variable {env : Env} {P : Attempt → Prop}

theorem Issues.forReturn {α β : Type} {xs : List α} {body : α → M (Option β)} (h : ∀ x ∈ xs, Issues P (body x)) :
    Issues P (Act.forReturn xs body) := by
  intro log ctx
  refine (Act.Triple.forReturn (R := fun _ => IssuedSince P log ctx) fun x hx => (h x hx log ctx).conseq (fun _ h => h)
    (fun r _ h => ?_) fun _ _ h => h).conseq (fun _ h => h) (fun r _ h => ?_) fun _ _ h => h
  · cases r <;> exact h
  · cases r <;> exact h

theorem Issues.failStep (step plugin : JsString) (payload : Json) (e : JsError) :
    Issues P (failStep env step plugin payload e) :=
  (Issues.journal _ _ _ _).bind fun _ => Issues.pure _

/-- The calls of EXECUTE for one service plan. -/
structure ForService (env : Env) (serviceId : JsString) (spec : ContainerSpec) (a : Attempt) : Prop where
  stage : a.stage = .execute
  call :
    match a.call with
    | .createNetwork name labels options => name = serviceNetworkName serviceId ∧
        labels = networkLabels env name env.planId (.service serviceId) ∧ options = none
    | .createVolume name _ => ∃ m ∈ namedVolumes serviceId spec, m.source = name
    | .createContainer o =>
        o = createOptions env (containerName serviceId) (withPrimaryNetwork serviceId spec) env.planId (.service serviceId)
    | .startContainer id => a.Names id (containerName serviceId)
    | .removeContainer id => a.Names id (containerName serviceId)
    | .connectNetwork id network => a.Names id (containerName serviceId) ∧
        network ∈ (withPrimaryNetwork serviceId spec).networks.getD []
    | _ => False

theorem forService_of_forContainer {serviceId : JsString} {spec : ContainerSpec} {a : Attempt}
    (h : ForContainer (containerName serviceId) (createOptions env (containerName serviceId)
      (withPrimaryNetwork serviceId spec) env.planId (.service serviceId)) a) : ForService env serviceId spec a := by
  obtain ⟨hs, h⟩ := h
  refine ⟨hs, ?_⟩
  revert h
  cases a.call <;> intro h <;> first | exact h | exact h.elim

/-- **The steps for a service touch its own objects alone.** -/
theorem issues_executeService (ds : DesiredState) (serviceId : JsString) (spec : ContainerSpec) :
    Issues (ForService env serviceId spec) (executeService env ds serviceId spec) := by
  refine (issues_ensureNetwork fun d => ⟨rfl, rfl, rfl, rfl⟩).bind fun net => ?_
  refine (Issues.journal _ _ _ _).bind fun _ => ?_
  refine (Issues.forEach fun vol hvol => ?_).bind fun _ => ?_
  · exact (issues_ensureVolume fun d labels => ⟨rfl, vol, hvol, rfl⟩).bind fun r => Issues.journal _ _ _ _
  refine (issues_ensureContainer fun a h => forService_of_forContainer h).bind fun r => ?_
  refine (Issues.journal _ _ _ _).bind fun _ => ?_
  refine Issues.forEach fun networkName hmem => ?_
  refine (issues_connect fun a id hs hc hn => ⟨hs, ?_⟩).bind fun r => Issues.journal _ _ _ _
  rw [hc]
  exact ⟨hn, hmem⟩

/-- The calls of EXECUTE for a network plan. -/
structure ForProxy (env : Env) (plan : NetworkPlan) (exposureNetwork : JsString) (serviceIds : List JsString)
    (a : Attempt) : Prop where
  stage : a.stage = .execute
  call :
    match a.call with
    | .createNetwork name labels options => name = exposureNetwork ∧
        labels = networkLabels env name env.planId .core ∧ options = exposureNetworkDriverOptions plan exposureNetwork
    | .createContainer o =>
        o = createOptions env proxyContainerName (proxySpec env plan exposureNetwork serviceIds) env.planId .core
    | .startContainer id => a.Names id proxyContainerName
    | .removeContainer id => a.Names id proxyContainerName
    | .connectNetwork id _ => a.Names id proxyContainerName
    | _ => False

/-- The steps for a network plan touch the exposure network and the proxy container alone. -/
theorem issues_executeProxy (plan : NetworkPlan) (exposureNetwork : JsString) (serviceIds : List JsString) :
    Issues (ForProxy env plan exposureNetwork serviceIds) (executeProxy env plan exposureNetwork serviceIds) := by
  refine (issues_ensureNetwork fun d => ⟨rfl, rfl, rfl, rfl⟩).bind fun net => ?_
  refine (Issues.journal _ _ _ _).bind fun _ => ?_
  refine (issues_ensureContainer fun a h => ?_).bind fun r => ?_
  · obtain ⟨hs, h⟩ := h
    refine ⟨hs, ?_⟩
    revert h
    cases a.call <;> intro h <;> first | exact h | exact h.elim
  refine (Issues.journal _ _ _ _).bind fun _ => ?_
  refine Issues.forEach fun networkName hmem => ?_
  refine (issues_connect fun a id hs hc hn => ⟨hs, ?_⟩).bind fun r => Issues.journal _ _ _ _
  rw [hc]
  exact hn

/-- The reload of the proxy. -/
def IsProxyExec (a : Attempt) : Prop := a.stage = .execute ∧ ∃ cmd, a.call = .exec proxyContainerName cmd

theorem issues_executeProxyRender (graph : PlanGraph) : Issues IsProxyExec (executeProxyRender env graph) := by
  unfold executeProxyRender
  split
  · exact Issues.pure _
  · split
    · refine Issues.tryCatch ((Issues.bind ?_ fun output => (Issues.journal _ _ _ _).bind fun _ => Issues.pure _))
        fun e => Issues.failStep _ _ _ _
      unfold writeProxyConfigAndReload
      split
      · exact Issues.throw _
      · refine Issues.bind (Issues.modify (fun _ => rfl) fun _ => rfl) fun _ => Issues.bind (Issues.dockerExec ?_) fun r => ?_
        · exact fun d => ⟨rfl, _, rfl⟩
        obtain ⟨exitCode, output⟩ := r
        dsimp only
        split
        · exact Issues.throw _
        · exact Issues.pure _
    · exact Issues.pure _

/-- The calls of EXECUTE for a graph: those for the services that are not parked, those for the
network plan, and the reload of the proxy. -/
def ForGraph (env : Env) (graph : PlanGraph) (gateSnapshot : Option (Obj GatedService)) (a : Attempt) : Prop :=
  (∃ serviceId spec, (serviceId, spec) ∈ graph.servicePlans ∧ isParked gateSnapshot serviceId = false ∧
    ForService env serviceId spec a) ∨
  (∃ plan exposureNetwork, graph.networkPlan = some plan ∧ plan.exposureNetwork = some exposureNetwork ∧
    ForProxy env plan exposureNetwork (Obj.keys graph.servicePlans) a) ∨
  IsProxyExec a

/-- **Which Docker calls EXECUTE issues.** -/
theorem issues_executeGraph (ds : DesiredState) (graph : PlanGraph) (gateSnapshot : Option (Obj GatedService)) :
    Issues (ForGraph env graph gateSnapshot) (executeGraph env ds graph gateSnapshot) := by
  refine (Issues.forReturn fun e he => ?_).bind fun r => ?_
  · unfold executeEntry
    split
    · exact (Issues.journal _ _ _ _).bind fun _ => Issues.pure _
    · rename_i hpark
      refine Issues.tryCatch (Issues.bind ?_ fun _ => Issues.pure _) fun err => Issues.failStep _ _ _ _
      exact (issues_executeService ds e.1 e.2).mono fun a ha => .inl ⟨e.1, e.2, he, by simpa using hpark, ha⟩
  · cases r with
    | some err => exact Issues.pure _
    | none =>
      refine Issues.bind ?_ fun r => ?_
      · unfold executeNetworkPlan
        split
        · exact Issues.pure _
        · rename_i plan hplan
          split
          · exact Issues.pure _
          · rename_i exposureNetwork hexp
            refine Issues.tryCatch (Issues.bind ?_ fun _ => Issues.pure _) fun err => Issues.failStep _ _ _ _
            exact (issues_executeProxy plan exposureNetwork _).mono fun a ha =>
              .inr (.inl ⟨plan, exposureNetwork, hplan, hexp, ha⟩)
      · cases r with
        | some err => exact Issues.pure _
        | none => exact (issues_executeProxyRender graph).mono fun a ha => .inr (.inr ha)

end Issues

end Wanfw.Orchestrator
