import Wanfw.Orchestrator.ValidatePlan

/-!
# The state of the orchestrator

The data a reconcile run works on: the desired state, the plan graph, the stored
grants and approvals, the Docker daemon, and the mutable context the stages of a
run share (`reconciler/types.ts`).

A document that the loader accepts has the fields its schema requires; the records
below hold the fields that the stages read. What lies outside of this program is
in `Env`: the outcome of loading the documents, what the plugins answer, the
contents of the state store as a stage sees them, when a Docker call fails.

`Docker` carries its invariant: the daemon gives every container and every network its
own id, and has one volume of a name.
-/

namespace Wanfw.Orchestrator

open Wanfw.Js Wanfw.Schemas

/-- An id or a text that is present and not empty. -/
def truthy (s : Option JsString) : Option JsString := s.filter fun t => !t.isEmpty

/-! ### Desired state -/

/-- `spec.expose` of a service document. -/
structure Expose where
  hostname : JsString
  backendPort : Decimal
  backendProtocol : JsString
  removeVolumesOnDelete : Option Bool

/-- A service document. -/
structure Service where
  id : JsString
  /-- `spec.deploy?.plugin`. -/
  deployPlugin : Option JsString
  expose : Option Expose
  /-- `spec`, as it is handed to the deploy plugin. -/
  spec : Json
  /-- `needsPersist?.toVersion`. -/
  needsPersist : Option Decimal

/-- `spec.network.macvlan` of the framework document. -/
structure Macvlan where
  parent : Option JsString
  reservedCidr : Option JsString
  gateway : Option JsString

/-- The framework document. -/
structure Framework where
  domain : Option JsString
  roles : Obj JsString
  strictApprovals : Option JsString
  macvlan : Option Macvlan

/-- `DesiredState`. The services are a map, so their ids differ. -/
structure DesiredState where
  framework : Option Framework
  services : List Service
  errors : List JsString
  nodup : (services.map (·.id)).Nodup

/-- `desiredState.services.get(id)`. -/
def DesiredState.service (d : DesiredState) (id : JsString) : Option Service := d.services.find? fun s => s.id == id

/-! ### Plans -/

/-- A network resource of a network plan. -/
structure NetworkResource where
  name : JsString
  driver : Option JsString := none
  parent : Option JsString := none
  ipamSubnet : Option JsString := none
  ipamGateway : Option JsString := none
  deriving DecidableEq

/-- `endpoint` of a network plan. -/
structure Endpoint where
  kind : Option JsString
  /-- The host ports of `ports`. -/
  hostPorts : Option (List Decimal)

/-- `NetworkPlanLike`: what EXECUTE reads of a network plan. -/
structure NetworkPlan where
  /-- `attachment?.network`. -/
  network : Option JsString
  endpoint : Option Endpoint
  resources : Option (List NetworkResource)

/-- What EXECUTE reads of the answer to `proxy.render`. -/
structure ProxyRender where
  filename : Option JsString
  content : Option JsString
  reloadCmd : Option (List JsString)

/-- `PlanRouteEntry`. -/
structure RouteEntry where
  serviceId : JsString
  hostname : JsString
  backendPort : Decimal
  backendProtocol : JsString

/-- `PlanGraph`; of the certificate requirements, the names. The service plans are an object
filled by assignments. -/
structure PlanGraph where
  networkPlan : Option NetworkPlan
  servicePlans : Obj ContainerSpec
  routes : List RouteEntry
  proxyRender : Option ProxyRender
  certNames : List JsString
  plans_nodup : (Obj.keys servicePlans).Nodup
  plans_plain : js "__proto__" ∉ Obj.keys servicePlans

/-! ### Stages -/

/-- The stages, in the order in which `main.ts` wires them. -/
inductive Stage where
  | load
  | resolve
  | plan
  | renewal
  | validate
  | gate
  | execute
  | observe
  deriving DecidableEq

/-- The name of a stage. -/
def Stage.name : Stage → JsString
  | .load => js "load"
  | .resolve => js "resolve"
  | .plan => js "plan"
  | .renewal => js "renewal"
  | .validate => js "validate"
  | .gate => js "gate"
  | .execute => js "execute"
  | .observe => js "observe"

/-- `StageError`. -/
structure StageError where
  stage : JsString
  plugin : Option JsString := none
  message : JsString
  deriving DecidableEq

/-- `StageResult`: `none` for `{ ok: true }`. -/
abbrev StageResult := Option StageError

/-- What VALIDATE records for a service. -/
structure Classification where
  tier : FieldTier
  projectionHash : Option JsString

/-- `GatedService`. -/
structure GatedService where
  serviceId : JsString
  tier : FieldTier
  projectionHash : JsString
  humanRendering : JsString
  approved : Bool
  banners : List JsString

/-- `ReconcileRunContext`: what the stages of one run leave for the later ones. -/
structure Ctx where
  desiredState : Option DesiredState := none
  planGraph : Option PlanGraph := none
  validation : Option (Obj Classification) := none
  gateSnapshot : Option (Obj GatedService) := none
  executedPlanId : Option JsString := none
  /-- `degradedReason`, set together with `degraded`. -/
  degraded : Option StageError := none

/-! ### Docker -/

/-- `NetworkDriverOptions`. -/
structure NetworkDriverOptions where
  driver : Option JsString
  parent : Option JsString
  subnet : Option JsString
  gateway : Option JsString
  deriving DecidableEq

/-- A network of the daemon. -/
structure Network where
  id : ℕ
  name : JsString
  labels : Obj JsString
  options : Option NetworkDriverOptions

/-- A volume of the daemon. -/
structure Volume where
  name : JsString
  labels : Obj JsString

/-- `CreateContainerOptions`. The limits `memory` and `cpus` are kept as the texts they are read from. -/
structure CreateContainerOptions where
  name : JsString
  image : JsString
  cmd : Option (List JsString)
  entrypoint : Option (List JsString)
  env : Option (Obj JsString)
  mounts : List MountSpec
  devices : Option (List JsString)
  networkMode : Option JsString
  ports : Option (List Decimal)
  capAdd : Option (List JsString)
  privileged : Option Bool
  securityOpt : Option (List JsString)
  user : Option JsString
  readOnlyRootfs : Option Bool
  memory : Option JsString
  cpus : Option JsString
  labels : Obj JsString
  restartPolicy : Option JsString
  primaryNetwork : Option JsString

/-- A container of the daemon. -/
structure Container where
  id : ℕ
  name : JsString
  labels : Obj JsString
  /-- `HostConfig.NetworkMode`. -/
  networkMode : Option JsString
  networks : List JsString
  state : JsString
  /-- The ports published on the host. -/
  ports : List Decimal

/-- The daemon's objects. Ids are handed out in turn, so that no two containers and no two networks
share one; the name of a volume is its id. -/
structure Docker where
  containers : List Container
  networks : List Network
  volumes : List Volume
  nextId : ℕ
  ids_nodup : (containers.map (·.id)).Nodup
  ids_lt : ∀ c ∈ containers, c.id < nextId
  networks_nodup : (networks.map (·.id)).Nodup
  networks_lt : ∀ n ∈ networks, n.id < nextId
  volumes_nodup : (volumes.map (·.name)).Nodup

/-- A call that changes the daemon's state. -/
inductive Call where
  | createNetwork (name : JsString) (labels : Obj JsString) (options : Option NetworkDriverOptions)
  | createVolume (name : JsString) (labels : Obj JsString)
  | createContainer (options : CreateContainerOptions)
  | removeContainer (id : ℕ)
  | startContainer (id : ℕ)
  | connectNetwork (containerId : ℕ) (network : JsString)
  | removeNetwork (id : ℕ)
  | removeVolume (name : JsString)
  | exec (container : JsString) (cmd : List JsString)

/-- A call, as it was issued: the state of the daemon before it. It may have failed. -/
structure Attempt where
  stage : Stage
  before : Docker
  call : Call

/-! ### The store -/

/-- A row of `grants`. `scope` is what `JSON.parse` reads in `scope_json`, `none` for a text
that it rejects. -/
structure GrantRow where
  pluginId : JsString
  cap : JsString
  scope : Option Json
  revoked : Bool

/-- A row of `approvals`, whose key is the projection hash. -/
structure ApprovalRow where
  projectionHash : JsString
  revoked : Bool

/-- The tables that VALIDATE and GATE read. -/
structure Store where
  grants : List GrantRow
  approvals : List ApprovalRow

/-- `store.listGrants(pluginId)`: the grants that are not revoked. -/
def Store.listGrants (store : Store) (pluginId : JsString) : List GrantRow :=
  store.grants.filter fun g => g.pluginId = pluginId ∧ g.revoked = false

/-- `store.isApproved(projectionHash)`. -/
def Store.isApproved (store : Store) (projectionHash : JsString) : Bool :=
  match store.approvals.find? fun a => a.projectionHash == projectionHash with
  | some row => !row.revoked
  | none => false

/-- A row of `journal`. -/
structure JournalRow where
  planId : JsString
  step : JsString
  payload : Json
  result : Json

/-- `RenewalState`. -/
structure RenewalState where
  lastAttemptAt : Option JsString := none
  lastSuccessAt : Option JsString := none
  consecutiveFailures : ℕ := 0
  /-- The message of `lastError`. -/
  lastError : Option JsString := none

/-! ### The world and its surroundings -/

/-- What a run changes. -/
structure World where
  docker : Docker
  /-- How many Docker calls were made. -/
  calls : ℕ
  /-- The changing calls that were issued. -/
  log : List Attempt
  journal : List JournalRow
  /-- The proxy configuration files written, by name. -/
  proxycfg : List (JsString × JsString)
  /-- The status documents, by service id. -/
  status : Obj Json
  /-- `gateSnapshotHolder`. -/
  gateHolder : Obj GatedService
  /-- `rolesHolder`. -/
  roles : Obj JsString
  /-- The range `macvlan` of `ipam_ranges`: CIDR and gateway. -/
  ipamRange : Option (JsString × JsString)
  renewal : RenewalState
  ctx : Ctx

/-- How a Docker call fails: with nothing done, or after it was done. -/
inductive Fault where
  | lost (message : JsString)
  | late (message : JsString)

/-- The answer of a plugin: its result, or the message of its error if it has one. -/
abbrev Answer (α : Type) := Except (Option JsString) α

/-- The input of `network.plan`. -/
structure NetworkRequest where
  ports : List Decimal
  parent : Option JsString
  reservedCidr : Option JsString
  gateway : Option JsString

/-- What a run depends on beside the world: files, plugins, the store, the clock. -/
structure Env where
  sha256 : List UInt8 → JsString
  localeCompare : JsString → JsString → ℤ
  /-- `loadDesiredState`: the documents, or an exception. -/
  load : Except JsError DesiredState
  /-- `resolveDependencies`: the first error, if there is one, or an exception. -/
  resolve : Except JsError (Option (JsString × JsString))
  networkPlan : JsString → NetworkRequest → Answer (Option NetworkPlan)
  /-- The answer of a deploy plugin to `deploy.plan`, for a service's spec and id. -/
  deployPlan : JsString → Json → JsString → Answer ContainerSpec
  proxyRender : JsString → List RouteEntry → Answer (Option ProxyRender)
  certEnsure : JsString → List JsString → Option JsString → Answer Unit
  /-- The store when VALIDATE runs. -/
  validateStore : Store
  /-- The store when GATE runs. -/
  gateStore : Store
  /-- The stored certificate: `storedAt` and its names. -/
  certMeta : Option (JsString × List JsString)
  now : ℤ
  toISOString : ℤ → JsString
  /-- `new Date(s).getTime()`, `none` for an invalid date. -/
  parseDate : JsString → Option ℤ
  planId : JsString
  certsVolumeName : JsString
  proxycfgVolumeName : JsString
  /-- Which Docker calls fail, by their number. -/
  fault : ℕ → Option Fault
  /-- Exit code and output of an `exec`, by the number of the call. -/
  execAnswer : ℕ → ℤ × JsString
  /-- Which file writes fail, by path. -/
  writeFault : JsString → Option JsString

/-- An action of the orchestrator. -/
abbrev M := Act World

/-- `loadGrantsForPlugin`. -/
def loadGrantsForPlugin (store : Store) (pluginId : JsString) : Except JsError (List Grant) :=
  (store.listGrants pluginId).mapM fun row =>
    match row.scope with
    | some scope => .ok ⟨row.cap, scope⟩
    | none => .error (.error (js "scope_json is not valid JSON"))

/-- Append a journal row. -/
def journal (planId step : JsString) (payload result : Json) : M Unit :=
  Act.modify fun w => { w with journal := w.journal ++ [⟨planId, step, payload, result⟩] }

/-- Change the context of the run. -/
def setCtx (f : Ctx → Ctx) : M Unit := Act.modify fun w => { w with ctx := f w.ctx }

/-! ### An empty host -/

/-- A daemon without objects. -/
def Docker.empty : Docker where
  containers := []
  networks := []
  volumes := []
  nextId := 0
  ids_nodup := List.nodup_nil
  ids_lt := by simp
  networks_nodup := List.nodup_nil
  networks_lt := by simp
  volumes_nodup := List.nodup_nil

theorem Docker.no_networks_lt : ∀ n ∈ Docker.empty.networks, n.id < 1 := by simp [Docker.empty]

/-- A world before any run. -/
def World.empty : World where
  docker := .empty
  calls := 0
  log := []
  journal := []
  proxycfg := []
  status := []
  gateHolder := []
  roles := []
  ipamRange := none
  renewal := {}
  ctx := {}

/-- No documents, no plugin that answers, empty tables, and nothing fails. -/
def Env.idle : Env where
  sha256 := fun _ => []
  localeCompare := fun _ _ => 0
  load := .ok ⟨none, [], [], List.nodup_nil⟩
  resolve := .ok none
  networkPlan := fun _ _ => .error none
  deployPlan := fun _ _ _ => .error none
  proxyRender := fun _ _ => .error none
  certEnsure := fun _ _ _ => .error none
  validateStore := ⟨[], []⟩
  gateStore := ⟨[], []⟩
  certMeta := none
  now := 0
  toISOString := fun _ => []
  parseDate := fun _ => none
  planId := js "plan-1"
  certsVolumeName := js "wanfw_wanfw_certs"
  proxycfgVolumeName := js "wanfw_wanfw_proxycfg"
  fault := fun _ => none
  execAnswer := fun _ => (0, [])
  writeFault := fun _ => none

end Wanfw.Orchestrator
