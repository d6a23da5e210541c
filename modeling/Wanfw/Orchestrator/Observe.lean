import Wanfw.Orchestrator.Docker
import Wanfw.Orchestrator.Plan

/-!
# OBSERVE

`reconciler/observe-stage.ts`, the last stage: managed containers, networks and
volumes of services that are no longer desired are removed (volumes only when they
carry `wanfw.removeVolumesOnDelete=true`), and every desired service gets a status
document. `issues_observeBody`: it removes, and never creates or starts anything.
-/

namespace Wanfw.Orchestrator

open Wanfw.Js

/-- `ServicePhase`, as far as OBSERVE assigns it. -/
inductive ServicePhase where
  | error
  | pendingApproval
  | live
  | reconciling
  deriving DecidableEq

/-- The text of a phase. -/
def ServicePhase.text : ServicePhase → JsString
  | .error => js "error"
  | .pendingApproval => js "pending-approval"
  | .live => js "live"
  | .reconciling => js "reconciling"

/-- `computeServicePhase`. -/
def computeServicePhase (serviceId : JsString) (gate : Option GatedService) (containerRunning : Bool)
    (lastError : Option StageError) : ServicePhase :=
  if (lastError.bind (·.plugin)) = some serviceId then .error
  else if (gate.map (·.approved)) = some false then .pendingApproval
  else if containerRunning then .live
  else .reconciling

/-- `wanfw.service` of an object, unless it is empty. -/
def serviceLabel (labels : Obj JsString) : Option JsString := truthy (Obj.get labels (js "wanfw.service"))

/-- The object belongs to a service that is not desired. -/
def isOrphan (ds : DesiredState) (labels : Obj JsString) : Bool :=
  match serviceLabel labels with
  | some id => !(ds.services.any fun s => s.id == id)
  | none => false

/-- `renewalErrorFor`. -/
def renewalErrorFor (hostname : Option JsString) (degradedReason : Option StageError)
    (certNames : Option (List JsString)) : Option StageError :=
  match truthy hostname, degradedReason with
  | some host, some reason =>
    if reason.stage ≠ js "renewal" then none
    else
      match certNames with
      | some names => if host ∈ names then some reason else none
      | none => some reason
  | _, _ => none

/-- A stage error as a JSON value. -/
def StageError.toJson (e : StageError) : Json :=
  .obj ([(js "stage", Json.str e.stage)] ++ (e.plugin.map fun p => (js "plugin", Json.str p)).toList ++
    [(js "message", .str e.message)])

section Observe

variable (env : Env)

/-- `projectCertNotAfter`. -/
def projectCertNotAfter (hostname : Option JsString) : Json :=
  match truthy hostname, env.certMeta with
  | some host, some (storedAt, names) =>
    if host ∈ names then
      match env.parseDate storedAt with
      | some t => .str (env.toISOString (t + certLifetimeMs))
      | none => .null
    else .null
  | _, _ => .null

/-- The status document of a service. -/
def statusDoc (ctx : Ctx) (containers : List Container) (service : Service) : Json :=
  let gate := ctx.gateSnapshot.bind fun g => Obj.get g service.id
  let container := containers.find? fun c => Obj.get c.labels (js "wanfw.service") == some service.id
  let hostname := service.expose.map (·.hostname)
  let certNames := (ctx.planGraph.map (·.certNames)).or (env.certMeta.map (·.2))
  let lastError := renewalErrorFor hostname ctx.degraded certNames
  let phase := computeServicePhase service.id gate (container.map (·.state) == some (js "running")) lastError
  .obj ([(js "serviceId", Json.str service.id), (js "phase", .str phase.text),
      (js "endpoints", .arr ((truthy hostname).map Json.str).toList),
      (js "certNotAfter", projectCertNotAfter env hostname)] ++
    (lastError.map fun e => (js "lastError", e.toJson)).toList ++
    (service.needsPersist.map fun v => (js "needsPersist", Json.obj [(js "toVersion", .num v)])).toList)

/-- The journal payload of a removed object. -/
def gcJournal (planId kind name : JsString) (removed : Obj Json) : M Unit :=
  journal planId (js "gc:" ++ kind ++ js ":" ++ name) (.obj [(js "name", .str name)]) (.obj removed)

/-- Remove the containers of services that are not desired. -/
def collectContainers (ds : DesiredState) (planId : JsString) : M Unit := do
  let containers ← query env fun d => d.containers.filter fun c => isManaged c.labels
  Act.forEach (containers.filter fun c => isOrphan ds c.labels) fun c => do
    issue env .observe (.removeContainer c.id) fun d => d.removeContainer c.id
    gcJournal planId (js "container") c.name [(js "removed", .bool true)]

/-- Remove the networks of services that are not desired. -/
def collectNetworks (ds : DesiredState) (planId : JsString) : M Unit := do
  let networks ← query env fun d => d.networks.filter fun n => isManaged n.labels
  Act.forEach (networks.filter fun n => isOrphan ds n.labels) fun n => do
    issue env .observe (.removeNetwork n.id) fun d => d.removeNetwork n.id
    gcJournal planId (js "network") n.name [(js "removed", .bool true)]

/-- Remove the volumes of services that are not desired, where their label asks for it. -/
def collectVolumes (ds : DesiredState) (planId : JsString) : M Unit := do
  let volumes ← query env fun d => d.volumes.filter fun v => isManaged v.labels
  Act.forEach (volumes.filter fun v => isOrphan ds v.labels) fun v => do
    if Obj.get v.labels (js "wanfw.removeVolumesOnDelete") = some (js "true") then
      issue env .observe (.removeVolume v.name) fun d => d.removeVolume v.name
      gcJournal planId (js "volume") v.name [(js "removed", .bool true)]
    else
      gcJournal planId (js "volume") v.name
        [(js "removed", .bool false), (js "reason", .str (js "removeVolumesOnDelete not set, data kept"))]

/-- Write the status document of a service. -/
def writeStatus (serviceId : JsString) (doc : Json) : M Unit :=
  match env.writeFault (js "services/" ++ serviceId ++ js ".json") with
  | some message => Act.throw (.error message)
  | none => Act.modify fun w => { w with status := Obj.setOwn w.status serviceId doc }

/-- OBSERVE for a desired state. -/
def observeBody (ds : DesiredState) (ctx : Ctx) : M Unit := do
  let planId := ctx.executedPlanId.getD (js "observe")
  collectContainers env ds planId
  collectNetworks env ds planId
  collectVolumes env ds planId
  let remaining ← query env fun d => d.containers.filter fun c => isManaged c.labels
  Act.forEach ds.services fun service => writeStatus env service.id (statusDoc env ctx remaining service)
  Act.modify fun w => { w with status := w.status.filter fun e => ds.services.any fun s => s.id == e.1 }

/-- `buildObserveStage`. -/
def observeStage : M StageResult := do
  let w ← Act.get
  match w.ctx.desiredState with
  | none => return none
  | some ds =>
    match ds.framework with
    | none => return none
    | some _ =>
      observeBody env ds w.ctx
      return none

end Observe

/-- A removal by OBSERVE. -/
def IsCollection (a : Attempt) : Prop :=
  a.stage = .observe ∧
    match a.call with
    | .removeContainer _ | .removeNetwork _ | .removeVolume _ => True
    | _ => False

section Issues

variable {env : Env} {ds : DesiredState} {planId : JsString}

theorem issues_collectContainers : Issues IsCollection (collectContainers env ds planId) :=
  (Issues.query _).bind fun _ => Issues.forEach fun _ _ =>
    (Issues.issue fun _ => ⟨rfl, trivial⟩).bind fun _ => Issues.journal _ _ _ _

theorem issues_collectNetworks : Issues IsCollection (collectNetworks env ds planId) :=
  (Issues.query _).bind fun _ => Issues.forEach fun _ _ =>
    (Issues.issue fun _ => ⟨rfl, trivial⟩).bind fun _ => Issues.journal _ _ _ _

theorem issues_collectVolumes : Issues IsCollection (collectVolumes env ds planId) := by
  refine (Issues.query _).bind fun _ => Issues.forEach fun _ _ => ?_
  split
  · exact (Issues.issue fun _ => ⟨rfl, trivial⟩).bind fun _ => Issues.journal _ _ _ _
  · exact Issues.journal _ _ _ _

theorem issues_writeStatus (serviceId : JsString) (doc : Json) : Issues IsCollection (writeStatus env serviceId doc) := by
  unfold writeStatus
  split
  · exact Issues.throw _
  · exact Issues.modify (fun _ => rfl) fun _ => rfl

/-- **OBSERVE only removes.** -/
theorem issues_observeBody (ds : DesiredState) (ctx : Ctx) : Issues IsCollection (observeBody env ds ctx) := by
  refine issues_collectContainers.bind fun _ => issues_collectNetworks.bind fun _ => issues_collectVolumes.bind fun _ => ?_
  exact (Issues.query _).bind fun remaining => (Issues.forEach fun service _ => issues_writeStatus _ _).bind fun _ =>
    Issues.modify (fun _ => rfl) fun _ => rfl

end Issues

end Wanfw.Orchestrator
