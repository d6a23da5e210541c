import Wanfw.Orchestrator.ValidatePlan

/-!
# The deploy-docker plugin

`plugins/deploy-docker/src/plan.ts`: from the deploy section of a service
document to a container plan. A named volume gets the service's namespace, every
other field is passed on.
-/

namespace Wanfw.Plugins.DeployDocker

open Wanfw.Js Wanfw.Orchestrator

/-- A mount of the deploy section: a volume by a short name, or a bind. -/
inductive DeployMount where
  | volume (name target : JsString) (readOnly : Option Bool)
  | bind (source target : JsString) (readOnly : Option Bool)

/-- `DeployDockerConfig`. -/
structure DeployDockerConfig where
  image : JsString
  cmd : Option (List JsString) := none
  entrypoint : Option (List JsString) := none
  env : Option (Obj JsString) := none
  mounts : Option (List DeployMount) := none
  devices : Option (List JsString) := none
  networkMode : Option JsString := none
  ports : Option (List Decimal) := none
  capAdd : Option (List JsString) := none
  privileged : Option Bool := none
  securityOpt : Option (List JsString) := none
  user : Option JsString := none
  readOnly : Option Bool := none
  resources : Option Resources := none
  labels : Option (Obj JsString) := none
  restart : Option JsString := none

/-- `namespacedVolumeName`. -/
def namespacedVolumeName (serviceId name : JsString) : JsString := js "wanfw_" ++ serviceId ++ js "_" ++ name

/-- A mount of the plan. -/
def planMount (serviceId : JsString) : DeployMount → MountSpec
  | .volume name target readOnly => ⟨.volume, namespacedVolumeName serviceId name, target, readOnly⟩
  | .bind source target readOnly => ⟨.bind, source, target, readOnly⟩

/-- A string field, left out when it is empty. -/
def nonEmpty (s : Option JsString) : Option JsString := s.filter fun t => !t.isEmpty

/-- `planTask`. -/
def planTask (serviceId : JsString) (deploy : DeployDockerConfig) : ContainerSpec where
  image := deploy.image
  cmd := deploy.cmd
  entrypoint := deploy.entrypoint
  env := deploy.env
  mounts :=
    match (deploy.mounts.getD []).map (planMount serviceId) with
    | [] => none
    | mounts => some mounts
  devices := deploy.devices
  networkMode := nonEmpty deploy.networkMode
  ports := deploy.ports
  capAdd := deploy.capAdd
  privileged := deploy.privileged
  securityOpt := deploy.securityOpt
  user := nonEmpty deploy.user
  readOnly := deploy.readOnly
  resources := deploy.resources
  labels := deploy.labels
  restart := nonEmpty deploy.restart

theorem planTask_mountList (serviceId : JsString) (deploy : DeployDockerConfig) :
    (planTask serviceId deploy).mountList = (deploy.mounts.getD []).map (planMount serviceId) := by
  unfold planTask ContainerSpec.mountList
  cases deploy.mounts.getD [] <;> rfl

/-- Every volume that deploy-docker plans passes the prefix test of its own service. -/
theorem checkMount_planMount_volume (serviceId name target : JsString) (readOnly : Option Bool) (grants : List Grant) :
    checkMount serviceId grants (planMount serviceId (.volume name target readOnly)) = .ok [] := by
  have h : startsWith (namespacedVolumeName serviceId name) (volumeStem serviceId) = true :=
    startsWith_iff.mpr ⟨js "_" ++ name, by simp [namespacedVolumeName, volumeStem]⟩
  simp [checkMount, planMount, h]

end Wanfw.Plugins.DeployDocker
