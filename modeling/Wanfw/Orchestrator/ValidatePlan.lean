import Wanfw.Js.Regex
import Wanfw.Schemas.Projection
import Wanfw.Orchestrator.ScopeMatcher

/-!
# Validating a container plan

`validate/container-spec.ts` and `validate/validate-plan.ts`: the plan a deploy
plugin returns for a service, and the check of every field of it against the
grants of that plugin. The check collects violations field by field; it accepts
a plan with none.

## What is proved

* `validateContainerSpec_eq`: what the result of a check holds, from the list of
  its violations.
* `Accepted`: what an accepted plan satisfies, one field of the structure for each
  branch of the check (`accepted_of_ok`).
-/

namespace Wanfw.Orchestrator

open Wanfw.Js Wanfw.Schemas

/-! ### Container plans -/

/-- The type of a mount. -/
inductive MountType where
  | volume
  | bind
  deriving DecidableEq

/-- `MountSpec`. -/
structure MountSpec where
  type : MountType
  source : JsString
  target : JsString
  readOnly : Option Bool
  deriving DecidableEq

/-- `resources` of a plan. -/
structure Resources where
  memory : Option JsString
  cpus : Option JsString
  deriving DecidableEq

/-- `ContainerSpec`: the Docker create surface a plan may use. -/
structure ContainerSpec where
  image : JsString
  cmd : Option (List JsString) := none
  entrypoint : Option (List JsString) := none
  env : Option (Obj JsString) := none
  mounts : Option (List MountSpec) := none
  devices : Option (List JsString) := none
  networks : Option (List JsString) := none
  networkMode : Option JsString := none
  ports : Option (List Decimal) := none
  capAdd : Option (List JsString) := none
  privileged : Option Bool := none
  securityOpt : Option (List JsString) := none
  user : Option JsString := none
  readOnly : Option Bool := none
  resources : Option Resources := none
  labels : Option (Obj JsString) := none
  restart : Option JsString := none
  deriving DecidableEq

/-- `spec.mounts ?? []`. -/
def ContainerSpec.mountList (spec : ContainerSpec) : List MountSpec := spec.mounts.getD []

/-- The bind mounts of a plan. -/
def ContainerSpec.binds (spec : ContainerSpec) : List BindMount :=
  (spec.mountList.filter fun m => m.type = .bind).map fun m => ⟨m.source, m.target, m.readOnly.getD false⟩

/-- `spec.networkMode === "host"`. -/
def ContainerSpec.isHost (spec : ContainerSpec) : Bool := spec.networkMode = some (js "host")

/-! ### Results -/

/-- `FieldTier`. -/
inductive FieldTier where
  | baseline
  | powerful
  deriving DecidableEq

/-- `FieldViolation`. -/
structure FieldViolation where
  field : JsString
  cap : JsString
  message : JsString
  deriving DecidableEq

/-- `Warning`. -/
structure Warning where
  field : JsString
  message : JsString
  deriving DecidableEq

/-- `ValidationResult`. -/
structure ValidationResult where
  ok : Bool
  tier : FieldTier
  violations : List FieldViolation
  warnings : List Warning
  projectionHash : Option JsString

/-! ### The checks -/

/-- `/(_TOKEN|_KEY|_SECRET|PASSWORD)$/i`. -/
def envKeySecretHeuristic : Re :=
  .seq (.alt (.litI (js "_TOKEN")) (.alt (.litI (js "_KEY")) (.alt (.litI (js "_SECRET")) (.litI (js "PASSWORD"))))) .eol

/-- A field that needs a grant: the violation, unless a grant of `cap` matches. -/
def requireGrant (grants : List Grant) (field cap : JsString) (p : Json → Except JsError Bool) (message : JsString) :
    Except JsError (List FieldViolation) := do
  if ← hasGrant grants cap p then return []
  return [⟨field, cap, message⟩]

/-- `image`. -/
def checkImage (spec : ContainerSpec) (grants : List Grant) : Except JsError (List FieldViolation) :=
  requireGrant grants (js "image") (js "docker.image.pull")
    (fun scope => do matchNamePrefix (← scopeField scope (js "repos")) spec.image)
    (js "image '" ++ spec.image ++ js "' not covered by any docker.image.pull grant")

/-- `wanfw_<serviceId>`, the prefix of a service's volumes. -/
def volumeStem (serviceId : JsString) : JsString := js "wanfw_" ++ serviceId

/-- One mount: a volume by its name, a bind by a grant. -/
def checkMount (serviceId : JsString) (grants : List Grant) (mount : MountSpec) : Except JsError (List FieldViolation) :=
  match mount.type with
  | .volume =>
    .ok (if startsWith mount.source (volumeStem serviceId) then []
      else [⟨js "mounts", js "docker.volume.named",
        js "named volume '" ++ mount.source ++ js "' is outside this service's namespace (expected prefix '" ++
          volumeStem serviceId ++ js "')"⟩])
  | .bind =>
    requireGrant grants (js "mounts") (js "docker.mount.bind")
      (fun scope => do matchAnyPathGlob (← scopeField scope (js "paths")) mount.source)
      (js "bind mount source '" ++ mount.source ++ js "' not covered by any docker.mount.bind grant")

/-- One device. -/
def checkDevice (grants : List Grant) (device : JsString) : Except JsError (List FieldViolation) :=
  if startsWith device (js "/dev/") then
    requireGrant grants (js "devices") (js "docker.device")
      (fun scope => do matchAnyPathGlob (← scopeField scope (js "paths")) device)
      (js "device '" ++ device ++ js "' not covered by any docker.device grant")
  else .ok [⟨js "devices", js "docker.device", js "device path '" ++ device ++ js "' must match /dev/*"⟩]

/-- `networkMode`: host networking needs a grant; no other value is looked at. -/
def checkNetworkMode (spec : ContainerSpec) (grants : List Grant) : Except JsError (List FieldViolation) :=
  if spec.isHost then
    requireGrant grants (js "networkMode") (js "docker.network.host") (fun _ => .ok true)
      (js "host networking requires a docker.network.host grant")
  else .ok []

/-- `privileged`. -/
def checkPrivileged (spec : ContainerSpec) (grants : List Grant) : Except JsError (List FieldViolation) :=
  if spec.privileged = some true then
    requireGrant grants (js "privileged") (js "docker.privileged") (fun _ => .ok true)
      (js "privileged=true requires a docker.privileged grant")
  else .ok []

/-- One added capability. -/
def checkCapability (grants : List Grant) (cap : JsString) : Except JsError (List FieldViolation) :=
  requireGrant grants (js "capAdd") (js "docker.capabilities")
    (fun scope => do includesE (js "(scope.caps ?? [])") (← scopeField scope (js "caps")) (.str cap) cap)
    (js "Linux capability '" ++ cap ++ js "' not covered by any docker.capabilities grant")

/-- `ports`. -/
def checkPorts (spec : ContainerSpec) (grants : List Grant) : Except JsError (List FieldViolation) :=
  match spec.ports.getD [] with
  | [] => .ok []
  | ports =>
    requireGrant grants (js "ports") (js "docker.ports.publish")
      (fun scope => do matchPortRange (← scopeField scope (js "ports")) ports)
      (js "published ports [" ++ join (ports.map numberToString) (js ",") ++
        js "] not covered by any docker.ports.publish grant")

/-- `wanfw_svc_<serviceId>`, the service's own network. -/
def serviceNetworkName (serviceId : JsString) : JsString := js "wanfw_svc_" ++ serviceId

/-- One network: the service's own, and no grant for another. -/
def checkNetwork (serviceId network : JsString) : Except JsError (List FieldViolation) :=
  .ok (if network = serviceNetworkName serviceId then []
    else [⟨js "networks", js "docker.network.attach",
      js "network '" ++ network ++ js "' is not this service's own network ('" ++ serviceNetworkName serviceId ++
        js "') or a plan-created network"⟩])

/-- The warning for an environment variable whose name looks like a secret's. -/
def envWarning (key : JsString) : List Warning :=
  if envKeySecretHeuristic.test key then
    [⟨js "env." ++ key, js "env var '" ++ key ++ js ("' looks like a secret; consider the secrets mechanism " ++
      "(secrets.get/put) instead of a plaintext env value")⟩]
  else []

/-- Every check, in the order of the source. -/
def violationsOf (serviceId : JsString) (spec : ContainerSpec) (grants : List Grant) :
    Except JsError (List FieldViolation) := do
  let image ← checkImage spec grants
  let mounts ← collectE (checkMount serviceId grants) spec.mountList
  let devices ← collectE (checkDevice grants) (spec.devices.getD [])
  let networkMode ← checkNetworkMode spec grants
  let privileged ← checkPrivileged spec grants
  let capAdd ← collectE (checkCapability grants) (spec.capAdd.getD [])
  let ports ← checkPorts spec grants
  let networks ← collectE (checkNetwork serviceId) (spec.networks.getD [])
  return image ++ mounts ++ devices ++ networkMode ++ privileged ++ capAdd ++ ports ++ networks

/-- Whether a plan uses a powerful field: a bind mount, a device, host networking, privileged,
an added capability or a published port. -/
def ContainerSpec.isPowerful (spec : ContainerSpec) : Bool :=
  (spec.mountList.any fun m => m.type = .bind) || !(spec.devices.getD []).isEmpty || spec.isHost ||
    spec.privileged == some true || !(spec.capAdd.getD []).isEmpty || !(spec.ports.getD []).isEmpty

/-- The projection input of a plan. -/
def projectionInputOf (serviceId : JsString) (spec : ContainerSpec) : PowerfulProjectionInput where
  serviceId := serviceId
  image := spec.image
  mounts := spec.binds
  devices := spec.devices.getD []
  networkMode := if spec.isHost then some (js "host") else none
  privileged := spec.privileged.getD false
  capAdd := spec.capAdd.getD []
  publishedPorts := spec.ports.getD []

section Validate

variable (sha256 : List UInt8 → JsString)

/-- The result for a list of violations. -/
def resultOf (serviceId : JsString) (spec : ContainerSpec) (violations : List FieldViolation) : ValidationResult where
  ok := violations.isEmpty
  tier := if spec.isPowerful then .powerful else .baseline
  violations := violations
  warnings := (Obj.keys (spec.env.getD [])).flatMap envWarning
  projectionHash :=
    if spec.isPowerful then some (computePowerfulProjectionHash sha256 (projectionInputOf serviceId spec)) else none

/-- `validateContainerSpec`. -/
def validateContainerSpec (serviceId : JsString) (spec : ContainerSpec) (grants : List Grant) :
    Except JsError ValidationResult := do
  let violations ← violationsOf serviceId spec grants
  return resultOf sha256 serviceId spec violations

end Validate

/-! ### What an accepted plan satisfies -/

theorem requireGrant_ok_nil {grants : List Grant} {field cap message : JsString} {p : Json → Except JsError Bool} :
    requireGrant grants field cap p message = .ok [] ↔ hasGrant grants cap p = .ok true := by
  unfold requireGrant
  cases h : hasGrant grants cap p with
  | error e => simp [bind, Except.bind]
  | ok b => cases b <;> simp [bind, Except.bind, pure, Except.pure]

/-- The branches of the check that an accepted plan passed. -/
structure Accepted (serviceId : JsString) (spec : ContainerSpec) (grants : List Grant) : Prop where
  image : checkImage spec grants = .ok []
  mounts : ∀ m ∈ spec.mountList, checkMount serviceId grants m = .ok []
  devices : ∀ d ∈ spec.devices.getD [], checkDevice grants d = .ok []
  networkMode : checkNetworkMode spec grants = .ok []
  privileged : checkPrivileged spec grants = .ok []
  capAdd : ∀ c ∈ spec.capAdd.getD [], checkCapability grants c = .ok []
  ports : checkPorts spec grants = .ok []
  networks : ∀ n ∈ spec.networks.getD [], checkNetwork serviceId n = .ok []

/-- A check without violations is a check every branch of which passed. -/
theorem violationsOf_ok_nil {serviceId : JsString} {spec : ContainerSpec} {grants : List Grant} :
    violationsOf serviceId spec grants = .ok [] ↔ Accepted serviceId spec grants := by
  unfold violationsOf
  simp only [except_bind_ok, pure, Except.pure, Except.ok.injEq, List.append_eq_nil_iff]
  constructor
  · rintro ⟨v1, h1, v2, h2, v3, h3, v4, h4, v5, h5, v6, h6, v7, h7, v8, h8, ⟨⟨⟨⟨⟨⟨rfl, rfl⟩, rfl⟩, rfl⟩, rfl⟩, rfl⟩, rfl⟩, rfl⟩
    exact ⟨h1, collectE_ok_nil.mp h2, collectE_ok_nil.mp h3, h4, h5, collectE_ok_nil.mp h6, h7, collectE_ok_nil.mp h8⟩
  · intro h
    exact ⟨[], h.image, [], collectE_ok_nil.mpr h.mounts, [], collectE_ok_nil.mpr h.devices, [], h.networkMode, [],
      h.privileged, [], collectE_ok_nil.mpr h.capAdd, [], h.ports, [], collectE_ok_nil.mpr h.networks, by simp⟩

section Validate

variable {sha256 : List UInt8 → JsString} {serviceId : JsString} {spec : ContainerSpec} {grants : List Grant}
  {result : ValidationResult}

theorem validateContainerSpec_eq (h : validateContainerSpec sha256 serviceId spec grants = .ok result) :
    ∃ violations, violationsOf serviceId spec grants = .ok violations ∧
      result = resultOf sha256 serviceId spec violations := by
  obtain ⟨violations, hv, hr⟩ := except_bind_ok.mp h
  exact ⟨violations, hv, (Except.ok.inj hr).symm⟩

/-- **An accepted plan passed every branch of the check.** -/
theorem accepted_of_ok (h : validateContainerSpec sha256 serviceId spec grants = .ok result) (hok : result.ok = true) :
    Accepted serviceId spec grants := by
  obtain ⟨violations, hv, rfl⟩ := validateContainerSpec_eq h
  rw [resultOf, List.isEmpty_iff] at hok
  rw [hok] at hv
  exact violationsOf_ok_nil.mp hv

theorem ok_of_accepted (h : Accepted serviceId spec grants) :
    validateContainerSpec sha256 serviceId spec grants = .ok (resultOf sha256 serviceId spec []) := by
  rw [validateContainerSpec, violationsOf_ok_nil.mpr h]
  rfl

/-- The projection hash of a result, where it has one, is that of the plan. -/
theorem projectionHash_of_ok (h : validateContainerSpec sha256 serviceId spec grants = .ok result) :
    result.projectionHash.getD (computePowerfulProjectionHash sha256 (projectionInputOf serviceId spec)) =
      computePowerfulProjectionHash sha256 (projectionInputOf serviceId spec) := by
  obtain ⟨violations, -, rfl⟩ := validateContainerSpec_eq h
  unfold resultOf
  split <;> rfl

/-- The volumes of an accepted plan carry the service's prefix. -/
theorem Accepted.volume (h : Accepted serviceId spec grants) {m : MountSpec} (hm : m ∈ spec.mountList)
    (hv : m.type = .volume) : ∃ rest, m.source = volumeStem serviceId ++ rest := by
  have := h.mounts m hm
  unfold checkMount at this
  rw [hv] at this
  simp only [Except.ok.injEq, ite_eq_left_iff] at this
  by_contra hne
  exact absurd (this (fun hs => hne (startsWith_iff.mp hs))) (by simp)

/-- The networks of an accepted plan are the service's own. -/
theorem Accepted.network (h : Accepted serviceId spec grants) {n : JsString} (hn : n ∈ spec.networks.getD []) :
    n = serviceNetworkName serviceId := by
  have := h.networks n hn
  unfold checkNetwork at this
  simp only [Except.ok.injEq, ite_eq_left_iff] at this
  by_contra hne
  exact absurd (this hne) (by simp)

/-- Host networking of an accepted plan has a grant. -/
theorem Accepted.host (h : Accepted serviceId spec grants) (hh : spec.isHost = true) :
    ∃ g ∈ grants, g.cap = js "docker.network.host" := by
  have := h.networkMode
  rw [checkNetworkMode, if_pos hh, requireGrant_ok_nil] at this
  obtain ⟨g, hg, hcap, -⟩ := hasGrant_ok_true this
  exact ⟨g, hg, hcap⟩

end Validate

/-- The grant of `docker.image.pull` for every repository. -/
def anyImage : Grant := ⟨js "docker.image.pull", .obj [(js "repos", .arr [.str (js "*")])]⟩

end Wanfw.Orchestrator
