import Wanfw.Orchestrator.Docker

/-!
# Ensuring Docker objects

`execute/confighash.ts` and `execute/ensure.ts`: the primitives of EXECUTE. Each
brings one object to its desired state and changes nothing where it already is: a
network or a volume is created if it is absent, a container is recreated when its
configuration hash differs and started when it is not running.
-/

namespace Wanfw.Orchestrator

open Wanfw.Js Wanfw.Schemas

/-! ### Configuration hashes -/

/-- An optional member of an object. -/
def member {α : Type} (key : JsString) (f : α → Json) (v : Option α) : Obj Json := (v.map fun x => (key, f x)).toList

/-- An array of strings. -/
def stringsJson (xs : List JsString) : Json := .arr (xs.map .str)

/-- An object of strings. -/
def recordJson (o : Obj JsString) : Json := .obj (o.map fun e => (e.1, .str e.2))

/-- A mount as a JSON value. -/
def MountSpec.toJson (m : MountSpec) : Json :=
  .obj ([(js "type", .str (match m.type with | .volume => js "volume" | .bind => js "bind")),
    (js "source", .str m.source), (js "target", .str m.target)] ++ member (js "readOnly") .bool m.readOnly)

/-- A plan as a JSON value; `JSON.stringify` leaves out what is `undefined`. -/
def ContainerSpec.toJson (spec : ContainerSpec) : Json :=
  .obj ([(js "image", Json.str spec.image)] ++ member (js "cmd") stringsJson spec.cmd ++
    member (js "entrypoint") stringsJson spec.entrypoint ++ member (js "env") recordJson spec.env ++
    member (js "mounts") (fun ms => .arr (ms.map MountSpec.toJson)) spec.mounts ++
    member (js "devices") stringsJson spec.devices ++ member (js "networks") stringsJson spec.networks ++
    member (js "networkMode") .str spec.networkMode ++ member (js "ports") (fun ps => .arr (ps.map .num)) spec.ports ++
    member (js "capAdd") stringsJson spec.capAdd ++ member (js "privileged") .bool spec.privileged ++
    member (js "securityOpt") stringsJson spec.securityOpt ++ member (js "user") .str spec.user ++
    member (js "readOnly") .bool spec.readOnly ++
    member (js "resources") (fun r => .obj (member (js "memory") .str r.memory ++ member (js "cpus") .str r.cpus))
      spec.resources ++
    member (js "labels") recordJson spec.labels ++ member (js "restart") .str spec.restart)

section Ensure

variable (env : Env)

/-- `computeConfigHash`. -/
def computeConfigHash (spec : ContainerSpec) : JsString := env.sha256 (utf8 (canonicalJSONStringify spec.toJson))

/-- `computeNetworkConfigHash`. -/
def computeNetworkConfigHash (name : JsString) : JsString := env.sha256 (utf8 (js "network:" ++ name))

/-- `computeVolumeConfigHash`. -/
def computeVolumeConfigHash (name : JsString) : JsString := env.sha256 (utf8 (js "volume:" ++ name))

/-! ### Steps -/

/-- `StepResult`. -/
structure StepResult where
  step : JsString
  changed : Bool
  detail : JsString

/-- A step result as a JSON value. -/
def StepResult.toJson (r : StepResult) : Json :=
  .obj [(js "step", .str r.step), (js "changed", .bool r.changed), (js "detail", .str r.detail)]

/-- The owner of an object: a service, or the core. -/
inductive Owner where
  | service (id : JsString)
  | core

/-- `wanfw.service` or `wanfw.core`. -/
def Owner.labels : Owner → Obj JsString
  | .service id => [(js "wanfw.service", id)]
  | .core => [(js "wanfw.core", js "true")]

/-- `baseLabels`. -/
def baseLabels (extra : Obj JsString) : Obj JsString := Obj.spread [(js "wanfw.managed", js "true")] extra

/-- The labels of a network. -/
def networkLabels (name planId : JsString) (owner : Owner) : Obj JsString :=
  baseLabels ([(js "wanfw.plan", planId), (js "wanfw.confighash", computeNetworkConfigHash env name)] ++ owner.labels)

/-- `ensureNetwork`. -/
def ensureNetwork (name planId : JsString) (owner : Owner) (options : Option NetworkDriverOptions) : M StepResult := do
  let step := js "ensureNetwork:" ++ name
  match ← query env fun d => d.managedNetwork name with
  | some _ => return ⟨step, false, js "already exists"⟩
  | none =>
    let labels := networkLabels env name planId owner
    issue env .execute (.createNetwork name labels options) fun d => d.createNetwork name labels options
    return ⟨step, true, js "created"⟩

/-- `ensureVolume`. -/
def ensureVolume (name planId serviceId : JsString) (removeVolumesOnDelete : Bool) : M StepResult := do
  let step := js "ensureVolume:" ++ name
  match ← query env fun d => d.managedVolume name with
  | some _ => return ⟨step, false, js "already exists"⟩
  | none =>
    let labels := baseLabels [(js "wanfw.service", serviceId), (js "wanfw.plan", planId),
      (js "wanfw.confighash", computeVolumeConfigHash env name),
      (js "wanfw.removeVolumesOnDelete", if removeVolumesOnDelete then js "true" else js "false")]
    issue env .execute (.createVolume name labels) fun d => d.createVolume name labels
    return ⟨step, true, js "created"⟩

/-- The labels of a container: the plan's own labels come last and win. -/
def containerLabels (spec : ContainerSpec) (planId : JsString) (owner : Owner) : Obj JsString :=
  let own := match owner with
    | .service id => [(js "wanfw.service", id), (js "wanfw.plan", planId), (js "wanfw.confighash", computeConfigHash env spec)]
    | .core => [(js "wanfw.plan", planId), (js "wanfw.confighash", computeConfigHash env spec), (js "wanfw.core", js "true")]
  baseLabels (Obj.spread own (spec.labels.getD []))

/-- The options of the create call for a plan. -/
def createOptions (name : JsString) (spec : ContainerSpec) (planId : JsString) (owner : Owner) :
    CreateContainerOptions where
  name := name
  image := spec.image
  cmd := spec.cmd
  entrypoint := spec.entrypoint
  env := spec.env
  mounts := spec.mountList
  devices := spec.devices
  networkMode := spec.networkMode
  ports := spec.ports
  capAdd := spec.capAdd
  privileged := spec.privileged
  securityOpt := spec.securityOpt
  user := spec.user
  readOnlyRootfs := spec.readOnly
  memory := spec.resources.bind (·.memory)
  cpus := spec.resources.bind (·.cpus)
  labels := containerLabels env spec planId owner
  restartPolicy := spec.restart
  primaryNetwork := (spec.networks.getD []).head?

/-- Create a container and start it. -/
def createAndStart (options : CreateContainerOptions) : M Unit := do
  let created ← issue env .execute (.createContainer options) fun d => d.createContainer options
  issue env .execute (.startContainer created.id) fun d => d.startContainer created.id

/-- `ensureContainer`. -/
def ensureContainer (name : JsString) (spec : ContainerSpec) (planId : JsString) (owner : Owner) : M StepResult := do
  let step := js "ensureContainer:" ++ name
  let existing ← query env fun d => d.managedContainer name
  match existing with
  | some c =>
    if Obj.get c.labels (js "wanfw.confighash") = some (computeConfigHash env spec) then
      if c.state = js "running" then return ⟨step, false, js "unchanged"⟩
      else
        issue env .execute (.startContainer c.id) fun d => d.startContainer c.id
        return ⟨step, true, js "started (was not running)"⟩
    else
      issue env .execute (.removeContainer c.id) fun d => d.removeContainer c.id
      createAndStart env (createOptions env name spec planId owner)
      return ⟨step, true, js "recreated"⟩
  | none =>
    createAndStart env (createOptions env name spec planId owner)
    return ⟨step, true, js "created"⟩

/-- `connect`. -/
def connect (containerName networkName : JsString) : M StepResult := do
  let step := js "connect:" ++ containerName ++ js "->" ++ networkName
  match ← query env fun d => d.managedContainer containerName with
  | some c =>
    if networkName ∈ c.networks then return ⟨step, false, js "already connected"⟩
    else
      issue env .execute (.connectNetwork c.id networkName) fun d => d.connectNetwork c.id networkName
      return ⟨step, true, js "connected"⟩
  | none => return ⟨step, false, js "container not found (will retry next reconcile)"⟩

end Ensure

/-! ### Which calls they issue -/

/-- A container of this name, in the state before the call, has this id. -/
def Attempt.Names (a : Attempt) (id : ℕ) (name : JsString) : Prop := ∃ c ∈ a.before.containers, c.id = id ∧ c.name = name

/-- The calls of EXECUTE for a container of this name, created with these options. -/
def ForContainer (name : JsString) (options : CreateContainerOptions) (a : Attempt) : Prop :=
  a.stage = .execute ∧
    match a.call with
    | .createContainer o => o = options
    | .startContainer id => a.Names id name
    | .removeContainer id => a.Names id name
    | _ => False

section Specs

variable {env : Env}

/-- `ensureNetwork` creates the network it names, if anything. -/
theorem issues_ensureNetwork {P : Attempt → Prop} {name planId : JsString} {owner : Owner}
    {options : Option NetworkDriverOptions}
    (hP : ∀ d, P ⟨.execute, d, .createNetwork name (networkLabels env name planId owner) options⟩) :
    Issues P (ensureNetwork env name planId owner options) := by
  refine (Issues.query _).bind fun existing => ?_
  cases existing with
  | some n => exact Issues.pure _
  | none => exact (Issues.issue hP).bind fun _ => Issues.pure _

/-- `ensureVolume` creates the volume it names, if anything. -/
theorem issues_ensureVolume {P : Attempt → Prop} {name planId serviceId : JsString} {remove : Bool}
    (hP : ∀ d labels, P ⟨.execute, d, .createVolume name labels⟩) :
    Issues P (ensureVolume env name planId serviceId remove) := by
  refine (Issues.query _).bind fun existing => ?_
  cases existing with
  | some v => exact Issues.pure _
  | none => exact (Issues.issue fun d => hP d _).bind fun _ => Issues.pure _

/-- Creating and starting a container touches that container alone. -/
theorem issues_createAndStart {P : Attempt → Prop} {options : CreateContainerOptions}
    (hP : ∀ a, ForContainer options.name options a → P a) : Issues P (createAndStart env options) := by
  intro log ctx
  refine Act.Triple.bind (Q := fun c w => IssuedSince P log ctx w ∧ (c ∈ w.docker.containers ∧ c.name = options.name))
    ?_ fun c => ?_
  · refine (issue_spec (A := fun _ => True) ?_ ?_ log ctx).conseq (fun _ h => ⟨h, trivial⟩) (fun _ _ h => h) fun _ _ h => h
    · exact fun w _ => hP _ ⟨rfl, rfl⟩
    · intro w c d _ h
      unfold Docker.createContainer at h
      split at h
      · cases h
      · cases h
        exact ⟨List.mem_append_right _ (List.mem_singleton_self _), rfl⟩
  · refine (issue_spec (A := fun w => c ∈ w.docker.containers ∧ c.name = options.name) (Q := fun _ _ => True) ?_
      (fun _ _ _ _ _ => trivial) log ctx).conseq (fun _ h => h) (fun _ _ h => h.1) fun _ _ h => h
    exact fun w h => hP _ ⟨rfl, c, h.1, rfl, h.2⟩

/-- **`ensureContainer` touches the containers of its name alone**, and creates with the options
of its plan. -/
theorem issues_ensureContainer {P : Attempt → Prop} {name planId : JsString} {spec : ContainerSpec} {owner : Owner}
    (hP : ∀ a, ForContainer name (createOptions env name spec planId owner) a → P a) :
    Issues P (ensureContainer env name spec planId owner) := by
  intro log ctx
  refine Act.Triple.bind (query_spec _ log ctx) fun existing => ?_
  have hcreate : Issues P (createAndStart env (createOptions env name spec planId owner)) := issues_createAndStart hP
  cases existing with
  | none =>
    exact Act.Triple.bind ((hcreate log ctx).conseq (fun _ h => h.1) (fun _ _ h => h) fun _ _ h => h) fun _ =>
      Issues.pure _ log ctx
  | some c =>
    -- the container was found in the state in which it is started or removed
    have named : ∀ w : World, some c = w.docker.managedContainer name → c ∈ w.docker.containers ∧ c.name = name :=
      fun w h => Docker.mem_managedContainer h.symm
    dsimp only
    split
    · split
      · exact (Issues.pure _ log ctx).conseq (fun _ h => h.1) (fun _ _ h => h) fun _ _ h => h
      · refine Act.Triple.bind ((issue_spec (Q := fun _ _ => True) ?_ (fun _ _ _ _ _ => trivial) log ctx).conseq
          (fun _ h => h) (fun _ _ h => h.1) fun _ _ h => h) fun _ => Issues.pure _ log ctx
        intro w h
        exact hP _ ⟨rfl, c, (named w h).1, rfl, (named w h).2⟩
    · refine Act.Triple.bind ((issue_spec (Q := fun _ _ => True) ?_ (fun _ _ _ _ _ => trivial) log ctx).conseq
        (fun _ h => h) (fun _ _ h => h.1) fun _ _ h => h) fun _ =>
          Act.Triple.bind (hcreate log ctx) fun _ => Issues.pure _ log ctx
      intro w h
      exact hP _ ⟨rfl, c, (named w h).1, rfl, (named w h).2⟩

/-- `connect` connects a container of its name, if anything. -/
theorem issues_connect {P : Attempt → Prop} {containerName networkName : JsString}
    (hP : ∀ a id, a.stage = .execute → a.call = .connectNetwork id networkName → a.Names id containerName → P a) :
    Issues P (connect env containerName networkName) := by
  intro log ctx
  refine Act.Triple.bind (query_spec _ log ctx) fun existing => ?_
  cases existing with
  | none => exact (Issues.pure _ log ctx).conseq (fun _ h => h.1) (fun _ _ h => h) fun _ _ h => h
  | some c =>
    dsimp only
    split
    · exact (Issues.pure _ log ctx).conseq (fun _ h => h.1) (fun _ _ h => h) fun _ _ h => h
    · refine Act.Triple.bind ((issue_spec (Q := fun _ _ => True) ?_ (fun _ _ _ _ _ => trivial) log ctx).conseq
        (fun _ h => h) (fun _ _ h => h.1) fun _ _ h => h) fun _ => Issues.pure _ log ctx
      intro w h
      have hc := Docker.mem_managedContainer h.symm
      exact hP _ _ rfl rfl ⟨c, hc.1, rfl, hc.2⟩

end Specs

end Wanfw.Orchestrator
