import Wanfw.Orchestrator.Execute

/-!
# Invariants of the daemon over EXECUTE

A property of the daemon that every call of EXECUTE preserves when it is done is
preserved by EXECUTE, whatever fails on the way. The calls are few: `ContainerCalls`
are those for one container, `ServiceCalls` those for a service, `ProxyCalls` those for
a network plan. `keeps_executeGraph` puts them together, so that an invariant only has
to speak of what the daemon does for each of them.
-/

namespace Wanfw.Orchestrator

open Wanfw.Js

/-! ### What the calls leave alone -/

namespace Docker

variable {d d' : Docker} {c : Container} {o : CreateContainerOptions} {id : ℕ} {name : JsString}

theorem containers_createNetwork {labels : Obj JsString} {options : Option NetworkDriverOptions}
    (h : d.createNetwork name labels options = .ok ((), d')) : d'.containers = d.containers := by
  unfold createNetwork at h
  split at h <;> cases h
  rfl

theorem volumes_createNetwork {labels : Obj JsString} {options : Option NetworkDriverOptions}
    (h : d.createNetwork name labels options = .ok ((), d')) : d'.volumes = d.volumes := by
  unfold createNetwork at h
  split at h <;> cases h
  rfl

theorem volumes_createContainer (h : d.createContainer o = .ok (c, d')) : d'.volumes = mountVolumes d.volumes o.mounts := by
  unfold createContainer at h
  split at h <;> cases h
  rfl

theorem networks_createContainer (h : d.createContainer o = .ok (c, d')) : d'.networks = d.networks := by
  unfold createContainer at h
  split at h <;> cases h
  rfl

theorem startContainer_eq (h : d.startContainer id = .ok ((), d')) : ∃ hf, d' = d.mapContainers
    (fun c => if c.id = id then { c with state := js "running" } else c) hf := by
  unfold startContainer at h
  split at h <;> cases h
  exact ⟨_, rfl⟩

theorem connectNetwork_eq {network : JsString} (h : d.connectNetwork id network = .ok ((), d')) : ∃ hf, d' = d.mapContainers
    (fun c => if c.id = id then { c with networks := c.networks ++ [network] } else c) hf := by
  unfold connectNetwork at h
  split at h
  · cases h
  · split at h
    · cases h
    · split at h
      · cases h
      · split at h <;> cases h
        exact ⟨_, rfl⟩

theorem volumes_startContainer (h : d.startContainer id = .ok ((), d')) : d'.volumes = d.volumes := by
  obtain ⟨_, rfl⟩ := startContainer_eq h
  rfl

theorem volumes_removeContainer (h : d.removeContainer id = .ok ((), d')) : d'.volumes = d.volumes := by
  unfold removeContainer at h
  split at h <;> cases h
  rfl

theorem volumes_connectNetwork {network : JsString} (h : d.connectNetwork id network = .ok ((), d')) :
    d'.volumes = d.volumes := by
  obtain ⟨_, rfl⟩ := connectNetwork_eq h
  rfl

theorem networks_startContainer (h : d.startContainer id = .ok ((), d')) : d'.networks = d.networks := by
  obtain ⟨_, rfl⟩ := startContainer_eq h
  rfl

theorem networks_removeContainer (h : d.removeContainer id = .ok ((), d')) : d'.networks = d.networks := by
  unfold removeContainer at h
  split at h <;> cases h
  rfl

theorem networks_connectNetwork {network : JsString} (h : d.connectNetwork id network = .ok ((), d')) :
    d'.networks = d.networks := by
  obtain ⟨_, rfl⟩ := connectNetwork_eq h
  rfl

theorem addVolume_eq (volumes : List Volume) (name : JsString) (labels : Obj JsString) :
    ∃ new, addVolume volumes name labels = volumes ++ new ∧ ∀ v ∈ new, v = ⟨name, labels⟩ := by
  unfold addVolume
  split
  · exact ⟨[], by simp, by simp⟩
  · exact ⟨[⟨name, labels⟩], rfl, by simp⟩

/-- The volumes that a container's mounts bring along have no labels. -/
theorem mountVolumes_eq (volumes : List Volume) (mounts : List MountSpec) :
    ∃ new, mountVolumes volumes mounts = volumes ++ new ∧ ∀ v ∈ new, v.labels = [] := by
  unfold mountVolumes
  induction mounts.filter fun m => m.type = .volume generalizing volumes with
  | nil => exact ⟨[], by simp, by simp⟩
  | cons m ms ih =>
    obtain ⟨new, hnew, hall⟩ := addVolume_eq volumes m.source []
    obtain ⟨new', hnew', hall'⟩ := ih (addVolume volumes m.source [])
    refine ⟨new ++ new', by rw [List.foldl_cons, hnew', hnew, List.append_assoc], fun v hv => ?_⟩
    exact (List.mem_append.mp hv).elim (fun hv => by rw [hall v hv]) (hall' v)

end Docker

/-- The volumes are those of `vs` and new ones with `Q`. -/
def Grown (Q : Volume → Prop) (vs : List Volume) (d : Docker) : Prop :=
  ∃ new, d.volumes = vs ++ new ∧ ∀ v ∈ new, Q v

theorem Grown.more {Q : Volume → Prop} {vs : List Volume} {d d' : Docker} (h : Grown Q vs d)
    (hmore : ∃ new, d'.volumes = d.volumes ++ new ∧ ∀ v ∈ new, Q v) : Grown Q vs d' := by
  obtain ⟨new, hnew, hall⟩ := h
  obtain ⟨new', hnew', hall'⟩ := hmore
  refine ⟨new ++ new', by rw [hnew', hnew, List.append_assoc], fun v hv => ?_⟩
  exact (List.mem_append.mp hv).elim (hall v) (hall' v)

theorem Grown.same {Q : Volume → Prop} {vs : List Volume} {d d' : Docker} (h : Grown Q vs d)
    (hsame : d'.volumes = d.volumes) : Grown Q vs d' := by rwa [Grown, hsame]

/-! ### Invariants of an action -/

/-- The action keeps a property of the daemon, whether it returns or throws. -/
abbrev KeepsDocker {α : Type} (I : Docker → Prop) (m : M α) : Prop := Act.Keeps (fun w => I w.docker) m

section Calls

variable {α β : Type} {env : Env} {stage : Stage} {c : Call} {P I : Docker → Prop} {Q : α → Docker → Prop}

/-- A changing call that is done leaves `Q`, and one that is not leaves what was there. -/
theorem issue_docker {f : Docker → Except JsError (α × Docker)} (hP : ∀ d, P d → I d) (hQ : ∀ a d, Q a d → I d)
    (h : ∀ d a d', P d → f d = .ok (a, d') → Q a d') :
    Act.Triple (fun w => P w.docker) (issue env stage c f) (fun a w => Q a w.docker) fun _ w => I w.docker := by
  intro w hw
  unfold issue
  simp only
  cases env.fault w.calls with
  | none =>
    cases hf : f w.docker with
    | error e => exact hP _ hw
    | ok r => exact h _ _ _ hw hf
  | some fault =>
    cases fault with
    | lost message => exact hP _ hw
    | late message =>
      cases hf : f w.docker with
      | error e => exact hP _ hw
      | ok r => exact hQ _ _ (h _ _ _ hw hf)

/-- A reading call answers from the state, which stays. -/
theorem query_docker (f : Docker → α) :
    Act.Triple (fun w => I w.docker) (query env f) (fun a w => I w.docker ∧ a = f w.docker) fun _ w => I w.docker := by
  intro w hw
  unfold query
  simp only
  cases env.fault w.calls with
  | none => exact ⟨hw, rfl⟩
  | some fault => cases fault <;> exact hw

theorem keeps_issue {f : Docker → Except JsError (α × Docker)} (h : ∀ d a d', I d → f d = .ok (a, d') → I d') :
    KeepsDocker I (issue env stage c f) :=
  issue_docker (Q := fun _ => I) (fun _ h => h) (fun _ _ h => h) h

theorem keeps_query (f : Docker → α) : KeepsDocker I (query env f) :=
  (query_docker f).conseq (fun _ h => h) (fun _ _ h => h.1) fun _ _ h => h

theorem keeps_journal (planId step : JsString) (payload result : Json) : KeepsDocker I (journal planId step payload result) :=
  Act.Keeps.modify fun _ h => h

theorem keeps_failStep (step plugin : JsString) (payload : Json) (e : JsError) :
    KeepsDocker I (failStep env step plugin payload e) :=
  (keeps_journal _ _ _ _).bind fun _ => .pure _

end Calls

/-! ### The ensure functions -/

/-- The calls for a container of this name, created with these options, preserve `I`. -/
structure ContainerCalls (I : Docker → Prop) (name : JsString) (options : CreateContainerOptions) : Prop where
  create : ∀ d c d', I d → d.createContainer options = .ok (c, d') → I d'
  start : ∀ d c d', I d → c ∈ d.containers → c.name = name → d.startContainer c.id = .ok ((), d') → I d'
  remove : ∀ d c d', I d → c ∈ d.containers → c.name = name → d.removeContainer c.id = .ok ((), d') → I d'
  connect : ∀ d c network d', I d → c ∈ d.containers → c.name = name →
    d.connectNetwork c.id network = .ok ((), d') → I d'

/-- The labels of a volume. -/
def volumeLabels (env : Env) (name planId serviceId : JsString) (removeVolumesOnDelete : Bool) : Obj JsString :=
  baseLabels [(js "wanfw.service", serviceId), (js "wanfw.plan", planId),
    (js "wanfw.confighash", computeVolumeConfigHash env name),
    (js "wanfw.removeVolumesOnDelete", if removeVolumesOnDelete then js "true" else js "false")]

section Ensure

variable {env : Env} {I : Docker → Prop} {name planId : JsString} {owner : Owner}

theorem keeps_ensureNetwork {options : Option NetworkDriverOptions}
    (h : ∀ d d', I d → d.createNetwork name (networkLabels env name planId owner) options = .ok ((), d') → I d') :
    KeepsDocker I (ensureNetwork env name planId owner options) := by
  refine (keeps_query _).bind fun existing => ?_
  cases existing with
  | some n => exact .pure _
  | none => exact (keeps_issue fun d _ d' => h d d').bind fun _ => .pure _

theorem keeps_ensureVolume {serviceId : JsString} {remove : Bool}
    (h : ∀ d d', I d → d.createVolume name (volumeLabels env name planId serviceId remove) = .ok ((), d') → I d') :
    KeepsDocker I (ensureVolume env name planId serviceId remove) := by
  refine (keeps_query _).bind fun existing => ?_
  cases existing with
  | some v => exact .pure _
  | none => exact (keeps_issue fun d _ d' => h d d').bind fun _ => .pure _

theorem keeps_createAndStart {options : CreateContainerOptions} (hname : options.name = name)
    (h : ContainerCalls I name options) : KeepsDocker I (createAndStart env options) := by
  refine Act.Triple.bind (Q := fun c w => I w.docker ∧ c ∈ w.docker.containers ∧ c.name = name) ?_ fun c => ?_
  · refine issue_docker (Q := fun c d => I d ∧ c ∈ d.containers ∧ c.name = name) (fun _ h => h) (fun _ _ h => h.1) ?_
    intro d c d' hd hc
    refine ⟨h.create d c d' hd hc, ?_⟩
    unfold Docker.createContainer at hc
    split at hc <;> cases hc
    exact ⟨List.mem_append_right _ (List.mem_singleton_self _), hname⟩
  · exact issue_docker (P := fun d => I d ∧ c ∈ d.containers ∧ c.name = name) (Q := fun _ => I) (fun _ h => h.1)
      (fun _ _ h => h) fun d _ d' hd => h.start d c d' hd.1 hd.2.1 hd.2.2

/-- A call on the container that was found by its name. -/
theorem issue_found {stage : Stage} {call : Call} {f : Docker → Except JsError (Unit × Docker)} {c : Container}
    (h : ∀ d d', I d → c ∈ d.containers → c.name = name → f d = .ok ((), d') → I d') :
    Act.Triple (fun w => I w.docker ∧ some c = w.docker.managedContainer name) (issue env stage call f)
      (fun _ w => I w.docker) fun _ w => I w.docker :=
  issue_docker (P := fun d => I d ∧ some c = d.managedContainer name) (Q := fun _ => I) (fun _ h => h.1)
    (fun _ _ h => h) fun d _ d' hd =>
      h d d' hd.1 (Docker.mem_managedContainer hd.2.symm).1 (Docker.mem_managedContainer hd.2.symm).2

theorem keeps_ensureContainer {spec : ContainerSpec} (h : ContainerCalls I name (createOptions env name spec planId owner)) :
    KeepsDocker I (ensureContainer env name spec planId owner) := by
  have hcreate : KeepsDocker I (createAndStart env (createOptions env name spec planId owner)) := keeps_createAndStart rfl h
  refine Act.Triple.bind (query_docker _) fun existing => ?_
  cases existing with
  | none =>
    exact Act.Triple.bind (hcreate.conseq (fun _ h => h.1) (fun _ _ h => h) fun _ _ h => h) fun _ => Act.Keeps.pure _
  | some c =>
    dsimp only
    split
    · split
      · exact Act.Triple.pure fun _ h => h.1
      · exact Act.Triple.bind (issue_found fun d d' => h.start d c d') fun _ => Act.Keeps.pure _
    · exact Act.Triple.bind (issue_found fun d d' => h.remove d c d') fun _ => hcreate.bind fun _ => .pure _

theorem keeps_connect {options : CreateContainerOptions} (h : ContainerCalls I name options) (networkName : JsString) :
    KeepsDocker I (connect env name networkName) := by
  refine Act.Triple.bind (query_docker _) fun existing => ?_
  cases existing with
  | none => exact Act.Triple.pure fun _ h => h.1
  | some c =>
    dsimp only
    split
    · exact Act.Triple.pure fun _ h => h.1
    · exact Act.Triple.bind (issue_found fun d d' => h.connect d c networkName d') fun _ => Act.Keeps.pure _

end Ensure

/-! ### EXECUTE -/

/-- The options with which EXECUTE creates the container of a service. -/
def serviceOptions (env : Env) (serviceId : JsString) (spec : ContainerSpec) : CreateContainerOptions :=
  createOptions env (containerName serviceId) (withPrimaryNetwork serviceId spec) env.planId (.service serviceId)

/-- The calls of EXECUTE for a service preserve `I`. -/
structure ServiceCalls (I : Docker → Prop) (env : Env) (ds : DesiredState) (serviceId : JsString) (spec : ContainerSpec) :
    Prop where
  network : ∀ d d', I d → d.createNetwork (serviceNetworkName serviceId)
    (networkLabels env (serviceNetworkName serviceId) env.planId (.service serviceId)) none = .ok ((), d') → I d'
  volume : ∀ vol ∈ namedVolumes serviceId spec, ∀ d d', I d → d.createVolume vol.source
    (volumeLabels env vol.source env.planId serviceId (removeVolumesOnDelete ds serviceId)) = .ok ((), d') → I d'
  container : ContainerCalls I (containerName serviceId) (serviceOptions env serviceId spec)

/-- The calls of EXECUTE for a network plan preserve `I`. -/
structure ProxyCalls (I : Docker → Prop) (env : Env) (plan : NetworkPlan) (exposureNetwork : JsString)
    (serviceIds : List JsString) : Prop where
  network : ∀ d d', I d → d.createNetwork exposureNetwork (networkLabels env exposureNetwork env.planId .core)
    (exposureNetworkDriverOptions plan exposureNetwork) = .ok ((), d') → I d'
  container : ContainerCalls I proxyContainerName
    (createOptions env proxyContainerName (proxySpec env plan exposureNetwork serviceIds) env.planId .core)

section Execute

variable {env : Env} {ds : DesiredState} {I : Docker → Prop}

theorem keeps_executeService {serviceId : JsString} {spec : ContainerSpec} (h : ServiceCalls I env ds serviceId spec) :
    KeepsDocker I (executeService env ds serviceId spec) := by
  refine (keeps_ensureNetwork h.network).bind fun net => (keeps_journal _ _ _ _).bind fun _ => ?_
  refine (Act.Keeps.forEach fun vol hvol => ?_).bind fun _ => ?_
  · exact (keeps_ensureVolume (h.volume vol hvol)).bind fun r => keeps_journal _ _ _ _
  refine (keeps_ensureContainer h.container).bind fun r => (keeps_journal _ _ _ _).bind fun _ => ?_
  exact Act.Keeps.forEach fun networkName _ => (keeps_connect h.container _).bind fun r => keeps_journal _ _ _ _

theorem keeps_executeEntry {gateSnapshot : Option (Obj GatedService)} {e : JsString × ContainerSpec}
    (h : isParked gateSnapshot e.1 = false → ServiceCalls I env ds e.1 e.2) :
    KeepsDocker I (executeEntry env ds gateSnapshot e) := by
  unfold executeEntry
  split
  · exact (keeps_journal _ _ _ _).bind fun _ => .pure _
  · rename_i hpark
    refine Act.Keeps.tryCatch (Act.Keeps.bind ?_ fun _ => .pure _) fun err => keeps_failStep _ _ _ _
    exact keeps_executeService (h (by simpa using hpark))

theorem keeps_executeProxy {plan : NetworkPlan} {exposureNetwork : JsString} {serviceIds : List JsString}
    (h : ProxyCalls I env plan exposureNetwork serviceIds) : KeepsDocker I (executeProxy env plan exposureNetwork serviceIds) := by
  refine (keeps_ensureNetwork h.network).bind fun net => (keeps_journal _ _ _ _).bind fun _ => ?_
  refine (keeps_ensureContainer h.container).bind fun r => (keeps_journal _ _ _ _).bind fun _ => ?_
  exact Act.Keeps.forEach fun networkName _ => (keeps_connect h.container _).bind fun r => keeps_journal _ _ _ _

theorem keeps_executeNetworkPlan {graph : PlanGraph} (h : ∀ plan exposureNetwork, graph.networkPlan = some plan →
      plan.exposureNetwork = some exposureNetwork → ProxyCalls I env plan exposureNetwork (Obj.keys graph.servicePlans)) :
    KeepsDocker I (executeNetworkPlan env graph) := by
  unfold executeNetworkPlan
  split
  · exact .pure _
  · rename_i plan hplan
    split
    · exact .pure _
    · rename_i exposureNetwork hnetwork
      refine Act.Keeps.tryCatch (Act.Keeps.bind ?_ fun _ => .pure _) fun err => keeps_failStep _ _ _ _
      exact keeps_executeProxy (h plan exposureNetwork hplan hnetwork)

/-- The reload changes nothing of the daemon. -/
theorem keeps_executeProxyRender (graph : PlanGraph) : KeepsDocker I (executeProxyRender env graph) := by
  unfold executeProxyRender
  split
  · exact .pure _
  · split
    · refine Act.Keeps.tryCatch (Act.Keeps.bind ?_ fun output => (keeps_journal _ _ _ _).bind fun _ => .pure _) fun e =>
        keeps_failStep _ _ _ _
      unfold writeProxyConfigAndReload
      split
      · exact .throw _
      · refine Act.Keeps.bind (Act.Keeps.modify fun _ h => h) fun _ => Act.Keeps.bind (Act.Keeps.get.bind fun w => ?_) fun r => ?_
        · refine keeps_issue fun d a d' hd h => ?_
          split at h <;> cases h
          exact hd
        · obtain ⟨exitCode, output⟩ := r
          dsimp only
          split
          · exact .throw _
          · exact .pure _
    · exact .pure _

/-- **An invariant of every call is an invariant of EXECUTE.** -/
theorem keeps_executeGraph {graph : PlanGraph} {gateSnapshot : Option (Obj GatedService)}
    (hservice : ∀ serviceId spec, (serviceId, spec) ∈ graph.servicePlans → isParked gateSnapshot serviceId = false →
      ServiceCalls I env ds serviceId spec)
    (hproxy : ∀ plan exposureNetwork, graph.networkPlan = some plan → plan.exposureNetwork = some exposureNetwork →
      ProxyCalls I env plan exposureNetwork (Obj.keys graph.servicePlans)) :
    KeepsDocker I (executeGraph env ds graph gateSnapshot) := by
  refine (Act.Keeps.forReturn fun e he => keeps_executeEntry (hservice e.1 e.2 he)).bind fun r => ?_
  cases r with
  | some e => exact .pure _
  | none =>
    refine (keeps_executeNetworkPlan hproxy).bind fun r => ?_
    cases r with
    | some e => exact .pure _
    | none => exact keeps_executeProxyRender _

end Execute

end Wanfw.Orchestrator
