import Wanfw.Orchestrator.Execute

/-!
# Which network a service sees

Two fields of a plan decide which networks a container joins: `networks`, every
entry of which has to be the service's own network, and `networkMode`, which the
create call uses in the first place and of which the check knows one value, `host`.
Docker reads it as the name of a network or as `container:<x>` too.

`network_isolated_iff`: a service with an accepted plan keeps to its own network
exactly when `networkMode` is absent, `host`, `none` or the service's own network.
-/

namespace Wanfw.Orchestrator

open Wanfw.Js

/-! ### Namespaces -/

/-- A namespace that the containers of a service may be in. -/
def MayJoin (serviceId : JsString) (spec : ContainerSpec) (grants : List Grant) : Namespace → Prop
  | .network name => name = serviceNetworkName serviceId
  | .host => spec.networkMode = some (js "host") ∧ ∃ g ∈ grants, g.cap = js "docker.network.host"
  | .container _ => False
  | .isolated => True

/-- The call puts no container anywhere else: not by its creation, and not by a connection. -/
def Attempt.KeepsIsolated (a : Attempt) (serviceId : JsString) (spec : ContainerSpec) (grants : List Grant) : Prop :=
  match a.call with
  | .createContainer o => MayJoin serviceId spec grants (namespaceOf o.hostNetworkMode)
  | .connectNetwork _ network => network = serviceNetworkName serviceId
  | _ => True

/-- However EXECUTE brings up the service, it stays in the namespaces it may be in. -/
def IsolatedInEveryRun (serviceId : JsString) (spec : ContainerSpec) (grants : List Grant) : Prop :=
  ∀ env ds w new, (executeService env ds serviceId spec w).2.log = w.log ++ new →
    ∀ a ∈ new, a.KeepsIsolated serviceId spec grants

/-- The values of `networkMode` that are no way out. -/
def ContainerSpec.ModeIsOwn (spec : ContainerSpec) (serviceId : JsString) : Prop :=
  spec.networkMode = none ∨ spec.networkMode = some (js "host") ∨ spec.networkMode = some (js "none") ∨
    spec.networkMode = some (serviceNetworkName serviceId)

section Namespaces

variable {serviceId : JsString} {spec : ContainerSpec} {grants : List Grant}

theorem serviceNetworkName_ne {s : JsString} (h : s.head? ≠ some 119) : s ≠ serviceNetworkName serviceId := by
  rintro rfl
  exact h rfl

theorem namespaceOf_serviceNetworkName (serviceId : JsString) :
    namespaceOf (some (serviceNetworkName serviceId)) = .network (serviceNetworkName serviceId) := by
  have h1 : serviceNetworkName serviceId ≠ [] := (serviceNetworkName_ne (by decide)).symm
  have h2 : serviceNetworkName serviceId ≠ js "default" := (serviceNetworkName_ne (by decide)).symm
  have h3 : serviceNetworkName serviceId ≠ js "host" := (serviceNetworkName_ne (by decide)).symm
  have h4 : serviceNetworkName serviceId ≠ js "none" := (serviceNetworkName_ne (by decide)).symm
  have h5 : startsWith (serviceNetworkName serviceId) (js "container:") = false := rfl
  simp [namespaceOf, h1, h2, h3, h4, h5]

/-- Of the values of `networkMode`, those that Docker reads as something the service may join. -/
theorem mode_of_mayJoin {mode : JsString} (h : MayJoin serviceId spec grants (namespaceOf (some mode))) :
    mode = js "host" ∨ mode = js "none" ∨ mode = serviceNetworkName serviceId := by
  have hbridge : js "bridge" ≠ serviceNetworkName serviceId := serviceNetworkName_ne (by decide)
  unfold namespaceOf at h
  dsimp only at h
  split at h
  · exact absurd h hbridge
  · split at h
    · exact .inl (by assumption)
    · split at h
      · exact .inr (.inl (by assumption))
      · split at h
        · exact h.elim
        · exact .inr (.inr h)

theorem primaryNetwork_of_accepted (h : Accepted serviceId spec grants) :
    ((withPrimaryNetwork serviceId spec).networks.getD []).head? = some (serviceNetworkName serviceId) ∧
      ∀ n ∈ (withPrimaryNetwork serviceId spec).networks.getD [], n = serviceNetworkName serviceId := by
  have hown : ∀ n ∈ spec.networks.getD [], n = serviceNetworkName serviceId := fun n hn => h.network hn
  unfold withPrimaryNetwork
  dsimp only [Option.getD_some]
  split
  · exact ⟨rfl, by simp⟩
  · rename_i networks hne
    refine ⟨?_, hown⟩
    cases hnets : spec.networks.getD [] with
    | nil => exact absurd hnets hne
    | cons n ns => rw [List.head?_cons, hown n (by simp [hnets])]

/-- The namespace a container of an accepted plan is created in. -/
theorem hostNetworkMode_of_accepted (env : Env) (h : Accepted serviceId spec grants) :
    (createOptions env (containerName serviceId) (withPrimaryNetwork serviceId spec) env.planId
      (.service serviceId)).hostNetworkMode = spec.networkMode.or (some (serviceNetworkName serviceId)) := by
  rw [CreateContainerOptions.hostNetworkMode, ← (primaryNetwork_of_accepted h).1]
  rfl

theorem mayJoin_iff (h : Accepted serviceId spec grants) :
    MayJoin serviceId spec grants (namespaceOf (spec.networkMode.or (some (serviceNetworkName serviceId)))) ↔
      spec.ModeIsOwn serviceId := by
  constructor
  · intro hjoin
    cases hmode : spec.networkMode with
    | none => exact .inl hmode
    | some mode =>
      rw [hmode, Option.some_or] at hjoin
      rcases mode_of_mayJoin hjoin with rfl | rfl | rfl
      · exact .inr (.inl hmode)
      · exact .inr (.inr (.inl hmode))
      · exact .inr (.inr (.inr hmode))
  · rintro (hmode | hmode | hmode | hmode)
    · rw [hmode, Option.none_or, namespaceOf_serviceNetworkName]
      rfl
    · rw [hmode]
      exact ⟨hmode, h.host (by simp [ContainerSpec.isHost, hmode])⟩
    · rw [hmode]
      trivial
    · rw [hmode, Option.some_or, namespaceOf_serviceNetworkName]
      rfl

end Namespaces

/-! ### On an empty host the container is created -/

section EmptyHost

variable (ds : DesiredState) (serviceId : JsString) (spec : ContainerSpec)

/-- No container yet. -/
def NoContainers (w : World) : Prop := w.docker.containers = []

/-- The call that creates the container. -/
def createCall : Call :=
  .createContainer (createOptions Env.idle (containerName serviceId) (withPrimaryNetwork serviceId spec) Env.idle.planId
    (.service serviceId))

/-- The creation was issued. -/
def CreateIssued (w : World) : Prop := ∃ a ∈ w.log, a.call = createCall serviceId spec

variable {serviceId spec}

theorem Issues.keepsCreate {α : Type} {P : Attempt → Prop} {m : M α} (hm : Issues P m) :
    Act.Triple (CreateIssued serviceId spec) m (fun _ => CreateIssued serviceId spec)
      (fun _ => CreateIssued serviceId spec) := by
  rintro w ⟨a, ha, hcall⟩
  exact (hm.keeps a).conseq (fun _ h => h) (fun _ _ h => ⟨a, h, hcall⟩) (fun _ _ h => ⟨a, h, hcall⟩) w ha

theorem query_idle {α : Type} (f : Docker → α) {P : World → Prop} {E : JsError → World → Prop}
    (hP : ∀ w, P w → P { w with calls := w.calls + 1 }) :
    Act.Triple P (query Env.idle f) (fun a w => P w ∧ a = f w.docker) E := fun w h => ⟨hP w h, rfl⟩

theorem ensureVolume_noContainers {name planId : JsString} {remove : Bool} {E : JsError → World → Prop} :
    Act.Triple NoContainers (ensureVolume Env.idle name planId serviceId remove) (fun _ => NoContainers) E := by
  refine Act.Triple.bind (query_idle _ fun _ h => h) fun existing => ?_
  cases existing with
  | some v => exact Act.Triple.pure fun _ h => h.1
  | none =>
    refine Act.Triple.bind (Q := fun _ => NoContainers) ?_ fun _ => Act.Triple.pure fun _ h => h
    rintro w ⟨h, -⟩
    exact h

theorem ensureContainer_issues :
    Act.Triple NoContainers
      (ensureContainer Env.idle (containerName serviceId) (withPrimaryNetwork serviceId spec) Env.idle.planId
        (.service serviceId))
      (fun _ => CreateIssued serviceId spec) (fun _ => CreateIssued serviceId spec) := by
  refine Act.Triple.bind (query_idle _ fun _ h => h) fun existing => ?_
  cases existing with
  | some c =>
    -- there is no container to be found
    rintro w ⟨h, hc⟩
    rw [Docker.managedContainer, show w.docker.containers = [] from h] at hc
    cases hc
  | none =>
    refine Act.Triple.bind (Q := fun _ => CreateIssued serviceId spec) ?_ fun _ => Act.Triple.pure fun _ h => h
    refine Act.Triple.bind (issue_logs.conseq (fun _ _ => trivial) (fun _ _ h => h) fun _ _ h => h) fun c => ?_
    exact Issues.keepsCreate (P := fun _ => True) (Issues.issue fun _ => trivial)

variable (serviceId spec)

theorem executeService_issues :
    Act.Triple (fun w => w = World.empty) (executeService Env.idle ds serviceId spec)
      (fun _ => CreateIssued serviceId spec) (fun _ => CreateIssued serviceId spec) := by
  refine Act.Triple.bind (Q := fun _ => NoContainers) (by rintro w rfl; rfl) fun net => ?_
  refine Act.Triple.bind (Q := fun _ => NoContainers) (Act.Triple.modify fun _ h => h) fun _ => ?_
  refine Act.Triple.bind (Q := fun _ => NoContainers) (Act.Triple.forEach fun vol _ => ?_) fun _ => ?_
  · exact Act.Triple.bind ensureVolume_noContainers fun r => Act.Triple.modify fun _ h => h
  refine Act.Triple.bind ensureContainer_issues fun r => ?_
  refine Issues.keepsCreate (P := fun _ => True) ?_
  refine (Issues.journal _ _ _ _).bind fun _ => Issues.forEach fun networkName _ => ?_
  exact (issues_connect fun _ _ _ _ _ => trivial).bind fun r => Issues.journal _ _ _ _

end EmptyHost

/-! ### Isolation -/

section Isolation

variable {sha256 : List UInt8 → JsString} {serviceId : JsString} {spec : ContainerSpec} {grants : List Grant}
  {result : ValidationResult}

/-- **Which accepted plans keep a service to its own network.** -/
theorem network_isolated_iff (h : validateContainerSpec sha256 serviceId spec grants = .ok result)
    (hok : result.ok = true) : IsolatedInEveryRun serviceId spec grants ↔ spec.ModeIsOwn serviceId := by
  have haccepted := accepted_of_ok h hok
  constructor
  · intro hrun
    have ds : DesiredState := ⟨none, [], [], List.nodup_nil⟩
    obtain ⟨a, ha, hcall⟩ := (executeService_issues ds serviceId spec).final rfl (fun _ _ h => h) fun _ _ h => h
    have hkeeps := hrun Env.idle ds World.empty _ (List.nil_append _).symm a ha
    rw [Attempt.KeepsIsolated, hcall] at hkeeps
    rw [← mayJoin_iff haccepted, ← hostNetworkMode_of_accepted Env.idle haccepted]
    exact hkeeps
  · intro hmode env ds w new hlog a ha
    have hjoin := (mayJoin_iff haccepted).mpr hmode
    have hissues : Issues (ForService env serviceId spec) _ := issues_executeService ds serviceId spec
    obtain ⟨⟨new', hnew, hall⟩, -⟩ := (hissues w.log w.ctx).final (IssuedSince.refl _ w) (fun _ _ h => h) fun _ _ h => h
    rw [hlog] at hnew
    rw [List.append_cancel_left hnew] at ha
    have hcall := (hall a ha).call
    unfold Attempt.KeepsIsolated
    revert hcall
    cases a.call with
    | createContainer o =>
      rintro rfl
      dsimp only
      rw [hostNetworkMode_of_accepted env haccepted]
      exact hjoin
    | connectNetwork id network => exact fun hcall => (primaryNetwork_of_accepted haccepted).2 network hcall.2
    | createNetwork name labels options => exact fun _ => trivial
    | createVolume name labels => exact fun _ => trivial
    | removeContainer id => exact fun _ => trivial
    | startContainer id => exact fun _ => trivial
    | removeNetwork id => exact fun _ => trivial
    | removeVolume name => exact fun _ => trivial
    | exec container cmd => exact fun _ => trivial

end Isolation

/-- A plan with nothing but an image and a network mode. -/
def modePlan (mode : JsString) : ContainerSpec where
  image := js "busybox"
  networkMode := some mode

theorem accepted_modePlan (serviceId : JsString) {mode : JsString} (h : mode ≠ js "host") :
    Accepted serviceId (modePlan mode) [anyImage] where
  image := by rfl
  mounts := by simp [modePlan, ContainerSpec.mountList]
  devices := by simp [modePlan]
  networkMode := by simp [checkNetworkMode, ContainerSpec.isHost, modePlan, h]
  privileged := by rfl
  capAdd := by simp [modePlan]
  ports := by rfl
  networks := by simp [modePlan]

/-- A service without a network. -/
theorem network_isolated_none : IsolatedInEveryRun (js "blog") (modePlan (js "none")) [anyImage] := by
  have h : validateContainerSpec (fun _ => []) (js "blog") (modePlan (js "none")) [anyImage] = .ok _ :=
    ok_of_accepted (accepted_modePlan (js "blog") (by decide))
  exact (network_isolated_iff h rfl).mpr (.inr (.inr (.inl rfl)))

/-- The orchestrator's namespace, as a network mode. -/
def orchestratorMode : JsString := js "container:wanfw-orchestrator"

/-- A host on which the orchestrator's own container runs. -/
def orchestratorWorld : World :=
  { World.empty with
    docker := { Docker.empty with
      containers := [⟨0, js "wanfw-orchestrator", [], none, [js "bridge"], js "running", []⟩]
      nextId := 1
      ids_nodup := List.nodup_singleton _
      ids_lt := by simp
      networks_lt := Docker.no_networks_lt } }

/-- A baseline plan puts its service into the namespace of the orchestrator's container. -/
theorem network_not_isolated_container :
    (∃ result, validateContainerSpec (fun _ => []) (js "blog") (modePlan orchestratorMode) [anyImage] = .ok result ∧
      result.ok = true ∧ result.tier = .baseline) ∧
    (executeService Env.idle ⟨none, [], [], List.nodup_nil⟩ (js "blog") (modePlan orchestratorMode)
      orchestratorWorld).2.docker.containers.map (fun c => (c.name, namespaceOf c.networkMode)) =
        [(js "wanfw-orchestrator", .network (js "bridge")), (js "wanfw_blog", .container (js "wanfw-orchestrator"))] ∧
    ¬ IsolatedInEveryRun (js "blog") (modePlan orchestratorMode) [anyImage] := by
  refine ⟨⟨_, ok_of_accepted (accepted_modePlan (js "blog") (by decide)), rfl, rfl⟩, by decide +kernel, fun hrun => ?_⟩
  obtain ⟨a, ha, hcall⟩ := (executeService_issues ⟨none, [], [], List.nodup_nil⟩ (js "blog")
    (modePlan orchestratorMode)).final rfl (fun _ _ h => h) fun _ _ h => h
  have hkeeps := hrun Env.idle _ World.empty _ (List.nil_append _).symm a ha
  rw [Attempt.KeepsIsolated, hcall] at hkeeps
  exact hkeeps

end Wanfw.Orchestrator
