import Wanfw.Orchestrator.Converge

/-!
# Services on the host's network

EXECUTE gives every plan a network to connect its container to: those the plan names, else
the service's own. VALIDATE admits no other name, so the loop of `connect` calls always
runs, also for a container in the host's namespace, which the Engine refuses to connect.

`host_service_iff`: such a service is brought up only if EXECUTE does not find the
container that it has just created, because the labels of the plan take away the
framework's. Everywhere else the stage ends there (`stops_at`), before the services
behind it and the proxy.
-/

namespace Wanfw.Orchestrator

open Wanfw.Js

/-! ### Calls that do not fail -/

section NoFaults

variable {α β : Type} {env : Env} {P : World → Prop} {I : Docker → Prop}

/-- From `P` the action always returns, with `Q`. -/
abbrev Succeeds (P : World → Prop) (m : M α) (Q : α → World → Prop) : Prop := Act.Triple P m Q fun _ _ => False

theorem succeeds_query (hfault : ∀ n, env.fault n = none) (f : Docker → α) :
    Succeeds (fun w => I w.docker) (query env f) fun a w => I w.docker ∧ a = f w.docker := by
  intro w hw
  simp only [query, hfault]
  exact ⟨hw, trivial⟩

theorem succeeds_issue (hfault : ∀ n, env.fault n = none) {stage : Stage} {c : Call}
    {f : Docker → Except JsError (α × Docker)} {Q : α → Docker → Prop}
    (h : ∀ d, I d → ∃ a d', f d = .ok (a, d') ∧ Q a d') :
    Succeeds (fun w => I w.docker) (issue env stage c f) fun a w => Q a w.docker := by
  intro w hw
  obtain ⟨a, d', hf, hq⟩ := h w.docker hw
  simp only [issue, hfault, hf]
  exact hq

/-- A call that the daemon rejects does not return. -/
theorem never_returns_issue {stage : Stage} {c : Call} {f : Docker → Except JsError (α × Docker)}
    (h : ∀ d, I d → ∃ e, f d = .error e) {Q : α → World → Prop} :
    Act.Returns (fun w => I w.docker) (issue env stage c f) Q := by
  refine returns_issue fun w a d hw hd => ?_
  obtain ⟨e, he⟩ := h w.docker hw
  rw [he] at hd
  cases hd

end NoFaults

/-! ### The state and the plan -/

section Host

variable {env : Env} {ds : DesiredState} {serviceId : JsString} {spec : ContainerSpec}

/-- The labels of the plan do not take `wanfw.managed` away. -/
def ContainerSpec.StaysManaged (spec : ContainerSpec) : Prop :=
  ∀ v, Obj.get (spec.labels.getD []) (js "wanfw.managed") = some v → v = js "true"

/-- No container has the name of the service's container but those the framework manages. -/
def NameIsFree (serviceId : JsString) (d : Docker) : Prop :=
  ∀ c ∈ d.containers, c.name = containerName serviceId → isManaged c.labels = true

/-- The container that EXECUTE creates for this plan of a host-network service. -/
structure CreatedFor (env : Env) (serviceId : JsString) (spec : ContainerSpec) (c : Container) : Prop where
  labels : ∃ planId, c.labels = containerLabels env (withPrimaryNetwork serviceId spec) planId (.service serviceId)
  networkMode : c.networkMode = some (js "host")
  networks : c.networks = [js "host"]

/-- Nothing else is in the way: the service's network is there or can be created, names of containers are taken
once, and a container of the framework with the plan's hash was created for the plan. -/
structure Healthy (env : Env) (serviceId : JsString) (spec : ContainerSpec) (d : Docker) : Prop where
  network : (d.managedNetwork (serviceNetworkName serviceId)).isSome ∨
    ∀ n ∈ d.networks, n.name ≠ serviceNetworkName serviceId
  names : ∀ c ∈ d.containers, ∀ c' ∈ d.containers, c.name = containerName serviceId → c'.name = c.name → c = c'
  created : ∀ c ∈ d.containers, c.name = containerName serviceId → isManaged c.labels = true →
    Obj.get c.labels (js "wanfw.confighash") = some (computeConfigHash env (withPrimaryNetwork serviceId spec)) →
    CreatedFor env serviceId spec c

variable (env serviceId) in
theorem isManaged_containerLabels (hobj : (Obj.keys (spec.labels.getD [])).Nodup) (planId : JsString) :
    isManaged (containerLabels env (withPrimaryNetwork serviceId spec) planId (.service serviceId)) = true ↔
      spec.StaysManaged := by
  have hget := @get_containerLabels env serviceId (withPrimaryNetwork serviceId spec) hobj planId (js "wanfw.managed")
  rw [show Obj.get [_, _, _, _] (js "wanfw.managed") = some (js "true") from rfl] at hget
  rw [isManaged, beq_iff_eq, hget, or_eq_some_iff_of_some]
  rfl

theorem CreatedFor.sharesNamespace {c : Container} (h : CreatedFor env serviceId spec c) : c.sharesNamespace = true := by
  rw [Container.sharesNamespace, h.networkMode]
  rfl

theorem serviceNetworkName_ne_host (serviceId : JsString) : serviceNetworkName serviceId ≠ js "host" := by
  intro h
  have hfirst := congrArg List.head? h
  rw [serviceNetworkName, show js "wanfw_svc_" = 119 :: (js "wanfw_svc_").tail from by decide] at hfirst
  revert hfirst
  simp only [List.cons_append, List.head?_cons]
  decide

theorem CreatedFor.not_mem {c : Container} (h : CreatedFor env serviceId spec c) :
    serviceNetworkName serviceId ∉ c.networks := by
  rw [h.networks, List.mem_singleton]
  exact serviceNetworkName_ne_host serviceId

/-- The container of a create call for the plan. -/
theorem createdFor_newContainer (hhost : spec.isHost = true) (d : Docker) (planId : JsString) :
    CreatedFor env serviceId spec (d.newContainer
      (createOptions env (containerName serviceId) (withPrimaryNetwork serviceId spec) planId (.service serviceId))) := by
  have hmode : spec.networkMode = some (js "host") := by simpa [ContainerSpec.isHost] using hhost
  refine ⟨⟨planId, rfl⟩, ?_, ?_⟩
  · show (spec.networkMode).or _ = _
    rw [hmode]
    rfl
  · show initialNetworks ((spec.networkMode).or _) = _
    rw [hmode]
    rfl

/-- The networks of an accepted plan, once the service's own is filled in. -/
theorem networks_withPrimaryNetwork {grants : List Grant} (h : Accepted serviceId spec grants) :
    ∃ rest, (withPrimaryNetwork serviceId spec).networks.getD [] = serviceNetworkName serviceId :: rest ∧
      ∀ n ∈ rest, n = serviceNetworkName serviceId := by
  have hown := fun n => @Accepted.network serviceId spec grants h n
  unfold withPrimaryNetwork
  rw [Option.getD_some]
  cases hnets : spec.networks.getD [] with
  | nil => exact ⟨[], rfl, by simp⟩
  | cons n rest =>
    rw [hnets] at hown
    exact ⟨rest, by rw [hown n (by simp)], fun m hm => hown m (by simp [hm])⟩

/-! ### Where the stage ends -/

/-- The service's container is found, and is one that the Engine does not connect. -/
def FoundUnconnectable (serviceId : JsString) (d : Docker) : Prop :=
  ∃ c, d.managedContainer (containerName serviceId) = some c ∧ c.sharesNamespace = true ∧
    serviceNetworkName serviceId ∉ c.networks

/-- The daemon still has the containers `cs`. -/
def SameContainers (cs : List Container) (w : World) : Prop := w.docker.containers = cs

theorem ensureNetwork_sameContainers (cs : List Container) (name : JsString) (owner : Owner)
    (options : Option NetworkDriverOptions) :
    Act.Returns (SameContainers cs) (ensureNetwork env name env.planId owner options) fun _ => SameContainers cs := by
  refine Act.Triple.bind (returns_query (Q := fun _ => SameContainers cs) fun w hw => hw) fun existing => ?_
  cases existing with
  | some n => exact Act.Triple.pure fun w hw => hw
  | none =>
    refine Act.Triple.bind (returns_issue (Q := fun _ => SameContainers cs) fun w _ d hw hd => ?_) fun _ =>
      Act.Triple.pure fun w hw => hw
    exact (Docker.containers_createNetwork hd).trans hw

theorem ensureVolume_sameContainers (cs : List Container) (name planId owner : JsString) (remove : Bool) :
    Act.Returns (SameContainers cs) (ensureVolume env name planId owner remove) fun _ => SameContainers cs := by
  refine Act.Triple.bind (returns_query (Q := fun _ => SameContainers cs) fun w hw => hw) fun existing => ?_
  cases existing with
  | some n => exact Act.Triple.pure fun w hw => hw
  | none =>
    refine Act.Triple.bind (returns_issue (Q := fun _ => SameContainers cs) fun w _ d hw hd => ?_) fun _ =>
      Act.Triple.pure fun w hw => hw
    cases hd
    exact hw

theorem journal_keeps {P : World → Prop} (hP : ∀ w rows, P w → P { w with journal := rows }) (planId step : JsString)
    (payload result : Json) {E : JsError → World → Prop} :
    Act.Triple P (journal planId step payload result) (fun _ => P) E :=
  Act.Triple.modify fun w hw => hP w _ hw

variable (env serviceId) in
/-- A container that was created for a plan whose labels leave it managed is found. -/
theorem createAndStart_found (hhost : spec.isHost = true) (hobj : (Obj.keys (spec.labels.getD [])).Nodup)
    (hmanaged : spec.StaysManaged) (P : World → Prop) :
    Act.Returns P
      (createAndStart env
        (createOptions env (containerName serviceId) (withPrimaryNetwork serviceId spec) env.planId (.service serviceId)))
      fun _ w => FoundUnconnectable serviceId w.docker := by
  refine Act.Triple.bind (Q := fun c w => w.docker.managedContainer (containerName serviceId) = some c ∧
    CreatedFor env serviceId spec c) (returns_issue fun w c d _ hd => ⟨?_, ?_⟩) fun c =>
      returns_issue fun w _ d hw hd => ?_
  · have hlabels := (isManaged_containerLabels env serviceId hobj env.planId).mpr hmanaged
    exact Docker.managedContainer_created hd (beq_iff_eq.mp hlabels)
  · unfold Docker.createContainer at hd
    split at hd <;> cases hd
    exact createdFor_newContainer hhost w.docker env.planId
  · refine ⟨{ c with state := js "running" }, ?_, hw.2.sharesNamespace, hw.2.not_mem⟩
    refine (Docker.managedContainer_started hd).trans ?_
    rw [hw.1, Option.map_some, if_pos rfl]

/-- **Before the connections**: the container is found, if the steps before them are not rejected. -/
theorem ensureContainer_found {d₀ : Docker} (hhost : spec.isHost = true) (hobj : (Obj.keys (spec.labels.getD [])).Nodup)
    (hmanaged : spec.StaysManaged) (hd₀ : Healthy env serviceId spec d₀) :
    Act.Returns (SameContainers d₀.containers)
      (ensureContainer env (containerName serviceId) (withPrimaryNetwork serviceId spec) env.planId (.service serviceId))
      fun _ w => FoundUnconnectable serviceId w.docker := by
  have hcreate := createAndStart_found env serviceId hhost hobj hmanaged
  refine Act.Triple.bind (Q := fun existing w => SameContainers d₀.containers w ∧
    existing = w.docker.managedContainer (containerName serviceId)) (returns_query fun w hw => ⟨hw, rfl⟩) fun existing => ?_
  cases existing with
  | none =>
    exact Act.Triple.bind (hcreate _) fun _ => Act.Triple.pure fun _ h => h
  | some c =>
    dsimp only
    split
    · rename_i hhash
      -- the container that is there was created for the plan
      have hcreated : ∀ w : World, SameContainers d₀.containers w →
          some c = w.docker.managedContainer (containerName serviceId) → CreatedFor env serviceId spec c := by
        intro w hw hc
        have hfound := List.find?_some hc.symm
        rw [Bool.and_eq_true, beq_iff_eq] at hfound
        exact hd₀.created c (hw ▸ (Docker.mem_managedContainer hc.symm).1) hfound.1 hfound.2 hhash
      split
      · refine Act.Triple.pure fun w hw => ⟨c, hw.2.symm, ?_, ?_⟩
        · exact (hcreated w hw.1 hw.2).sharesNamespace
        · exact (hcreated w hw.1 hw.2).not_mem
      · refine Act.Triple.bind (returns_issue (Q := fun _ w => FoundUnconnectable serviceId w.docker) fun w _ d hw hd => ?_)
          fun _ => Act.Triple.pure fun _ h => h
        have hc := hcreated w hw.1 hw.2
        refine ⟨{ c with state := js "running" }, ?_, hc.sharesNamespace, hc.not_mem⟩
        refine (Docker.managedContainer_started hd).trans ?_
        rw [← hw.2, Option.map_some, if_pos rfl]
    · refine Act.Triple.bind (returns_issue (Q := fun _ _ => True) fun w _ d hw hd => trivial) fun _ => ?_
      exact Act.Triple.bind (hcreate _) fun _ => Act.Triple.pure fun _ h => h

/-- **The Engine rejects the connection.** -/
theorem connect_never_returns :
    Act.Returns (fun w => FoundUnconnectable serviceId w.docker)
      (connect env (containerName serviceId) (serviceNetworkName serviceId)) fun _ _ => False := by
  refine Act.Triple.bind (Q := fun existing w => FoundUnconnectable serviceId w.docker ∧
    existing = w.docker.managedContainer (containerName serviceId)) (returns_query fun w hw => ⟨hw, rfl⟩) fun existing => ?_
  cases existing with
  | none =>
    refine Act.Triple.pure fun w hw => ?_
    obtain ⟨⟨c, hc, -⟩, hnone⟩ := hw
    rw [hc] at hnone
    cases hnone
  | some c =>
    dsimp only
    have hsame : ∀ d : Docker, FoundUnconnectable serviceId d ∧ some c = d.managedContainer (containerName serviceId) →
        c ∈ d.containers ∧ c.sharesNamespace = true ∧ serviceNetworkName serviceId ∉ c.networks := by
      rintro d ⟨⟨c', hc', hshares, hnot⟩, hc⟩
      rw [hc'] at hc
      cases hc
      exact ⟨(Docker.mem_managedContainer hc').1, hshares, hnot⟩
    split
    · rename_i hmem
      exact Act.Triple.pure fun w hw => (hsame w.docker hw).2.2 hmem
    · refine Act.Triple.bind (never_returns_issue (Q := fun _ _ => False) (I := fun d => FoundUnconnectable serviceId d ∧
        some c = d.managedContainer (containerName serviceId)) fun d hd => ?_) fun _ => Act.Triple.pure fun _ h => h
      obtain ⟨hc, hshares, -⟩ := hsame d hd
      have hfind : d.containers.find? (fun x => x.id == c.id) = some c := by
        cases hfound : d.containers.find? fun x => x.id == c.id with
        | none => exact absurd (List.find?_eq_none.mp hfound c hc) (by simp)
        | some x =>
          have hid : x.id = c.id := by simpa using List.find?_some hfound
          rw [Docker.eq_of_id (List.mem_of_find?_eq_some hfound) hc hid]
      unfold Docker.connectNetwork
      split
      · exact ⟨_, rfl⟩
      · rw [hfind]
        simp [hshares]

/-- A container outside of the framework's labels holds the name. -/
theorem ensureContainer_held {d₀ : Docker} (hd₀ : Healthy env serviceId spec d₀) {c : Container} (hc : c ∈ d₀.containers)
    (hname : c.name = containerName serviceId) (hforeign : isManaged c.labels = false) {Q : StepResult → World → Prop} :
    Act.Returns (SameContainers d₀.containers)
      (ensureContainer env (containerName serviceId) (withPrimaryNetwork serviceId spec) env.planId (.service serviceId))
      Q := by
  have hnone : ∀ d : Docker, d.containers = d₀.containers → d.managedContainer (containerName serviceId) = none := by
    intro d hd
    rw [Docker.managedContainer, hd, List.find?_eq_none]
    intro c' hc' hfound
    rw [Bool.and_eq_true, beq_iff_eq] at hfound
    rw [← hd₀.names c hc c' hc' hname (hfound.1.trans hname.symm), hforeign] at hfound
    exact absurd hfound.2 Bool.false_ne_true
  refine Act.Triple.bind (Q := fun existing w => SameContainers d₀.containers w ∧
    existing = w.docker.managedContainer (containerName serviceId)) (returns_query fun w hw => ⟨hw, rfl⟩) fun existing => ?_
  cases existing with
  | some c' =>
    intro w hw
    have hfound := hw.2
    rw [hnone w.docker hw.1] at hfound
    cases hfound
  | none =>
    refine Act.Triple.bind (Q := fun _ _ => False) (Act.Triple.bind (Q := fun _ _ => False) ?_ fun _ _ h => h.elim)
      fun _ _ h => h.elim
    refine (never_returns_issue (I := fun d => d.containers = d₀.containers) fun d hd => ?_).conseq (fun w hw => hw.1)
      (fun _ _ h => h) fun _ _ h => h
    have htaken : (d.containers.any fun x => x.name == containerName serviceId) = true :=
      List.any_eq_true.mpr ⟨c, hd ▸ hc, beq_iff_eq.mpr hname⟩
    exact ⟨_, if_pos htaken⟩

variable (ds) in
/-- The steps of a service whose container is found, or not created, end with an exception. -/
theorem executeService_never_returns {grants : List Grant} (haccepted : Accepted serviceId spec grants) {cs : List Container}
    (hcontainer : Act.Returns (SameContainers cs)
      (ensureContainer env (containerName serviceId) (withPrimaryNetwork serviceId spec) env.planId (.service serviceId))
      fun _ w => FoundUnconnectable serviceId w.docker) :
    Act.Returns (SameContainers cs) (executeService env ds serviceId spec) fun _ _ => False := by
  obtain ⟨rest, hnetworks, -⟩ := networks_withPrimaryNetwork haccepted
  have hsame : ∀ w rows, SameContainers cs w → SameContainers cs { w with journal := rows } := fun _ _ h => h
  unfold executeService
  refine Act.Triple.bind (ensureNetwork_sameContainers cs _ _ _) fun net => ?_
  refine Act.Triple.bind (journal_keeps hsame _ _ _ _) fun _ => ?_
  refine Act.Triple.bind (Act.Triple.forEach (I := SameContainers cs) fun vol _ => ?_) fun _ => ?_
  · exact Act.Triple.bind (ensureVolume_sameContainers cs _ _ _ _) fun r => journal_keeps hsame _ _ _ _
  refine Act.Triple.bind hcontainer fun r => ?_
  refine Act.Triple.bind (journal_keeps (fun _ _ h => h) _ _ _ _) fun _ => ?_
  rw [hnetworks, Act.forEach]
  exact Act.Triple.bind (Q := fun _ _ => False) (Act.Triple.bind connect_never_returns fun _ _ h => h.elim)
    fun _ _ h => h.elim

/-! ### Where it goes on -/

/-- The service's container is not found. -/
def NotFound (serviceId : JsString) (w : World) : Prop := w.docker.managedContainer (containerName serviceId) = none

theorem ensureNetwork_succeeds (hfault : ∀ n, env.fault n = none) {d₀ : Docker} (hd₀ : Healthy env serviceId spec d₀) :
    Succeeds (fun w => w.docker = d₀)
      (ensureNetwork env (serviceNetworkName serviceId) env.planId (.service serviceId) none)
      fun _ => SameContainers d₀.containers := by
  refine Act.Triple.bind (succeeds_query (I := fun d => d = d₀) hfault _) fun existing => ?_
  cases existing with
  | some n => exact Act.Triple.pure fun w hw => congrArg Docker.containers hw.1
  | none =>
    refine Act.Triple.bind (Q := fun _ => SameContainers d₀.containers)
      (succeeds_issue (I := fun d => d = d₀ ∧ none = d.managedNetwork (serviceNetworkName serviceId))
        (Q := fun _ d => d.containers = d₀.containers) hfault fun d hd => ?_) fun _ => Act.Triple.pure fun w hw => hw
    obtain ⟨rfl, hnone⟩ := hd
    have hfree : (d.networks.any fun n => n.name == serviceNetworkName serviceId) = false := by
      rcases hd₀.network with hsome | hfree
      · rw [← hnone] at hsome
        cases hsome
      · rw [List.any_eq_false]
        exact fun n hn => by simpa using hfree n hn
    unfold Docker.createNetwork
    rw [hfree, if_neg Bool.false_ne_true]
    exact ⟨_, _, rfl, rfl⟩

theorem ensureVolume_succeeds (hfault : ∀ n, env.fault n = none) (cs : List Container) (name planId owner : JsString)
    (remove : Bool) :
    Succeeds (SameContainers cs) (ensureVolume env name planId owner remove) fun _ => SameContainers cs := by
  refine Act.Triple.bind (Q := fun _ => SameContainers cs) ((succeeds_query (I := fun d => d.containers = cs) hfault _).conseq
    (fun _ h => h) (fun _ _ h => h.1) fun _ _ h => h) fun existing => ?_
  cases existing with
  | some n => exact Act.Triple.pure fun w hw => hw
  | none =>
    refine Act.Triple.bind (Q := fun _ => SameContainers cs) (succeeds_issue (I := fun d => d.containers = cs)
      (Q := fun _ d => d.containers = cs) hfault fun d hd => ?_) fun _ => Act.Triple.pure fun w hw => hw
    exact ⟨_, _, rfl, hd⟩

variable (serviceId) in
/-- A container whose labels take the framework's away is created, started and not found. -/
theorem createAndStart_hidden (hfault : ∀ n, env.fault n = none) (hobj : (Obj.keys (spec.labels.getD [])).Nodup)
    (hhidden : ¬ spec.StaysManaged) :
    Succeeds (fun w => ∀ c ∈ w.docker.containers, c.name ≠ containerName serviceId)
      (createAndStart env
        (createOptions env (containerName serviceId) (withPrimaryNetwork serviceId spec) env.planId (.service serviceId)))
      fun _ => NotFound serviceId := by
  have hlabels : isManaged (containerLabels env (withPrimaryNetwork serviceId spec) env.planId (.service serviceId)) = false :=
    Bool.eq_false_iff.mpr fun h => hhidden ((isManaged_containerLabels env serviceId hobj env.planId).mp h)
  refine Act.Triple.bind (Q := fun c w => c ∈ w.docker.containers ∧ NotFound serviceId w)
    (succeeds_issue (I := fun d => ∀ c ∈ d.containers, c.name ≠ containerName serviceId)
      (Q := fun c d => c ∈ d.containers ∧ d.managedContainer (containerName serviceId) = none) hfault fun d hd => ?_)
    fun c => succeeds_issue (I := fun d => c ∈ d.containers ∧ d.managedContainer (containerName serviceId) = none)
      (Q := fun _ d => d.managedContainer (containerName serviceId) = none) hfault fun d hd => ?_
  · have hfree : (d.containers.any fun x => x.name == containerName serviceId) = false := by
      rw [List.any_eq_false]
      exact fun x hx => by simpa using hd x hx
    unfold Docker.createContainer
    refine ⟨_, _, if_neg (by simpa [createOptions] using hfree), List.mem_append_right _ (List.mem_singleton_self _), ?_⟩
    rw [Docker.managedContainer, List.find?_append, List.find?_eq_none.mpr, Option.none_or, List.find?_eq_none]
    · intro x hx
      rw [List.mem_singleton.mp hx]
      simp [Docker.newContainer, createOptions, hlabels]
    · intro x hx
      simp [hd x hx]
  · have hthere : (d.containers.any fun x => x.id == c.id) = true := List.any_eq_true.mpr ⟨c, hd.1, beq_self_eq_true _⟩
    have hstarted : ∃ d', d.startContainer c.id = .ok ((), d') := by
      unfold Docker.startContainer
      rw [if_pos hthere]
      exact ⟨_, rfl⟩
    obtain ⟨d', hd'⟩ := hstarted
    refine ⟨(), d', hd', ?_⟩
    rw [Docker.managedContainer_started hd', hd.2, Option.map_none]

theorem ensureContainer_hidden (hfault : ∀ n, env.fault n = none) (hobj : (Obj.keys (spec.labels.getD [])).Nodup)
    (hhidden : ¬ spec.StaysManaged) {d₀ : Docker} (hd₀ : Healthy env serviceId spec d₀) (hfree : NameIsFree serviceId d₀) :
    Succeeds (SameContainers d₀.containers)
      (ensureContainer env (containerName serviceId) (withPrimaryNetwork serviceId spec) env.planId (.service serviceId))
      fun _ => NotFound serviceId := by
  have hcreate := createAndStart_hidden serviceId hfault hobj hhidden
  refine Act.Triple.bind (succeeds_query (I := fun d => d.containers = d₀.containers) hfault _) fun existing => ?_
  cases existing with
  | none =>
    refine Act.Triple.bind (hcreate.conseq (fun w hw c hc hname => ?_) (fun _ _ h => h) fun _ _ h => h) fun _ =>
      Act.Triple.pure fun _ h => h
    -- a container of the name would be one of the framework's, and found
    have hmanaged := hfree c (hw.1 ▸ hc) hname
    have hnone := List.find?_eq_none.mp hw.2.symm c hc
    simp [hname, hmanaged] at hnone
  | some c =>
    have hthere : ∀ d : Docker, d.containers = d₀.containers ∧ some c = d.managedContainer (containerName serviceId) →
        c ∈ d.containers ∧ c.name = containerName serviceId ∧ isManaged c.labels = true := by
      rintro d ⟨-, hc⟩
      have hfound := List.find?_some hc.symm
      rw [Bool.and_eq_true, beq_iff_eq] at hfound
      exact ⟨List.mem_of_find?_eq_some hc.symm, hfound⟩
    dsimp only
    split
    · rename_i hhash
      intro w hw
      obtain ⟨hc, hname, hmanaged⟩ := hthere w.docker hw
      obtain ⟨planId, hlabels⟩ := (hd₀.created c (hw.1 ▸ hc) hname hmanaged hhash).labels
      rw [hlabels, isManaged_containerLabels env serviceId hobj] at hmanaged
      exact absurd hmanaged hhidden
    · refine Act.Triple.bind (Q := fun _ w => ∀ x ∈ w.docker.containers, x.name ≠ containerName serviceId)
        (succeeds_issue (I := fun d => d.containers = d₀.containers ∧ some c = d.managedContainer (containerName serviceId))
          (Q := fun _ d => ∀ x ∈ d.containers, x.name ≠ containerName serviceId) hfault fun d hd => ?_) fun _ =>
          Act.Triple.bind hcreate fun _ => Act.Triple.pure fun _ h => h
      obtain ⟨hc, hname, -⟩ := hthere d hd
      have hremove : (d.containers.any fun x => x.id == c.id) = true := List.any_eq_true.mpr ⟨c, hc, beq_self_eq_true _⟩
      refine ⟨_, _, if_pos hremove, fun x hx hxname => ?_⟩
      rw [List.mem_filter, bne_iff_ne] at hx
      have hsame := hd₀.names c (hd.1 ▸ hc) x (hd.1 ▸ hx.1) hname (hxname.trans hname.symm)
      exact hx.2 (by rw [hsame])

theorem connect_hidden (hfault : ∀ n, env.fault n = none) (networkName : JsString) :
    Succeeds (NotFound serviceId) (connect env (containerName serviceId) networkName) fun _ => NotFound serviceId := by
  refine Act.Triple.bind (succeeds_query (I := fun d => d.managedContainer (containerName serviceId) = none) hfault _)
    fun existing => ?_
  cases existing with
  | none => exact Act.Triple.pure fun w hw => hw.1
  | some c =>
    intro w hw
    have hfound := hw.2
    rw [hw.1] at hfound
    cases hfound

variable (ds) in
theorem executeService_succeeds (hfault : ∀ n, env.fault n = none) (hobj : (Obj.keys (spec.labels.getD [])).Nodup)
    (hhidden : ¬ spec.StaysManaged) {d₀ : Docker} (hd₀ : Healthy env serviceId spec d₀) (hfree : NameIsFree serviceId d₀) :
    Succeeds (fun w => w.docker = d₀) (executeService env ds serviceId spec) fun _ _ => True := by
  have hsame : ∀ w rows, SameContainers d₀.containers w → SameContainers d₀.containers { w with journal := rows } :=
    fun _ _ h => h
  unfold executeService
  refine Act.Triple.bind (ensureNetwork_succeeds hfault hd₀) fun net => ?_
  refine Act.Triple.bind (journal_keeps hsame _ _ _ _) fun _ => ?_
  refine Act.Triple.bind (Act.Triple.forEach (I := SameContainers d₀.containers) fun vol _ => ?_) fun _ => ?_
  · exact Act.Triple.bind (ensureVolume_succeeds hfault _ _ _ _ _) fun r => journal_keeps hsame _ _ _ _
  refine Act.Triple.bind (ensureContainer_hidden hfault hobj hhidden hd₀ hfree) fun r => ?_
  refine Act.Triple.bind (journal_keeps (fun _ _ h => h) _ _ _ _) fun _ => ?_
  refine (Act.Triple.forEach (I := NotFound serviceId) fun networkName _ => ?_).conseq (fun _ h => h) (fun _ _ _ => trivial)
    fun _ _ h => h
  exact Act.Triple.bind (connect_hidden hfault networkName) fun r => journal_keeps (fun _ _ h => h) _ _ _ _

variable (ds) in
/-- **One service.** It is brought up exactly when its labels hide the container and nobody else has its name. -/
theorem executeService_returns_iff (hfault : ∀ n, env.fault n = none) (hhost : spec.isHost = true) {grants : List Grant}
    (haccepted : Accepted serviceId spec grants) (hobj : (Obj.keys (spec.labels.getD [])).Nodup) {w : World}
    (hd : Healthy env serviceId spec w.docker) :
    (executeService env ds serviceId spec w).1 = .ok () ↔ ¬ spec.StaysManaged ∧ NameIsFree serviceId w.docker := by
  constructor
  · intro hok
    by_contra hcond
    have hcontainer : Act.Returns (SameContainers w.docker.containers)
        (ensureContainer env (containerName serviceId) (withPrimaryNetwork serviceId spec) env.planId (.service serviceId))
        fun _ w => FoundUnconnectable serviceId w.docker := by
      by_cases hstays : spec.StaysManaged
      · exact ensureContainer_found hhost hobj hstays hd
      · have hheld : ¬ NameIsFree serviceId w.docker := fun hfree => hcond ⟨hstays, hfree⟩
        unfold NameIsFree at hheld
        push Not at hheld
        obtain ⟨c, hc, hname, hforeign⟩ := hheld
        exact ensureContainer_held hd hc hname (Bool.eq_false_iff.mpr hforeign)
    have hnever := executeService_never_returns ds haccepted hcontainer w rfl
    rcases hrun : executeService env ds serviceId spec w with ⟨r, w'⟩
    rw [hrun] at hok hnever
    cases hok
    exact hnever
  · rintro ⟨hhidden, hfree⟩
    have hsucceeds := executeService_succeeds ds hfault hobj hhidden hd hfree w rfl
    rcases hrun : executeService env ds serviceId spec w with ⟨r, w'⟩
    rw [hrun] at hsucceeds
    cases r with
    | ok _ => rfl
    | error e => exact hsucceeds.elim

end Host

/-! ### The whole stage -/

section Stage

variable (env : Env) (ds : DesiredState) (graph : PlanGraph) (gate : Option (Obj GatedService))

/-- EXECUTE, with these services left to do. -/
def executeFrom (entries : List (JsString × ContainerSpec)) : M StageResult := do
  match ← Act.forReturn entries (executeEntry env ds gate) with
  | some e => return some e
  | none =>
    match ← executeNetworkPlan env graph with
    | some e => return some e
    | none => executeProxyRender env graph

variable {env ds graph gate}

theorem executeGraph_eq_executeFrom : executeGraph env ds graph gate = executeFrom env ds graph gate graph.servicePlans := rfl

theorem forReturn_append {α β σ : Type} {xs ys : List α} {body : α → Act σ (Option β)} {s s' : σ}
    (h : Act.forReturn xs body s = (.ok none, s')) : Act.forReturn (xs ++ ys) body s = Act.forReturn ys body s' := by
  induction xs generalizing s with
  | nil =>
    cases h
    rfl
  | cons x xs ih =>
    rw [Act.forReturn, Act.bind_apply] at h
    rw [List.cons_append, Act.forReturn, Act.bind_apply]
    rcases hx : body x s with ⟨r, t⟩
    rw [hx] at h
    cases r with
    | error e => cases h
    | ok b =>
      cases b with
      | some b => cases h
      | none => exact ih h

/-- The services that are done are behind the stage. -/
theorem executeFrom_append {before rest : List (JsString × ContainerSpec)} {w w₁ : World}
    (h : Act.forReturn before (executeEntry env ds gate) w = (.ok none, w₁)) :
    executeFrom env ds graph gate (before ++ rest) w = executeFrom env ds graph gate rest w₁ := by
  simp only [executeFrom, Act.bind_apply, forReturn_append h]

variable (env ds graph gate)

/-- From `w₁` on the service `e` makes no call that is rejected, and EXECUTE goes on with those `after` it. -/
def GoesOn (e : JsString × ContainerSpec) (after : List (JsString × ContainerSpec)) (w w₁ : World) : Prop :=
  ∃ w₂, executeEntry env ds gate e w₁ = (.ok none, w₂) ∧
    executeGraph env ds graph gate w = executeFrom env ds graph gate after w₂

/-- The run ends at the service `e`, with a failure of the stage. -/
def StopsAt (e : JsString × ContainerSpec) (w w₁ : World) : Prop :=
  ∃ message w₂, executeEntry env ds gate e w₁ = (.ok (some ⟨js "execute", some e.1, message⟩), w₂) ∧
    executeGraph env ds graph gate w = (.ok (some ⟨js "execute", some e.1, message⟩), w₂)

variable {env ds graph gate} {e : JsString × ContainerSpec} {before after : List (JsString × ContainerSpec)} {w w₁ : World}

theorem executeEntry_ok (hgate : isParked gate e.1 = false) {w₂ : World}
    (h : executeService env ds e.1 e.2 w₁ = (.ok (), w₂)) : executeEntry env ds gate e w₁ = (.ok none, w₂) := by
  rw [executeEntry, hgate, if_neg Bool.false_ne_true, Act.tryCatch, Act.bind_apply, h]
  rfl

theorem executeEntry_error (hgate : isParked gate e.1 = false) {err : JsError} {w₂ : World}
    (h : executeService env ds e.1 e.2 w₁ = (.error err, w₂)) :
    ∃ w₃, executeEntry env ds gate e w₁ = (.ok (some ⟨js "execute", some e.1, err.message⟩), w₃) := by
  rw [executeEntry, hgate, if_neg Bool.false_ne_true, Act.tryCatch, Act.bind_apply, h]
  exact ⟨_, rfl⟩

/-- A service that is not parked: its steps return and the stage goes on, or they throw and it stops. -/
theorem goesOn_or_stopsAt (hgraph : graph.servicePlans = before ++ e :: after) (hgate : isParked gate e.1 = false)
    (hbefore : Act.forReturn before (executeEntry env ds gate) w = (.ok none, w₁)) :
    (GoesOn env ds graph gate e after w w₁ ↔ (executeService env ds e.1 e.2 w₁).1 = .ok ()) ∧
      ((executeService env ds e.1 e.2 w₁).1 ≠ .ok () → StopsAt env ds graph gate e w w₁) := by
  have hat : executeGraph env ds graph gate w = executeFrom env ds graph gate (e :: after) w₁ := by
    rw [executeGraph_eq_executeFrom, hgraph, executeFrom_append hbefore]
  rcases hrun : executeService env ds e.1 e.2 w₁ with ⟨r, w₂⟩
  cases r with
  | ok _ =>
    have hentry := executeEntry_ok hgate hrun
    have hon : executeGraph env ds graph gate w = executeFrom env ds graph gate after w₂ := by
      have hone : Act.forReturn [e] (executeEntry env ds gate) w₁ = (.ok none, w₂) := by
        simp [Act.forReturn, Act.bind_apply, hentry]
      exact hat.trans (executeFrom_append hone)
    exact ⟨⟨fun _ => rfl, fun _ => ⟨w₂, hentry, hon⟩⟩, fun hne => absurd rfl hne⟩
  | error err =>
    obtain ⟨w₃, hentry⟩ := executeEntry_error hgate hrun
    refine ⟨⟨?_, fun hok => by cases hok⟩, fun _ => ⟨err.message, w₃, hentry, ?_⟩⟩
    · rintro ⟨w₄, hon, -⟩
      rw [hentry] at hon
      cases hon
    · rw [hat]
      simp only [executeFrom, Act.forReturn, Act.bind_apply, hentry]
      rfl

/-- **Host-network services.** Such a service, accepted and approved, in a state in which nothing else is in its way:
EXECUTE goes on past it exactly when the plan's labels hide the container and nobody else has its name. Otherwise the
stage ends there. -/
theorem host_service_iff {sha256 : List UInt8 → JsString} {serviceId : JsString} {spec : ContainerSpec} {grants : List Grant}
    {result : ValidationResult} (hfault : ∀ n, env.fault n = none)
    (hgraph : graph.servicePlans = before ++ (serviceId, spec) :: after)
    (hhost : spec.networkMode = some (js "host")) (hobj : (Obj.keys (spec.labels.getD [])).Nodup)
    (hvalid : validateContainerSpec sha256 serviceId spec grants = .ok result) (haccepted : result.ok = true)
    (hgate : isParked gate serviceId = false)
    (hbefore : Act.forReturn before (executeEntry env ds gate) w = (.ok none, w₁))
    (hd : Healthy env serviceId spec w₁.docker) :
    (GoesOn env ds graph gate (serviceId, spec) after w w₁ ↔ ¬ spec.StaysManaged ∧ NameIsFree serviceId w₁.docker) ∧
      (¬ (¬ spec.StaysManaged ∧ NameIsFree serviceId w₁.docker) → StopsAt env ds graph gate (serviceId, spec) w w₁) := by
  have hservice := executeService_returns_iff ds hfault (by simp [ContainerSpec.isHost, hhost])
    (accepted_of_ok hvalid haccepted) hobj hd
  obtain ⟨hon, hstop⟩ := goesOn_or_stopsAt hgraph hgate hbefore
  exact ⟨hon.trans hservice, fun hcond => hstop fun hok => hcond (hservice.mp hok)⟩

end Stage

/-! ### A service for discovery on the local network -/

/-- A plan with host networking and nothing else. -/
def dlnaPlan : ContainerSpec := { image := js "dlna", networkMode := some (js "host") }

/-- The grants for it. -/
def dlnaGrants : List Grant := [anyImage, ⟨js "docker.network.host", .obj []⟩]

/-- The plan alone. -/
def dlnaGraph : PlanGraph where
  networkPlan := none
  servicePlans := [(js "dlna", dlnaPlan)]
  routes := []
  proxyRender := none
  certNames := []
  plans_nodup := List.nodup_singleton _
  plans_plain := by decide

/-- The plan was approved. -/
def dlnaGate : Obj GatedService :=
  [(js "dlna", { serviceId := js "dlna", tier := .powerful, projectionHash := js "p", humanRendering := js "image: dlna",
                 approved := true, banners := [] })]

theorem valid_dlnaPlan : ∃ result, validateContainerSpec (fun _ => []) (js "dlna") dlnaPlan dlnaGrants = .ok result ∧
    result.ok = true :=
  ⟨resultOf (fun _ => []) (js "dlna") dlnaPlan [], by rfl, by rfl⟩

theorem healthy_empty (serviceId : JsString) (spec : ContainerSpec) : Healthy Env.idle serviceId spec Docker.empty where
  network := .inr (by simp [Docker.empty])
  names := by simp [Docker.empty]
  created := by simp [Docker.empty]

/-- EXECUTE on an empty host stops at it. -/
theorem dlna_stops : StopsAt Env.idle ⟨none, [], [], List.nodup_nil⟩ dlnaGraph (some dlnaGate) (js "dlna", dlnaPlan)
    World.empty World.empty := by
  obtain ⟨result, hvalid, hok⟩ := valid_dlnaPlan
  have hgraph : dlnaGraph.servicePlans = [] ++ (js "dlna", dlnaPlan) :: [] := rfl
  have hlabels : (Obj.keys (dlnaPlan.labels.getD [])).Nodup := List.nodup_nil
  refine (host_service_iff (fun _ => rfl) hgraph rfl hlabels hvalid hok rfl rfl (healthy_empty _ _)).2 fun hcond => ?_
  exact hcond.1 fun v hv => by cases hv

/-- The plan is accepted and approved, and the stage fails on it: the daemon refuses the connection. -/
theorem dlna_not_executed :
    (∃ result, validateContainerSpec (fun _ => []) (js "dlna") dlnaPlan dlnaGrants = .ok result ∧ result.ok = true) ∧
      isParked (some dlnaGate) (js "dlna") = false ∧
      (executeGraph Env.idle ⟨none, [], [], List.nodup_nil⟩ dlnaGraph (some dlnaGate) World.empty).1 =
        .ok (some ⟨js "execute", some (js "dlna"),
          js "container sharing network namespace with another container or host cannot be connected"⟩) :=
  ⟨valid_dlnaPlan, by decide, by decide +kernel⟩

end Wanfw.Orchestrator
