import Wanfw.Orchestrator.Pipeline

/-!
# The network plan

A network provider answers `network.plan` with the exposure network, its driver and
parent interface, and the host ports of the proxy. EXECUTE creates that network and
publishes those ports on `wanfw-proxy`. The manifests of the providers declare
`docker.network.provision` and `docker.ports.publish` as enforced, yet VALIDATE
goes over the service plans alone: no stage compares a network plan with the
provider's grants.

`network_plan_covered_iff`: the Docker calls made for a network plan are covered by
the provider's grants in every run exactly when the plan asks for nothing or the
grants happen to cover it.
-/

namespace Wanfw.Orchestrator

open Wanfw.Js

/-! ### Coverage -/

/-- The driver the exposure network is created with; Docker's own default is `bridge`. -/
def NetworkPlan.driver (plan : NetworkPlan) (network : JsString) : JsString :=
  ((exposureNetworkDriverOptions plan network).bind (·.driver)).getD (js "bridge")

/-- The parent interface the exposure network is created with. -/
def NetworkPlan.parent (plan : NetworkPlan) (network : JsString) : Option JsString :=
  (exposureNetworkDriverOptions plan network).bind (·.parent)

/-- A live grant of the plugin, with a scope that can be read. -/
def Store.Grants (store : Store) (pluginId cap : JsString) (p : Json → Prop) : Prop :=
  ∃ row ∈ store.listGrants pluginId, row.cap = cap ∧ ∃ scope, row.scope = some scope ∧ p scope

/-- The scope `{ ports }` of `docker.ports.publish` lists the port. -/
def PortInScope (port : Decimal) (scope : Json) : Prop :=
  ∃ ports, scopeField scope (js "ports") = .ok ports ∧ matchPort ports port = .ok true

/-- The scope `{ mode, parent? }` of `docker.network.provision` allows the driver and the parent. -/
def NetworkInScope (driver : JsString) (parent : Option JsString) (scope : Json) : Prop :=
  scope.prop (js "mode") = some (.str driver) ∧
    (scope.prop (js "parent") = none ∨ scope.prop (js "parent") = parent.map .str)

/-- The provider's live grants cover every host port and the network of its plan. -/
structure NetworkPlan.Covered (plan : NetworkPlan) (store : Store) (provider network : JsString) : Prop where
  ports : ∀ port ∈ plan.hostPorts, store.Grants provider (js "docker.ports.publish") (PortInScope port)
  network : store.Grants provider (js "docker.network.provision")
    (NetworkInScope (plan.driver network) (plan.parent network))

/-- In this environment the provider is bound, answers with the plan, and has the grants of the store. -/
structure Provides (env : Env) (provider : JsString) (plan : NetworkPlan) (store : Store) : Prop where
  bound : ∃ ds framework, env.load = .ok ds ∧ ds.framework = some framework ∧
    truthy (Obj.get framework.roles (js "networkProvider")) = some provider ∧
    env.networkPlan provider (networkRequest framework) = .ok (some plan)
  store : env.validateStore = store

/-- A call that EXECUTE makes for a network plan: the network of the core, or the proxy container. -/
def Attempt.ForNetworkPlan (a : Attempt) : Prop :=
  a.stage = .execute ∧
    match a.call with
    | .createNetwork _ labels _ => Obj.get labels (js "wanfw.core") = some (js "true")
    | .createContainer o => o.name = proxyContainerName
    | .startContainer id => a.Names id proxyContainerName
    | .removeContainer id => a.Names id proxyContainerName
    | .connectNetwork id _ => a.Names id proxyContainerName
    | _ => False

/-! ### Which calls are made for it -/

section Calls

variable {env : Env} {a : Attempt}

theorem networkLabels_core (name planId : JsString) :
    Obj.get (networkLabels env name planId .core) (js "wanfw.core") = some (js "true") := by
  rw [networkLabels, baseLabels, Obj.get_spread _ _ (by simp [Obj.keys, Owner.labels]; decide)]
  rfl

theorem networkLabels_service (name planId serviceId : JsString) :
    Obj.get (networkLabels env name planId (.service serviceId)) (js "wanfw.core") = none := by
  rw [networkLabels, baseLabels, Obj.get_spread _ _ (by simp [Obj.keys, Owner.labels]; decide)]
  rfl

/-- The calls for a service are not made for the network plan. -/
theorem ForService.not_forNetworkPlan {serviceId : JsString} {spec : ContainerSpec}
    (h : ForService env serviceId spec a) : ¬ a.ForNetworkPlan := by
  rintro ⟨-, hcall⟩
  have hfor := h.call
  have hne := containerName_ne_proxy serviceId
  revert hfor hcall
  cases a.call with
  | createNetwork name labels options =>
    rintro hcall ⟨-, rfl, -⟩
    have hcore : Obj.get (networkLabels env name env.planId (.service serviceId)) (js "wanfw.core") = some (js "true") :=
      hcall
    rw [networkLabels_service] at hcore
    cases hcore
  | createContainer o =>
    rintro hcall rfl
    exact hne hcall.symm
  | startContainer id => exact fun hcall hfor => hne (hcall.unique hfor)
  | removeContainer id => exact fun hcall hfor => hne (hcall.unique hfor)
  | connectNetwork id network => exact fun hcall hfor => hne (hcall.unique hfor.1)
  | createVolume name labels => exact fun hcall _ => hcall
  | removeNetwork id => exact fun hcall _ => hcall
  | removeVolume name => exact fun hcall _ => hcall
  | exec container cmd => exact fun hcall _ => hcall

/-- A call for the network plan comes from a plan with an exposure network. -/
theorem forNetworkPlan_of_run (h : ForRun env a) (ha : a.ForNetworkPlan) :
    ∃ ds framework plan network, env.load = .ok ds ∧ ds.framework = some framework ∧
      planNetwork env framework = .ok (some plan) ∧ plan.exposureNetwork = some network := by
  rcases h with ⟨ds, framework, graph, validation, hprep, hservice | hproxy | hexec⟩ | hcollect
  · obtain ⟨id, spec, -, -, hfor⟩ := hservice
    exact absurd ha hfor.not_forNetworkPlan
  · obtain ⟨plan, network, hplan, hnetwork, -⟩ := hproxy
    exact ⟨ds, framework, plan, network, hprep.loaded, hprep.bound, hplan ▸ (planOf_ok hprep.planned).1, hnetwork⟩
  · obtain ⟨-, cmd, hcall⟩ := hexec
    simp only [Attempt.ForNetworkPlan, hcall, and_false] at ha
  · have := hcollect.1
    rw [ha.1] at this
    cases this

end Calls

/-! ### A run on an empty host -/

section EmptyHost

variable (provider : JsString) (plan : NetworkPlan) (store : Store)

/-- A framework document that binds the provider and no other plugin. -/
def providerFramework : Framework where
  domain := none
  roles := [(js "networkProvider", provider)]
  strictApprovals := none
  macvlan := none

/-- No service, one network provider, and nothing fails. -/
def providerEnv : Env :=
  { Env.idle with
    load := .ok ⟨some (providerFramework provider), [], [], List.nodup_nil⟩
    networkPlan := fun _ _ => .ok (some plan)
    validateStore := store
    gateStore := store }

/-- The world EXECUTE finds. -/
def plannedWorld : World :=
  { World.empty with
    roles := [(js "networkProvider", provider)]
    ctx := {
      desiredState := some ⟨some (providerFramework provider), [], [], List.nodup_nil⟩
      planGraph := some (.empty (some plan))
      validation := some []
      gateSnapshot := some [] } }

theorem runStages_of_ok (env : Env) (xs ys : List Stage) (w : World) {w' : World} (h : runStages env xs w = (.ok none, w')) :
    runStages env (xs ++ ys) w = runStages env ys w' := by
  induction xs generalizing w with
  | nil =>
    cases h
    rfl
  | cons stage xs ih =>
    rw [List.cons_append]
    rw [runStages, Act.bind_apply] at h ⊢
    split at h
    · rename_i r w₁ hstage
      cases r with
      | none => exact ih w₁ h
      | some e => cases h
    · cases h

/-- PLAN hands the provider's plan on, and VALIDATE and GATE let it pass. -/
theorem runStages_planned (u : UInt16) (us : JsString) :
    runStages (providerEnv (u :: us) plan store) [.load, .resolve, .plan, .renewal, .validate, .gate] World.empty =
      (.ok none, plannedWorld (u :: us) plan) := by
  rfl

/-- The call that creates the exposure network. -/
def networkAttempt (network : JsString) : Attempt where
  stage := .execute
  before := .empty
  call := .createNetwork network (networkLabels (providerEnv provider plan store) network (js "plan-1") .core)
    (exposureNetworkDriverOptions plan network)

variable {provider : JsString} {plan : NetworkPlan} {store : Store} {network : JsString}

/-- EXECUTE for the plan creates its network. -/
theorem executeProxy_creates (serviceIds : List JsString) :
    Act.Triple (fun w => w = plannedWorld provider plan)
      (executeProxy (providerEnv provider plan store) plan network serviceIds)
      (fun _ w => networkAttempt provider plan store network ∈ w.log)
      (fun _ w => networkAttempt provider plan store network ∈ w.log) := by
  refine Act.Triple.bind (Q := fun _ w => networkAttempt provider plan store network ∈ w.log) ?_ fun net => ?_
  · rintro w rfl
    exact List.mem_singleton_self _
  · refine Issues.keeps (P := fun _ => True) ?_ _
    refine (Issues.journal _ _ _ _).bind fun _ => ?_
    refine (issues_ensureContainer fun _ _ => trivial).bind fun r => ?_
    refine (Issues.journal _ _ _ _).bind fun _ => Issues.forEach fun networkName _ => ?_
    exact (issues_connect fun _ _ _ _ _ => trivial).bind fun r => Issues.journal _ _ _ _

theorem executeStage_creates (hnetwork : plan.exposureNetwork = some network) :
    Act.Triple (fun w => w = plannedWorld provider plan) (executeStage (providerEnv provider plan store))
      (fun _ w => networkAttempt provider plan store network ∈ w.log)
      (fun _ w => networkAttempt provider plan store network ∈ w.log) := by
  refine Act.Triple.getBind ?_
  rintro w rfl
  refine Act.Triple.bind (Q := fun _ w => networkAttempt provider plan store network ∈ w.log) ?_ fun r => ?_
  · refine Act.Triple.bind (Q := fun r w => r = none ∧ w = plannedWorld provider plan)
      (Act.Triple.pure fun w hw => ⟨rfl, hw⟩) fun r => ?_
    cases r with
    | some e => exact Act.Triple.pure fun w h => absurd h.1 (by simp)
    | none =>
      refine Act.Triple.bind (Q := fun _ w => networkAttempt provider plan store network ∈ w.log) ?_ fun r => ?_
      · simp only [executeNetworkPlan, plannedWorld, PlanGraph.empty, hnetwork]
        refine Act.Triple.tryCatch (Act.Triple.bind ((executeProxy_creates _).conseq (fun _ h => h.2) (fun _ _ h => h)
          fun _ _ h => h) fun _ => Act.Triple.pure fun _ h => h) fun e => ?_
        exact Issues.keeps (P := fun _ => True) (Issues.failStep _ _ _ _) _
      · cases r with
        | some e => exact Act.Triple.pure fun _ h => h
        | none => exact (issues_executeProxyRender _).keeps _
  · cases r with
    | some e => exact Act.Triple.pure fun _ h => h
    | none => exact Act.Triple.bind (Act.Triple.modify fun _ h => h) fun _ => Act.Triple.pure fun _ h => h

theorem observeStage_keeps (env : Env) (a : Attempt) :
    Act.Triple (fun w => a ∈ w.log) (observeStage env) (fun _ w => a ∈ w.log) (fun _ w => a ∈ w.log) := by
  refine Act.Triple.getBind fun w hw => ?_
  have start : ∀ w', w' = w → a ∈ w'.log := fun w' h => h ▸ hw
  split
  · exact Act.Triple.pure start
  · split
    · exact Act.Triple.pure start
    · exact Act.Triple.bind (((issues_observeBody _ w.ctx).keeps a).conseq start (fun _ _ h => h) fun _ _ h => h) fun _ =>
        Act.Triple.pure fun _ h => h

theorem provides_providerEnv (hprovider : provider ≠ []) :
    Provides (providerEnv provider plan store) provider plan store := by
  refine ⟨⟨_, _, rfl, rfl, ?_, rfl⟩, rfl⟩
  obtain ⟨u, us, rfl⟩ := List.exists_cons_of_ne_nil hprovider
  rfl

/-- **A run creates the network of any plan**, whatever the provider's grants. -/
theorem run_creates (hprovider : provider ≠ []) (hnetwork : plan.exposureNetwork = some network) :
    networkAttempt provider plan store network ∈ (runOnce (providerEnv provider plan store) World.empty).2.log := by
  obtain ⟨u, us, rfl⟩ := List.exists_cons_of_ne_nil hprovider
  have hrun : Act.Triple (fun w => w = plannedWorld (u :: us) plan)
      (runStages (providerEnv (u :: us) plan store) [.execute, .observe])
      (fun _ w => networkAttempt (u :: us) plan store network ∈ w.log)
      (fun _ w => networkAttempt (u :: us) plan store network ∈ w.log) := by
    refine runStages_cons (Q := fun w => networkAttempt (u :: us) plan store network ∈ w.log)
      ((executeStage_creates hnetwork).conseq (fun _ h => h) (fun _ _ h => ⟨h, fun _ => h⟩) fun _ _ h => h) ?_
    refine runStages_cons (Q := fun w => networkAttempt (u :: us) plan store network ∈ w.log)
      ((observeStage_keeps _ _).conseq (fun _ h => h) (fun _ _ h => ⟨h, fun _ => h⟩) fun _ _ h => h) ?_
    exact Act.Triple.pure fun _ h => h
  have hstages : runStages (providerEnv (u :: us) plan store) stages World.empty =
      runStages (providerEnv (u :: us) plan store) [.execute, .observe] (plannedWorld (u :: us) plan) :=
    runStages_of_ok _ [.load, .resolve, .plan, .renewal, .validate, .gate] _ _ (runStages_planned plan store u us)
  have hall : Act.Triple (fun w => w = World.empty) (runOnce (providerEnv (u :: us) plan store))
      (fun _ w => networkAttempt (u :: us) plan store network ∈ w.log)
      (fun _ w => networkAttempt (u :: us) plan store network ∈ w.log) := by
    refine Act.Triple.bind (Q := fun _ w => w = World.empty) (Act.Triple.modify (by rintro w rfl; rfl)) fun _ => ?_
    refine Act.Triple.bind (Q := fun _ w => networkAttempt (u :: us) plan store network ∈ w.log) ?_ fun lastError => ?_
    · rintro w rfl
      rw [hstages]
      exact hrun _ rfl
    · refine Act.Triple.getBind fun w hw => ?_
      split <;> exact Act.Triple.pure fun w' h => h ▸ hw
  exact hall.final rfl (fun _ _ h => h) fun _ _ h => h

end EmptyHost

/-! ### What the manifests declare -/

/-- In every run, each Docker call made for the provider's plan is covered by its live grants. -/
def CoveredInEveryRun (provider : JsString) (plan : NetworkPlan) (store : Store) : Prop :=
  ∀ env w new, Provides env provider plan store → (runOnce env w).2.log = w.log ++ new →
    ∀ a ∈ new, a.ForNetworkPlan → ∃ network, plan.exposureNetwork = some network ∧ plan.Covered store provider network

/-- **Where the network plan is covered.** For a bound provider, its plan and its grants: every run
keeps to the grants if and only if the plan names no exposure network, so that no call is made for
it, or the grants cover the plan anyway. -/
theorem network_plan_covered_iff {provider : JsString} (hprovider : provider ≠ []) (plan : NetworkPlan) (store : Store) :
    CoveredInEveryRun provider plan store ↔
      (plan.exposureNetwork = none ∨
        ∃ network, plan.exposureNetwork = some network ∧ plan.Covered store provider network) := by
  constructor
  · intro h
    cases hnetwork : plan.exposureNetwork with
    | none => exact .inl rfl
    | some network =>
      right
      rw [← hnetwork]
      exact h _ World.empty _ (provides_providerEnv hprovider) (List.nil_append _).symm _
        (run_creates hprovider hnetwork) ⟨rfl, networkLabels_core network (js "plan-1")⟩
  · intro h env w new hprovides hlog a ha hfor
    obtain ⟨new', hnew, hall⟩ := log_runOnce env w
    rw [hlog] at hnew
    rw [List.append_cancel_left hnew] at ha
    obtain ⟨ds, framework, plan', network, hload, hfw, hplan, hnetwork⟩ := forNetworkPlan_of_run (hall a ha) hfor
    obtain ⟨⟨ds', framework', hload', hfw', hbound, hanswer⟩, -⟩ := hprovides
    rw [hload] at hload'
    cases hload'
    rw [hfw] at hfw'
    cases hfw'
    -- the plan of this run is the provider's answer, and it has an exposure network
    have hsame : plan' = plan := by
      rw [planNetwork, hbound] at hplan
      simp only [hanswer] at hplan
      exact (Option.some.inj (Except.ok.inj hplan)).symm
    subst hsame
    rcases h with hnone | hcovered
    · rw [hnetwork] at hnone
      cases hnone
    · exact hcovered

/-- The grant of the bundled bridge provider, and one for its network. -/
def bridgeStore : Store where
  grants := [⟨js "network-bridge", js "docker.ports.publish", some (.obj [(js "ports", .arr [.num 80, .num 443])]), false⟩,
    ⟨js "network-bridge", js "docker.network.provision", some (.obj [(js "mode", .str (js "bridge"))]), false⟩]
  approvals := []

/-- The plan of the bundled bridge provider. -/
def bridgePlan : NetworkPlan where
  network := some (js "wanfw_exposure")
  endpoint := some ⟨some (js "host-ports"), some [443, 80]⟩
  resources := some [{ name := js "wanfw_exposure", driver := some (js "bridge") }]

/-- With a grant for its network too, the plan of the bridge provider is covered. -/
theorem network_plan_covered_bridge : CoveredInEveryRun (js "network-bridge") bridgePlan bridgeStore := by
  refine (network_plan_covered_iff (by decide) bridgePlan bridgeStore).mpr (.inr ⟨js "wanfw_exposure", rfl, ?_, ?_⟩)
  · intro port hport
    refine ⟨_, List.mem_cons_self, rfl, _, rfl, .arr [.num 80, .num 443], rfl, ?_⟩
    have hport : port = 443 ∨ port = 80 := by simpa [NetworkPlan.hostPorts, bridgePlan] using hport
    rcases hport with rfl | rfl
    · decide +kernel
    · decide +kernel
  · exact ⟨_, List.mem_cons_of_mem _ List.mem_cons_self, rfl, _, rfl, rfl, .inl rfl⟩

/-- A plan that asks for a network on the host's interface and for the port of the secure shell. -/
def sshPlan : NetworkPlan where
  network := some (js "wanfw_edge")
  endpoint := some ⟨some (js "host-ports"), some [22]⟩
  resources := some [{ name := js "wanfw_edge", driver := some (js "macvlan"), parent := some (js "eth0") }]

/-- The ports a call publishes on the proxy container. -/
def Attempt.published (a : Attempt) : Option (List Decimal) :=
  match a.stage, a.call with
  | .execute, .createContainer o => if o.name = proxyContainerName then o.ports else none
  | _, _ => none

/-- The proxy comes up on port 22, which no grant of the provider lists. -/
theorem network_plan_not_covered :
    (runOnce (providerEnv (js "network-bridge") sshPlan bridgeStore) World.empty).2.log.map Attempt.published =
        [none, some [22], none] ∧
      ¬ CoveredInEveryRun (js "network-bridge") sshPlan bridgeStore := by
  constructor
  · decide +kernel
  · intro h
    obtain ⟨network, -, hcovered⟩ := h _ World.empty _ (provides_providerEnv (by decide)) (List.nil_append _).symm _
      (run_creates (by decide) rfl) ⟨rfl, networkLabels_core (js "wanfw_edge") (js "plan-1")⟩
    obtain ⟨row, hrow, hcap, scope, hscope, ports, hports, hmatch⟩ := hcovered.ports 22 (List.mem_singleton_self _)
    have hrow : row.scope = some (.obj [(js "ports", .arr [.num 80, .num 443])]) ∨
        row.cap = js "docker.network.provision" := by
      simp only [Store.listGrants, bridgeStore, List.mem_filter, List.mem_cons, List.not_mem_nil, or_false] at hrow
      rcases hrow.1 with rfl | rfl
      · exact .inl rfl
      · exact .inr rfl
    rcases hrow with hrow | hrow
    · rw [hrow] at hscope
      cases hscope
      cases hports
      revert hmatch
      decide +kernel
    · rw [hcap] at hrow
      revert hrow
      decide

end Wanfw.Orchestrator
