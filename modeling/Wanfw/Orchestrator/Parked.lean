import Wanfw.Orchestrator.Converge

/-!
# A parked service and the others

EXECUTE skips a service that the gate did not approve, but the proxy is still to join
its network, which nobody has created: `proxyNetworksFrom` lists the networks of all
service plans. `undisturbed_iff` compares a run with the run for the graph without the
service: it succeeds as well, with the same calls, exactly when the network plan names
no exposure network, so that there is no proxy.
-/

namespace Wanfw.Orchestrator

open Wanfw.Js

/-- The graph without a service. -/
def PlanGraph.without (graph : PlanGraph) (serviceId : JsString) : PlanGraph where
  networkPlan := graph.networkPlan
  servicePlans := graph.servicePlans.filter fun e => e.1 != serviceId
  routes := graph.routes.filter fun r => r.serviceId != serviceId
  proxyRender := graph.proxyRender
  certNames := graph.certNames
  plans_nodup := graph.plans_nodup.sublist (List.filter_sublist.map _)
  plans_plain h := graph.plans_plain ((List.filter_sublist.map _).subset h)

/-- The exposure network of the graph's network plan. -/
def PlanGraph.exposureNetwork (graph : PlanGraph) : Option JsString := graph.networkPlan.bind (·.exposureNetwork)

/-! ### The journal shows it, nothing else -/

/-- The two worlds differ in the journal at most. -/
def SameButJournal (w w' : World) : Prop := ∃ rows, w' = { w with journal := rows }

/-- The action goes the same way whatever the journal holds. -/
abbrev Blind {α : Type} (m : M α) : Prop := Act.Agree SameButJournal m m

section Blind

variable {α : Type} {env : Env}

theorem blind_journal (planId step : JsString) (payload result : Json) : Blind (journal planId step payload result) :=
  Act.Agree.modify fun w w' ⟨rows, h⟩ => ⟨rows ++ [⟨planId, step, payload, result⟩], by rw [h]⟩

theorem blind_issue (stage : Stage) (c : Call) (f : Docker → Except JsError (α × Docker)) : Blind (issue env stage c f) := by
  rintro w _ ⟨rows, rfl⟩
  unfold issue
  simp only
  cases env.fault w.calls with
  | none => cases f w.docker <;> exact ⟨rfl, rows, rfl⟩
  | some fault => cases fault <;> cases f w.docker <;> exact ⟨rfl, rows, rfl⟩

theorem blind_query (f : Docker → α) : Blind (query env f) := by
  rintro w _ ⟨rows, rfl⟩
  unfold query
  simp only
  cases env.fault w.calls with
  | none => exact ⟨rfl, rows, rfl⟩
  | some fault => cases fault <;> exact ⟨rfl, rows, rfl⟩

theorem blind_dockerExec (stage : Stage) (container : JsString) (cmd : List JsString) :
    Blind (dockerExec env stage container cmd) := by
  rintro w _ ⟨rows, rfl⟩
  exact blind_issue stage (.exec container cmd) (fun d =>
    if d.containers.any fun c => c.name == container then .ok (env.execAnswer w.calls, d)
    else .error (.error (js "No such container: " ++ container))) w _ ⟨rows, rfl⟩

theorem blind_failStep (step plugin : JsString) (payload : Json) (e : JsError) : Blind (failStep env step plugin payload e) :=
  (blind_journal _ _ _ _).bind fun _ => .pure _

theorem blind_ensureNetwork (name planId : JsString) (owner : Owner) (options : Option NetworkDriverOptions) :
    Blind (ensureNetwork env name planId owner options) := by
  refine (blind_query _).bind fun existing => ?_
  cases existing with
  | some n => exact .pure _
  | none => exact (blind_issue _ _ _).bind fun _ => .pure _

theorem blind_ensureVolume (name planId serviceId : JsString) (remove : Bool) :
    Blind (ensureVolume env name planId serviceId remove) := by
  refine (blind_query _).bind fun existing => ?_
  cases existing with
  | some v => exact .pure _
  | none => exact (blind_issue _ _ _).bind fun _ => .pure _

theorem blind_ensureContainer (name : JsString) (spec : ContainerSpec) (planId : JsString) (owner : Owner) :
    Blind (ensureContainer env name spec planId owner) := by
  have hcreate : Blind (createAndStart env (createOptions env name spec planId owner)) :=
    (blind_issue _ _ _).bind fun _ => blind_issue _ _ _
  refine (blind_query _).bind fun existing => ?_
  cases existing with
  | none => exact hcreate.bind fun _ => .pure _
  | some c =>
    dsimp only
    split
    · split
      · exact .pure _
      · exact (blind_issue _ _ _).bind fun _ => .pure _
    · exact (blind_issue _ _ _).bind fun _ => hcreate.bind fun _ => .pure _

theorem blind_connect (containerName networkName : JsString) : Blind (connect env containerName networkName) := by
  refine (blind_query _).bind fun existing => ?_
  cases existing with
  | none => exact .pure _
  | some c =>
    dsimp only
    split
    · exact .pure _
    · exact (blind_issue _ _ _).bind fun _ => .pure _

theorem blind_executeEntry (ds : DesiredState) (gate : Option (Obj GatedService)) (e : JsString × ContainerSpec) :
    Blind (executeEntry env ds gate e) := by
  unfold executeEntry
  split
  · exact (blind_journal _ _ _ _).bind fun _ => .pure _
  · refine .tryCatch (.bind ?_ fun _ => .pure _) fun err => blind_failStep _ _ _ _
    refine (blind_ensureNetwork _ _ _ _).bind fun net => (blind_journal _ _ _ _).bind fun _ => ?_
    refine .bind (.forEach fun vol _ => (blind_ensureVolume _ _ _ _).bind fun r => blind_journal _ _ _ _) fun _ => ?_
    refine (blind_ensureContainer _ _ _ _).bind fun r => (blind_journal _ _ _ _).bind fun _ => ?_
    exact .forEach fun networkName _ => (blind_connect _ _).bind fun r => blind_journal _ _ _ _

theorem blind_executeProxyRender (graph : PlanGraph) : Blind (executeProxyRender env graph) := by
  unfold executeProxyRender
  split
  · exact .pure _
  · split
    · refine .tryCatch (.bind ?_ fun output => (blind_journal _ _ _ _).bind fun _ => .pure _) fun e => blind_failStep _ _ _ _
      unfold writeProxyConfigAndReload
      split
      · exact .throw _
      · refine .bind (.modify fun w w' ⟨rows, h⟩ => ⟨rows, by rw [h]⟩) fun _ => (blind_dockerExec _ _ _).bind fun r => ?_
        obtain ⟨exitCode, output⟩ := r
        dsimp only
        split
        · exact .throw _
        · exact .pure _
    · exact .pure _

end Blind

/-! ### The loop over the services -/

section Loop

variable {env : Env} {ds : DesiredState} {gate : Option (Obj GatedService)} {graph : PlanGraph} {serviceId : JsString}

/-- The loop skips the parked service, but for a journal row. -/
theorem agree_loop (hpark : isParked gate serviceId = true) :
    Act.Agree SameButJournal (Act.forReturn (graph.without serviceId).servicePlans (executeEntry env ds gate))
      (Act.forReturn graph.servicePlans (executeEntry env ds gate)) := by
  refine Act.Agree.forReturnFilter (fun e _ _ => blind_executeEntry ds gate e) fun e _ he => ?_
  have he : e.1 = serviceId := by simpa using he
  rintro w _ ⟨rows, rfl⟩
  have hentry : executeEntry env ds gate e = do
      journal env.planId (js "skip:" ++ e.1) (.obj []) (StepResult.toJson ⟨js "skip", false, js "parked pending approval"⟩)
      return none := by
    unfold executeEntry
    rw [he, if_pos hpark]
  rw [hentry]
  exact ⟨rfl, _, rfl⟩

end Loop

/-! ### The network that is missing -/

/-- There is no network of this name, and the proxy is not on one. -/
structure Missing (network : JsString) (d : Docker) : Prop where
  networks : ∀ n ∈ d.networks, n.name ≠ network
  proxy : ∀ c ∈ d.containers, c.name = proxyContainerName → network ∉ c.networks

section Missing

variable {env : Env} {ds : DesiredState} {network : JsString} {d d' : Docker}

theorem Missing.same (h : Missing network d) (hnetworks : d'.networks = d.networks)
    (hcontainers : ∀ c ∈ d'.containers, c.name = proxyContainerName → network ∉ c.networks) : Missing network d' :=
  ⟨by rw [hnetworks]; exact h.networks, hcontainers⟩

theorem Missing.createNetwork {name : JsString} {labels : Obj JsString} {options : Option NetworkDriverOptions}
    (hd : Missing network d) (hne : name ≠ network) (h : d.createNetwork name labels options = .ok ((), d')) :
    Missing network d' := by
  unfold Docker.createNetwork at h
  split at h <;> cases h
  refine ⟨fun n hn => ?_, hd.proxy⟩
  rcases List.mem_append.mp hn with hn | hn
  · exact hd.networks n hn
  · rw [List.mem_singleton.mp hn]
    exact hne

/-- Starting, removing and connecting, and creating a container that does not join the network. -/
theorem missing_container {name : JsString} {options : CreateContainerOptions}
    (hcreate : name = proxyContainerName → network ∉ initialNetworks options.hostNetworkMode) (hname : options.name = name) :
    ContainerCalls (Missing network) name options where
  create d c d' hd h := by
    refine hd.same (Docker.networks_createContainer h) ?_
    unfold Docker.createContainer at h
    split at h <;> cases h
    intro c hc hproxy
    rcases List.mem_append.mp hc with hc | hc
    · exact hd.proxy c hc hproxy
    · rw [List.mem_singleton.mp hc] at hproxy ⊢
      exact hcreate (hname ▸ hproxy)
  start d c d' hd _ _ h := by
    refine hd.same (Docker.networks_startContainer h) ?_
    obtain ⟨_, rfl⟩ := Docker.startContainer_eq h
    intro x hx hproxy
    obtain ⟨y, hy, rfl⟩ := List.mem_map.mp hx
    by_cases hid : y.id = c.id
    · rw [if_pos hid] at hproxy ⊢
      exact hd.proxy y hy hproxy
    · rw [if_neg hid] at hproxy ⊢
      exact hd.proxy y hy hproxy
  remove d c d' hd _ _ h := by
    refine hd.same (Docker.networks_removeContainer h) ?_
    unfold Docker.removeContainer at h
    split at h <;> cases h
    exact fun x hx => hd.proxy x (List.mem_of_mem_filter hx)
  connect d c n d' hd _ _ h := by
    refine hd.same (Docker.networks_connectNetwork h) ?_
    have hthere : ∃ m ∈ d.networks, m.name = n := by
      unfold Docker.connectNetwork at h
      split at h
      · cases h
      · rename_i hany
        simpa using hany
    obtain ⟨m, hm, rfl⟩ := hthere
    obtain ⟨_, rfl⟩ := Docker.connectNetwork_eq h
    intro x hx hproxy
    obtain ⟨y, hy, rfl⟩ := List.mem_map.mp hx
    by_cases hid : y.id = c.id
    · rw [if_pos hid] at hproxy ⊢
      simp only [List.mem_append, List.mem_singleton, not_or]
      exact ⟨hd.proxy y hy hproxy, fun hnetwork => hd.networks m hm hnetwork.symm⟩
    · rw [if_neg hid] at hproxy ⊢
      exact hd.proxy y hy hproxy

theorem serviceNetworkName_inj {id id' : JsString} (h : serviceNetworkName id = serviceNetworkName id') : id = id' :=
  List.append_cancel_left h

/-- The steps for the other services do not bring the network of a service. -/
theorem missing_service {id other : JsString} (spec : ContainerSpec) (hne : other ≠ id) :
    ServiceCalls (Missing (serviceNetworkName id)) env ds other spec :=
  ⟨fun _ _ hd h => hd.createNetwork (fun hname => hne (serviceNetworkName_inj hname)) h,
    fun _ _ _ _ hd h => by
      cases h
      exact ⟨hd.networks, hd.proxy⟩,
    missing_container (fun hproxy => absurd hproxy.symm (containerName_ne_proxy other)) rfl⟩

/-- The networks a new proxy starts with: its exposure network, or one that no service has. -/
theorem not_mem_initialNetworks {id exposureNetwork : JsString} (hne : exposureNetwork ≠ serviceNetworkName id) :
    serviceNetworkName id ∉ initialNetworks (some exposureNetwork) := by
  have hother : ∀ s : JsString, s.head? ≠ some 119 → serviceNetworkName id ∉ [s] := by
    intro s hs hmem
    rw [← List.mem_singleton.mp hmem] at hs
    exact hs rfl
  rcases hmode : namespaceOf (some exposureNetwork) with name | _ | ref | _ <;> simp only [initialNetworks, hmode]
  · unfold namespaceOf at hmode
    dsimp only at hmode
    split_ifs at hmode <;> cases hmode
    · exact hother _ (by decide)
    · simpa using hne.symm
  · exact hother _ (by decide)
  · exact List.not_mem_nil
  · exact hother _ (by decide)

variable {plan : NetworkPlan} {exposureNetwork id : JsString} {serviceIds : List JsString}

theorem missing_proxy (hne : exposureNetwork ≠ serviceNetworkName id) :
    ProxyCalls (Missing (serviceNetworkName id)) env plan exposureNetwork serviceIds :=
  ⟨fun _ _ hd h => hd.createNetwork hne h, missing_container (fun _ => not_mem_initialNetworks hne) rfl⟩

/-- Without the network the connection fails. -/
theorem connect_missing {spec : ContainerSpec} {networks : List JsString} :
    Act.Returns (fun w => Missing network w.docker ∧ Brought env proxyContainerName spec networks w.docker)
      (connect env proxyContainerName network) fun _ _ => False := by
  refine Act.Triple.bind ((query_docker (I := fun d => Missing network d ∧ Brought env proxyContainerName spec networks d)
    _).conseq (fun _ h => h) (fun _ _ h => h) fun _ _ _ => trivial) fun existing => ?_
  cases existing with
  | none =>
    refine Act.Triple.pure fun w hw => ?_
    obtain ⟨⟨-, c, hc, -⟩, hnone⟩ := hw
    rw [hc] at hnone
    cases hnone
  | some c =>
    dsimp only
    split
    · rename_i hmem
      refine Act.Triple.pure fun w hw => ?_
      have hc := Docker.mem_managedContainer hw.2.symm
      exact hw.1.1.proxy c hc.1 hc.2 hmem
    · refine Act.Triple.bind (Q := fun _ _ => False) (returns_issue fun w _ d hw hd => ?_) fun _ => Act.Triple.pure fun _ h => h
      unfold Docker.connectNetwork at hd
      split at hd
      · cases hd
      · rename_i hany
        simp only [Bool.not_eq_true', Bool.not_eq_false, List.any_eq_true, beq_iff_eq] at hany
        obtain ⟨n, hn, hname⟩ := hany
        exact hw.1.1.networks n hn hname

theorem tagged_proxyOptions : (createOptions env proxyContainerName (proxySpec env plan exposureNetwork serviceIds) env.planId
    .core).Tagged env proxyContainerName (proxySpec env plan exposureNetwork serviceIds) := by
  have hget : ∀ k, Obj.get (createOptions env proxyContainerName (proxySpec env plan exposureNetwork serviceIds) env.planId
      .core).labels k = _ := fun k => by
    rw [createOptions, containerLabels, baseLabels, Obj.get_spread _ _ (Obj.nodup_spread (by simp [Obj.keys]; decide) _),
      Obj.get_spread _ _ (by exact List.nodup_nil)]
  exact ⟨rfl, hget _, hget _⟩

/-- **The proxy of a plan whose service has no network does not come up.** -/
theorem executeProxy_missing (hne : exposureNetwork ≠ serviceNetworkName id) (hmem : id ∈ serviceIds) :
    Act.Returns (fun w => Missing (serviceNetworkName id) w.docker) (executeProxy env plan exposureNetwork serviceIds)
      fun _ _ => False := by
  have hcalls : ProxyCalls (Missing (serviceNetworkName id)) env plan exposureNetwork serviceIds := missing_proxy hne
  let spec := proxySpec env plan exposureNetwork serviceIds
  let J (w : World) : Prop := Missing (serviceNetworkName id) w.docker ∧ Brought env proxyContainerName spec [] w.docker
  refine Act.Triple.bind ((keeps_ensureNetwork hcalls.network).conseq (fun _ h => h) (fun _ _ h => h) fun _ _ _ => trivial)
    fun net => Act.Triple.bind (Q := fun _ w => Missing (serviceNetworkName id) w.docker) (Act.Triple.modify fun _ h => h)
      fun _ => ?_
  refine Act.Triple.bind (ensureContainer_spec hcalls.container tagged_proxyOptions) fun r =>
    Act.Triple.bind (Q := fun _ => J) (Act.Triple.modify fun _ h => h) fun _ => ?_
  -- the network is one of those that are still to be joined
  refine (Act.Triple.forEachLeft (I := fun todo w => serviceNetworkName id ∈ todo ∧ J w) (fun n todo => ?_) _).conseq
    (fun w hw => ⟨?_, hw⟩) (fun _ w hw => List.not_mem_nil hw.1) fun _ _ h => h
  · by_cases hn : n = serviceNetworkName id
    · subst hn
      exact Act.Triple.bind (connect_missing.conseq (fun _ hw => hw.2) (fun _ _ h => h) fun _ _ h => h) fun _ _ h => h.elim
    · refine Act.Triple.bind (Q := fun _ w => serviceNetworkName id ∈ todo ∧ J w) ?_ fun r => Act.Triple.modify fun _ h => h
      refine Act.Triple.ofEach fun w hw => (connect_spec hcalls.container n).conseq (fun w' hw' => hw' ▸ hw.2)
        (fun _ w' hw' => ⟨(List.mem_cons.mp hw.1).resolve_left fun h => hn h.symm, hw'.1, ?_⟩) fun _ _ h => h
      obtain ⟨c, hc, hcurrent, -⟩ := hw'.2
      exact ⟨c, hc, hcurrent, by simp⟩
  · exact List.mem_cons_of_mem _ (List.mem_map_of_mem hmem)

end Missing

/-! ### With the service and without it -/

/-- Nothing of the service exists: no container and no network of its names, no container on that network; and
the network plan does not bring the network either. -/
structure Unborn (graph : PlanGraph) (serviceId : JsString) (d : Docker) : Prop where
  container : ∀ c ∈ d.containers, c.name ≠ containerName serviceId
  network : ∀ n ∈ d.networks, n.name ≠ serviceNetworkName serviceId
  attached : ∀ c ∈ d.containers, serviceNetworkName serviceId ∉ c.networks
  exposure : graph.exposureNetwork ≠ some (serviceNetworkName serviceId)

/-- The two runs made the same calls, wrote the same proxy configurations and left the daemon alike. -/
structure SameOperations (w w' : World) : Prop where
  calls : w'.log = w.log
  proxycfg : w'.proxycfg = w.proxycfg
  docker : w'.docker = w.docker

section Undisturbed

variable {env : Env} {ds : DesiredState} {gate : Option (Obj GatedService)} {graph : PlanGraph} {serviceId : JsString}
  {w w' : World}

theorem executeNetworkPlan_none (h : graph.exposureNetwork = none) : executeNetworkPlan env graph = pure none := by
  unfold executeNetworkPlan
  unfold PlanGraph.exposureNetwork at h
  cases hplan : graph.networkPlan with
  | none => rfl
  | some plan =>
    rw [hplan, Option.bind_some] at h
    simp only [h]

/-- Without a proxy the two runs go alike. -/
theorem agree_executeGraph (hpark : isParked gate serviceId = true) (hnone : graph.exposureNetwork = none) :
    Act.Agree SameButJournal (executeGraph env ds (graph.without serviceId) gate) (executeGraph env ds graph gate) := by
  refine (agree_loop hpark).bind fun r => ?_
  cases r with
  | some e => exact .pure _
  | none =>
    have hwithout : (graph.without serviceId).exposureNetwork = none := hnone
    simp only [executeNetworkPlan_none hnone, executeNetworkPlan_none hwithout]
    exact blind_executeProxyRender graph

/-- With one, the run fails. -/
theorem executeGraph_missing (hpark : isParked gate serviceId = true) (hmem : serviceId ∈ Obj.keys graph.servicePlans)
    {exposureNetwork : JsString} (hexposure : graph.exposureNetwork = some exposureNetwork)
    (hne : exposureNetwork ≠ serviceNetworkName serviceId) :
    Act.Returns (fun w => Missing (serviceNetworkName serviceId) w.docker) (executeGraph env ds graph gate)
      fun r _ => r ≠ none := by
  have hloop : KeepsDocker (Missing (serviceNetworkName serviceId))
      (Act.forReturn graph.servicePlans (executeEntry env ds gate)) := by
    refine .forReturn fun e _ => keeps_executeEntry fun hrun => missing_service e.2 ?_
    rintro rfl
    rw [hpark] at hrun
    cases hrun
  refine Act.Triple.bind (hloop.conseq (fun _ h => h) (fun _ _ h => h) fun _ _ _ => trivial) fun r => ?_
  cases r with
  | some e => exact Act.Triple.pure fun _ _ => by simp
  | none =>
    obtain ⟨plan, hplan, hnetwork⟩ := Option.bind_eq_some_iff.mp hexposure
    refine Act.Triple.bind (Q := fun r _ => r ≠ none) ?_ fun r => ?_
    · simp only [executeNetworkPlan, hplan, hnetwork]
      refine Act.Triple.tryCatch (F := fun _ _ => True) (Act.Triple.bind (executeProxy_missing hne hmem) fun _ _ h => h.elim)
        fun e => ?_
      exact Act.Triple.bind (Q := fun _ _ => True) (Act.Triple.modify fun _ _ => trivial) fun _ =>
        Act.Triple.pure fun _ _ => by simp
    · cases r with
      | some e => exact Act.Triple.pure fun _ _ => by simp
      | none => exact fun _ h => absurd rfl h

/-- **When a parked service does not disturb the others.** For every graph, snapshot and state of the daemon in which
nothing of the service exists, if EXECUTE succeeds for the graph without it: then it succeeds with it, by the same
operations, if and only if the network plan has no exposure network. -/
theorem undisturbed_iff (hpark : isParked gate serviceId = true) (hmem : serviceId ∈ Obj.keys graph.servicePlans)
    (hunborn : Unborn graph serviceId w.docker)
    (hok : executeGraph env ds (graph.without serviceId) gate w = (.ok none, w')) :
    (∃ w₂, executeGraph env ds graph gate w = (.ok none, w₂) ∧ SameOperations w' w₂) ↔ graph.exposureNetwork = none := by
  constructor
  · rintro ⟨w₂, hok₂, -⟩
    by_contra hsome
    obtain ⟨exposureNetwork, hexposure⟩ := Option.ne_none_iff_exists'.mp hsome
    have hne : exposureNetwork ≠ serviceNetworkName serviceId := fun h => hunborn.exposure (h ▸ hexposure)
    exact (executeGraph_missing hpark hmem hexposure hne).returned
      ⟨hunborn.network, fun c hc _ => hunborn.attached c hc⟩ hok₂ rfl
  · intro hnone
    obtain ⟨hanswer, rows, hstate⟩ := @agree_executeGraph env ds gate graph serviceId hpark hnone w w ⟨w.journal, rfl⟩
    rw [hok] at hanswer hstate
    refine ⟨(executeGraph env ds graph gate w).2, Prod.ext hanswer.symm rfl, ?_⟩
    rw [hstate]
    exact ⟨rfl, rfl, rfl⟩

end Undisturbed

/-! ### A service that waits for approval -/

/-- A service with a device, and a network plan or none. -/
def waitingGraph (networkPlan : Option NetworkPlan) : PlanGraph where
  networkPlan := networkPlan
  servicePlans := [(js "blog", { image := js "busybox" }), (js "wiki", { image := js "busybox", devices := some [js "/dev/dri"] })]
  routes := []
  proxyRender := none
  certNames := []
  plans_nodup := by
    change List.Nodup [js "blog", js "wiki"]
    decide
  plans_plain := by
    change _ ∉ [js "blog", js "wiki"]
    decide

/-- `wiki` waits for its approval. -/
def waitingGate : Obj GatedService := [(js "wiki", ⟨js "wiki", .powerful, [], [], false, []⟩)]

/-- EXECUTE for a graph on an empty host, nothing failing. -/
abbrev executeWaiting (graph : PlanGraph) : Except JsError StageResult × World :=
  executeGraph Env.idle ⟨none, [], [], List.nodup_nil⟩ graph (some waitingGate) World.empty

theorem unborn_waiting {networkPlan : Option NetworkPlan}
    (h : (waitingGraph networkPlan).exposureNetwork ≠ some (serviceNetworkName (js "wiki"))) :
    Unborn (waitingGraph networkPlan) (js "wiki") World.empty.docker where
  container c hc := by cases hc
  network n hn := by cases hn
  attached c hc := by cases hc
  exposure := h

/-- Without a network plan `wiki` does not show. -/
theorem undisturbed_waiting : (∃ w₂, executeWaiting (waitingGraph none) = (.ok none, w₂) ∧
    SameOperations (executeWaiting ((waitingGraph none).without (js "wiki"))).2 w₂) ↔
      (waitingGraph none).exposureNetwork = none := by
  have hresult : (executeWaiting ((waitingGraph none).without (js "wiki"))).1 = .ok none := by decide +kernel
  have hok : executeWaiting ((waitingGraph none).without (js "wiki")) =
      (.ok none, (executeWaiting ((waitingGraph none).without (js "wiki"))).2) := by
    rw [← hresult]
  exact undisturbed_iff (by decide +kernel) (by decide +kernel) (unborn_waiting (by simp [PlanGraph.exposureNetwork, waitingGraph])) hok

/-- With the plan of the bridge provider, EXECUTE succeeds without `wiki` and fails with it. -/
theorem disturbed_waiting : isParked (some waitingGate) (js "wiki") = true ∧
    Unborn (waitingGraph (some bridgePlan)) (js "wiki") World.empty.docker ∧
    (executeWaiting ((waitingGraph (some bridgePlan)).without (js "wiki"))).1 = .ok none ∧
    (executeWaiting (waitingGraph (some bridgePlan))).1 ≠ .ok none := by
  have hexposure : (waitingGraph (some bridgePlan)).exposureNetwork ≠ some (serviceNetworkName (js "wiki")) := by
    decide +kernel
  refine ⟨by decide +kernel, unborn_waiting hexposure, by decide +kernel, fun h => ?_⟩
  have hfails := congrArg (fun r => r.toOption.join.isSome) h
  revert hfails
  decide +kernel

end Wanfw.Orchestrator
