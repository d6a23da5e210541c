import Wanfw.Orchestrator.Bystanders
import Wanfw.Orchestrator.Converge
import Wanfw.Orchestrator.PlanOrder
import Wanfw.Schemas.BundleHash

/-!
# The network plan over runs

A network is never recreated: `ensureNetwork` looks for the name alone. The proxy container is, when
its configuration hash differs. So over runs with changing network plans the two part company.

`network_plan_realised`: after a run without an error the proxy container has exactly the host ports
and the networks of that run's plan, whatever earlier runs left behind, also those that failed
halfway. The exposure network has the driver, interface, subnet and gateway of the first plan that
got it created, and keeps them for good.
-/

namespace Wanfw.Orchestrator.ExposureRuns

open Wanfw.Js Wanfw.Schemas Bystanders

/-! ### What a run asks for -/

/-- The network plan of a run, its exposure network, and the services that have a plan. -/
structure Asks (env : Env) (plan : NetworkPlan) (network : JsString) (serviceIds : List JsString) :
    Prop where
  planned : ∃ ds framework graph, env.load = .ok ds ∧ ds.framework = some framework ∧
    planOf env ds framework = .ok (.ok graph) ∧ graph.networkPlan = some plan ∧
    Obj.keys graph.servicePlans = serviceIds
  exposes : plan.exposureNetwork = some network

/-- The container was created and connected for this plan. -/
structure MadeFor (env : Env) (plan : NetworkPlan) (network : JsString)
    (serviceIds : List JsString) (c : Container) : Prop where
  confighash : Obj.get c.labels (js "wanfw.confighash") =
    some (computeConfigHash env (proxySpec env plan network serviceIds))
  service : Obj.get c.labels (js "wanfw.service") = none
  ports : c.ports = plan.hostPorts
  networks : ∀ m ∈ c.networks, m ∈ initialNetworks (some network) ∨
    m ∈ network :: serviceIds.map serviceNetworkName

/-- The container was made in one of the runs. -/
def Made (envs : List Env) (c : Container) : Prop :=
  ∃ env ∈ envs, ∃ plan network serviceIds, Asks env plan network serviceIds ∧
    MadeFor env plan network serviceIds c

/-- The texts that the configuration hashes of the proxy are taken of. -/
def proxyTexts (envs : List Env) : Set (List UInt8) :=
  {text | ∃ env ∈ envs, ∃ plan network serviceIds, Asks env plan network serviceIds ∧
    text = configText (proxySpec env plan network serviceIds)}

/-- What a run keeps: `was` is the exposure network that it found, if there was one. -/
structure Kept (envs : List Env) (env : Env) (network : JsString) (was : Option Network)
    (d : Docker) : Prop where
  proxy : ∀ c ∈ d.containers, c.name = proxyContainerName → isManaged c.labels = true → Made envs c
  lasting : ∀ n, d.managedNetwork network = some n → Obj.get n.labels (js "wanfw.service") = none
  exposed : d.managedNetwork network = was ∨ was = none ∧ ∃ n plan serviceIds,
    d.managedNetwork network = some n ∧ Asks env plan network serviceIds ∧
    n.options = exposureNetworkDriverOptions plan network

/-! ### Finding objects by name -/

section Find

theorem find?_filter_of_pos {α : Type} {p q : α → Bool} {xs : List α} {x : α}
    (h : xs.find? p = some x) (hx : q x = true) : (xs.filter q).find? p = some x := by
  obtain ⟨hp, before, after, rfl, hbefore⟩ := List.find?_eq_some_iff_append.mp h
  rw [List.filter_append, List.filter_cons_of_pos hx]
  refine List.find?_eq_some_iff_append.mpr ⟨hp, before.filter q, after.filter q, rfl, fun a ha => ?_⟩
  exact hbefore a (List.mem_of_mem_filter ha)

/-- What is looked for stays where it is if what goes is something else. -/
theorem find?_filter_of_forall {α : Type} {p q : α → Bool} {xs : List α}
    (h : ∀ x, xs.find? p = some x → q x = true) : (xs.filter q).find? p = xs.find? p := by
  cases hx : xs.find? p with
  | some x => exact find?_filter_of_pos hx (h x hx)
  | none =>
    rw [List.find?_eq_none] at hx ⊢
    exact fun x hmem => hx x (List.mem_of_mem_filter hmem)

variable {d d' : Docker} {name other : JsString} {labels : Obj JsString}
  {options : Option NetworkDriverOptions} {id : ℕ}

theorem managedNetwork_of_networks (h : d'.networks = d.networks) :
    d'.managedNetwork name = d.managedNetwork name := by
  rw [Docker.managedNetwork, Docker.managedNetwork, h]

theorem managedNetwork_createNetwork_of_ne
    (h : d.createNetwork other labels options = .ok ((), d')) (hne : other ≠ name) :
    d'.managedNetwork name = d.managedNetwork name := by
  unfold Docker.createNetwork at h
  split at h <;> cases h
  rw [Docker.managedNetwork, List.find?_append, List.find?_singleton, if_neg (by simp [hne]), Option.or_none]
  rfl

/-- A network is only created where there is none of the name. -/
theorem managedNetwork_created (h : d.createNetwork name labels options = .ok ((), d'))
    (hmanaged : isManaged labels = true) :
    d.managedNetwork name = none ∧
      ∃ n, d'.managedNetwork name = some n ∧ n.labels = labels ∧ n.options = options := by
  unfold Docker.createNetwork at h
  split at h
  · cases h
  · rename_i hfree
    cases h
    have hnone : d.managedNetwork name = none := by
      rw [Docker.managedNetwork, List.find?_eq_none]
      intro n hn hname
      rw [Bool.and_eq_true] at hname
      exact hfree (List.any_eq_true.mpr ⟨n, hn, hname.1⟩)
    refine ⟨hnone, ⟨d.nextId, name, labels, options⟩, ?_, rfl, rfl⟩
    unfold Docker.managedNetwork at hnone ⊢
    rw [List.find?_append, hnone, Option.none_or, List.find?_cons_of_pos]
    simp [hmanaged]

theorem managedNetwork_removed (h : d.removeNetwork id = .ok ((), d'))
    (hid : ∀ n, d.managedNetwork name = some n → n.id ≠ id) :
    d'.managedNetwork name = d.managedNetwork name := by
  unfold Docker.removeNetwork at h
  split at h <;> cases h
  exact find?_filter_of_forall fun n hn => bne_iff_ne.mpr (hid n hn)

theorem managedContainer_removed (h : d.removeContainer id = .ok ((), d'))
    (hid : ∀ c, d.managedContainer name = some c → c.id ≠ id) :
    d'.managedContainer name = d.managedContainer name := by
  unfold Docker.removeContainer at h
  split at h <;> cases h
  exact find?_filter_of_forall fun c hc => bne_iff_ne.mpr (hid c hc)

end Find

/-! ### One call -/

section Calls

variable {envs : List Env} {env : Env} {network : JsString} {was : Option Network} {d d' : Docker} {id : ℕ}

/-- Containers are changed, but none of the proxy's name for the worse. -/
theorem Kept.mapContainers (h : Kept envs env network was d) {f : Container → Container}
    (hf : ∀ c, (f c).id = c.id) (hsame : ∀ c, (f c).name = c.name ∧ (f c).labels = c.labels)
    (hmade : ∀ c ∈ d.containers, c.name = proxyContainerName → Made envs c → Made envs (f c)) :
    Kept envs env network was (d.mapContainers f hf) := by
  refine ⟨fun c' hc' hname hm => ?_, h.lasting, h.exposed⟩
  obtain ⟨c, hc, rfl⟩ := List.mem_map.mp hc'
  rw [(hsame c).1] at hname
  rw [(hsame c).2] at hm
  exact hmade c hc hname (h.proxy c hc hname hm)

/-- The containers are the same, and so are the networks. -/
theorem Kept.same (h : Kept envs env network was d) (hcontainers : d'.containers = d.containers)
    (hnetworks : d'.networks = d.networks) : Kept envs env network was d' := by
  have hfound : d'.managedNetwork network = d.managedNetwork network := managedNetwork_of_networks hnetworks
  refine ⟨by rw [hcontainers]; exact h.proxy, ?_, ?_⟩
  · rw [hfound]
    exact h.lasting
  · rw [hfound]
    exact h.exposed

theorem Kept.startContainer (h : Kept envs env network was d)
    (hcall : d.startContainer id = .ok ((), d')) : Kept envs env network was d' := by
  obtain ⟨hf, rfl⟩ := Docker.startContainer_eq hcall
  refine h.mapContainers hf (fun c => by split <;> exact ⟨rfl, rfl⟩) fun c _ _ hmade => ?_
  split
  · obtain ⟨e, he, plan, net, ids, hasks, hfor⟩ := hmade
    exact ⟨e, he, plan, net, ids, hasks, hfor.confighash, hfor.service, hfor.ports, hfor.networks⟩
  · exact hmade

theorem Kept.removeContainer (h : Kept envs env network was d)
    (hcall : d.removeContainer id = .ok ((), d')) : Kept envs env network was d' := by
  unfold Docker.removeContainer at hcall
  split at hcall <;> cases hcall
  exact ⟨fun c hc => h.proxy c (List.mem_of_mem_filter hc), h.lasting, h.exposed⟩

/-- Another container gets a network. -/
theorem Kept.connectOther (h : Kept envs env network was d) {c : Container} (hc : c ∈ d.containers)
    (hname : c.name ≠ proxyContainerName) {m : JsString} (hcall : d.connectNetwork c.id m = .ok ((), d')) :
    Kept envs env network was d' := by
  obtain ⟨hf, rfl⟩ := Docker.connectNetwork_eq hcall
  refine h.mapContainers hf (fun c => by split <;> exact ⟨rfl, rfl⟩) fun c' hc' hname' hmade => ?_
  rwa [if_neg fun hid => hname (Docker.eq_of_id hc' hc hid ▸ hname')]

/-- A new container is not the proxy, or is made for a plan. -/
theorem Kept.createContainer (h : Kept envs env network was d) {o : CreateContainerOptions} {c : Container}
    (hmade : o.name = proxyContainerName → Made envs (d.newContainer o))
    (hcall : d.createContainer o = .ok (c, d')) : Kept envs env network was d' := by
  unfold Docker.createContainer at hcall
  split at hcall <;> cases hcall
  refine ⟨fun c hc hname hm => ?_, h.lasting, h.exposed⟩
  rcases List.mem_append.mp hc with hc | hc
  · exact h.proxy c hc hname hm
  · rw [List.mem_singleton] at hc
    subst hc
    exact hmade hname

theorem Kept.createVolume (h : Kept envs env network was d) {volume : JsString} {labels : Obj JsString}
    (hcall : d.createVolume volume labels = .ok ((), d')) : Kept envs env network was d' := by
  cases hcall
  exact ⟨h.proxy, h.lasting, h.exposed⟩

theorem Kept.createOther (h : Kept envs env network was d) {other : JsString} {labels : Obj JsString}
    {options : Option NetworkDriverOptions} (hne : other ≠ network)
    (hcall : d.createNetwork other labels options = .ok ((), d')) : Kept envs env network was d' := by
  have hfound := managedNetwork_createNetwork_of_ne hcall hne
  refine ⟨by rw [Docker.containers_createNetwork hcall]; exact h.proxy, ?_, ?_⟩
  · rw [hfound]
    exact h.lasting
  · rw [hfound]
    exact h.exposed

theorem get_networkLabels_core (name : JsString) :
    Obj.get (networkLabels env name env.planId .core) (js "wanfw.service") = none ∧
      isManaged (networkLabels env name env.planId .core) = true := ⟨rfl, rfl⟩

/-- The exposure network is created for the plan of the run. -/
theorem Kept.createExposure (h : Kept envs env network was d) {plan : NetworkPlan} {net : JsString}
    {serviceIds : List JsString} (hasks : Asks env plan net serviceIds)
    (hcall : d.createNetwork net (networkLabels env net env.planId .core) (exposureNetworkDriverOptions plan net) =
      .ok ((), d')) : Kept envs env network was d' := by
  by_cases hne : net = network
  · subst hne
    obtain ⟨hnone, n, hn, hlabels, hoptions⟩ := managedNetwork_created hcall (get_networkLabels_core net).2
    refine ⟨by rw [Docker.containers_createNetwork hcall]; exact h.proxy, fun n' hn' => ?_,
      .inr ⟨?_, n, plan, serviceIds, hn, hasks, hoptions⟩⟩
    · rw [hn, Option.some.injEq] at hn'
      rw [← hn', hlabels]
      exact (get_networkLabels_core net).1
    · rcases h.exposed with heq | ⟨hwas, -⟩
      · rw [← heq, hnone]
      · exact hwas
  · exact h.createOther hne hcall

end Calls

/-! ### EXECUTE -/

section Execute

variable {envs : List Env} {env : Env} {network : JsString} {was : Option Network} {ds : DesiredState}

/-- What EXECUTE does for a service. -/
theorem kept_service (hname : ∀ id, network ≠ serviceNetworkName id) (serviceId : JsString)
    (spec : ContainerSpec) : ServiceCalls (Kept envs env network was) env ds serviceId spec where
  network _ _ hd hcall := hd.createOther (hname serviceId).symm hcall
  volume _ _ _ _ hd hcall := hd.createVolume hcall
  container := {
    create := fun _ _ _ hd hcall =>
      hd.createContainer (fun h => absurd h.symm (containerName_ne_proxy serviceId)) hcall
    start := fun _ _ _ hd _ _ hcall => hd.startContainer hcall
    remove := fun _ _ _ hd _ _ hcall => hd.removeContainer hcall
    connect := fun _ _ _ _ hd hc hcname hcall =>
      hd.connectOther hc (hcname ▸ (containerName_ne_proxy serviceId).symm) hcall }

variable {plan : NetworkPlan} {net : JsString} {serviceIds : List JsString}

/-- The options with which EXECUTE creates the proxy container. -/
def proxyOptions (env : Env) (plan : NetworkPlan) (net : JsString) (serviceIds : List JsString) :
    CreateContainerOptions :=
  createOptions env proxyContainerName (proxySpec env plan net serviceIds) env.planId .core

theorem tagged_proxyOptions :
    (proxyOptions env plan net serviceIds).Tagged env proxyContainerName (proxySpec env plan net serviceIds) :=
  ⟨rfl, rfl, rfl⟩

theorem made_newContainer (henv : env ∈ envs) (hasks : Asks env plan net serviceIds) (d : Docker) :
    Made envs (d.newContainer (proxyOptions env plan net serviceIds)) :=
  ⟨env, henv, plan, net, serviceIds, hasks, rfl, rfl, rfl, fun _ hm => .inl hm⟩

theorem kept_ensureProxy (henv : env ∈ envs) (hasks : Asks env plan net serviceIds) :
    KeepsDocker (Kept envs env network was)
      (ensureContainer env proxyContainerName (proxySpec env plan net serviceIds) env.planId .core) := by
  have hcreate : KeepsDocker (Kept envs env network was)
      (createAndStart env (proxyOptions env plan net serviceIds)) :=
    (keeps_issue fun d _ _ hd hcall =>
      hd.createContainer (fun _ => made_newContainer henv hasks d) hcall).bind fun _ =>
        keeps_issue fun _ _ _ hd hcall => hd.startContainer hcall
  refine (keeps_query _).bind fun existing => ?_
  cases existing with
  | none => exact hcreate.bind fun _ => .pure _
  | some c =>
    dsimp only
    split
    · split
      · exact .pure _
      · exact (keeps_issue fun _ _ _ hd hcall => hd.startContainer hcall).bind fun _ => .pure _
    · exact (keeps_issue fun _ _ _ hd hcall => hd.removeContainer hcall).bind fun _ =>
        hcreate.bind fun _ => .pure _

/-- What the canonical form of the proxy's plan has at two of its keys. -/
theorem prop_proxySpec (env : Env) (plan : NetworkPlan) (net : JsString) (serviceIds : List JsString) :
    (canonicalize (proxySpec env plan net serviceIds).toJson).prop (js "ports") =
        some (.arr (plan.hostPorts.map .num)) ∧
      (canonicalize (proxySpec env plan net serviceIds).toJson).prop (js "networks") =
        some (.arr ((net :: serviceIds.map serviceNetworkName).map .str)) := by
  have hjson : ∃ mounts rest, (proxySpec env plan net serviceIds).toJson =
      .obj ((js "image", .str proxyImage) :: (js "mounts", mounts) ::
        (js "networks", .arr ((net :: serviceIds.map serviceNetworkName).map .str)) ::
        (js "ports", .arr (plan.hostPorts.map .num)) :: rest) := by
    simp only [ContainerSpec.toJson, proxySpec, buildProxyContainerSpec, member, Option.map_some, Option.map_none,
      Option.toList_some, Option.toList_none, List.append_nil, List.cons_append, List.nil_append]
    exact ⟨_, _, rfl⟩
  obtain ⟨mounts, rest, hjson⟩ := hjson
  have hports : js "ports" ≠ js "__proto__" := by decide
  have hnetworks : js "networks" ≠ js "__proto__" := by decide
  rw [hjson, prop_canonicalize hports, prop_canonicalize hnetworks]
  constructor
  · exact congrArg some (congrArg Json.arr (canonicalizeItems_map _ _))
  · exact congrArg some (congrArg Json.arr (canonicalizeItems_map _ _))

/-- The text of the proxy's plan determines its ports and its networks. -/
theorem configText_proxySpec_eq {env' : Env} {plan' : NetworkPlan} {net' : JsString} {serviceIds' : List JsString}
    (h : configText (proxySpec env plan net serviceIds) = configText (proxySpec env' plan' net' serviceIds')) :
    plan.hostPorts = plan'.hostPorts ∧
      net :: serviceIds.map serviceNetworkName = net' :: serviceIds'.map serviceNetworkName := by
  obtain ⟨hports, hnetworks⟩ := prop_proxySpec env plan net serviceIds
  rw [utf8_stringify_inj h] at hports hnetworks
  rw [(prop_proxySpec env' plan' net' serviceIds').1, Option.some.injEq, Json.arr.injEq] at hports
  rw [(prop_proxySpec env' plan' net' serviceIds').2, Option.some.injEq, Json.arr.injEq] at hnetworks
  exact ⟨((List.map_injective_iff.mpr fun _ _ => Json.num.inj) hports).symm,
    ((List.map_injective_iff.mpr fun _ _ => Json.str.inj) hnetworks).symm⟩

/-- The runs hash with one function, without collisions among the texts of their proxies. -/
structure Hashing (sha256 : List UInt8 → JsString) (envs : List Env) : Prop where
  same : ∀ env ∈ envs, env.sha256 = sha256
  injOn : Set.InjOn sha256 (proxyTexts envs)

variable {sha256 : List UInt8 → JsString} {c : Container}

/-- A container with the hash of a plan was made for it. -/
theorem Hashing.madeFor (h : Hashing sha256 envs) (henv : env ∈ envs)
    (hasks : Asks env plan net serviceIds) (hmade : Made envs c)
    (hhash : Obj.get c.labels (js "wanfw.confighash") =
      some (computeConfigHash env (proxySpec env plan net serviceIds))) :
    MadeFor env plan net serviceIds c := by
  obtain ⟨e, he, plan', net', ids', hasks', hfor⟩ := hmade
  have htext : configText (proxySpec e plan' net' ids') = configText (proxySpec env plan net serviceIds) := by
    refine h.injOn ⟨e, he, plan', net', ids', hasks', rfl⟩ ⟨env, henv, plan, net, serviceIds, hasks, rfl⟩ ?_
    have heq := hfor.confighash.symm.trans hhash
    rwa [Option.some.injEq, computeConfigHash, computeConfigHash, h.same e he, h.same env henv] at heq
  obtain ⟨hports, hnetworks⟩ := configText_proxySpec_eq htext
  refine ⟨hhash, hfor.service, hfor.ports.trans hports, fun m hm => ?_⟩
  rw [← hnetworks, ← (List.cons.inj hnetworks).1]
  exact hfor.networks m hm

/-- The proxy gets one of the networks of its plan. -/
theorem kept_connect (h : Hashing sha256 envs) (henv : env ∈ envs) (hasks : Asks env plan net serviceIds)
    {m : JsString} (hm : m ∈ net :: serviceIds.map serviceNetworkName) :
    Act.Triple (fun w => Kept envs env network was w.docker ∧
      Brought env proxyContainerName (proxySpec env plan net serviceIds) [] w.docker)
      (connect env proxyContainerName m)
      (fun _ w => Kept envs env network was w.docker ∧
        Brought env proxyContainerName (proxySpec env plan net serviceIds) [] w.docker)
      fun _ w => Kept envs env network was w.docker := by
  let I (d : Docker) : Prop :=
    Kept envs env network was d ∧ Brought env proxyContainerName (proxySpec env plan net serviceIds) [] d
  refine Act.Triple.bind ((query_docker (I := I) _).conseq (fun _ h => h) (fun _ _ h => h)
    fun _ _ h => h.1) fun existing => ?_
  cases existing with
  | none => exact Act.Triple.pure fun _ hw => hw.1
  | some c =>
    dsimp only
    split
    · exact Act.Triple.pure fun _ hw => hw.1
    refine Act.Triple.bind (Q := fun _ w => I w.docker) ?_ fun _ => Act.Triple.pure fun _ hw => hw
    refine Act.Triple.conseq (issue_docker (P := fun d => I d ∧ some c = d.managedContainer proxyContainerName)
      (I := Kept envs env network was) (Q := fun _ => I) (fun _ hd => hd.1.1) (fun _ _ hd => hd.1) ?_)
      (fun _ h => h) (fun _ _ h => h) fun _ _ h => h
    rintro d _ d' ⟨⟨hkept, c', hc', hcurrent, -⟩, hfound⟩ hcall
    rw [hc'] at hfound
    cases hfound
    have hc := Docker.mem_managedContainer hc'
    obtain ⟨hf, hd'⟩ := Docker.connectNetwork_eq hcall
    refine ⟨?_, { c with networks := c.networks ++ [m] }, ?_, ⟨hcurrent.running, hcurrent.confighash⟩, by simp⟩
    · rw [hd']
      refine hkept.mapContainers hf (fun c => by split <;> exact ⟨rfl, rfl⟩) fun x hx _ hmade => ?_
      split
      · rename_i hid
        obtain rfl : x = c := Docker.eq_of_id hx hc.1 hid
        obtain ⟨hhash, hservice, hports, hnetworks⟩ := h.madeFor henv hasks hmade hcurrent.confighash
        refine ⟨env, henv, plan, net, serviceIds, hasks, hhash, hservice, hports, fun m' hm' => ?_⟩
        rcases List.mem_append.mp hm' with hm' | hm'
        · exact hnetworks m' hm'
        · exact .inr (List.mem_singleton.mp hm' ▸ hm)
      · exact hmade
    · refine (Docker.managedContainer_connected hcall).trans ?_
      rw [hc', Option.map_some, if_pos rfl]

/-- The steps for a network plan, however they end. -/
theorem kept_executeProxy (h : Hashing sha256 envs) (henv : env ∈ envs)
    (hasks : Asks env plan net serviceIds) :
    KeepsDocker (Kept envs env network was) (executeProxy env plan net serviceIds) := by
  refine (keeps_ensureNetwork fun _ _ hd hcall => hd.createExposure hasks hcall).bind fun r => ?_
  refine (keeps_journal _ _ _ _).bind fun _ => ?_
  have hbrought : Act.Returns (fun _ => True)
      (ensureContainer env proxyContainerName (proxySpec env plan net serviceIds) env.planId .core)
      fun _ w => True ∧ Brought env proxyContainerName (proxySpec env plan net serviceIds) [] w.docker :=
    ensureContainer_spec (I := fun _ => True) ⟨fun _ _ _ _ _ => trivial, fun _ _ _ _ _ _ _ => trivial,
      fun _ _ _ _ _ _ _ => trivial, fun _ _ _ _ _ _ _ _ => trivial⟩ tagged_proxyOptions
  let I (w : World) : Prop :=
    Kept envs env network was w.docker ∧
      Brought env proxyContainerName (proxySpec env plan net serviceIds) [] w.docker
  refine Act.Triple.bind (Q := fun _ => I) ((Act.Triple.and (kept_ensureProxy henv hasks) hbrought).conseq
    (fun _ h => ⟨h, trivial⟩) (fun _ _ h => ⟨h.1, h.2.2⟩) fun _ _ h => h.1) fun r => ?_
  refine Act.Triple.bind (Q := fun _ => I) (Act.Triple.modify fun _ h => h) fun _ => ?_
  refine (Act.Triple.forEach (I := I) fun m hm => ?_).conseq (fun _ h => h) (fun _ _ h => h.1) fun _ _ h => h
  exact Act.Triple.bind (kept_connect h henv hasks hm) fun r => Act.Triple.modify fun _ h => h

/-- The proxy is there for the plan, and the exposure network with it. -/
structure Placed (env : Env) (plan : NetworkPlan) (net : JsString) (serviceIds : List JsString)
    (d : Docker) : Prop where
  proxy : Brought env proxyContainerName (proxySpec env plan net serviceIds)
    (net :: serviceIds.map serviceNetworkName) d
  network : (d.managedNetwork net).isSome

theorem placed_executeProxy :
    Act.Returns (fun _ => True) (executeProxy env plan net serviceIds)
      fun _ w => Placed env plan net serviceIds w.docker := by
  let I (d : Docker) : Prop := (d.managedNetwork net).isSome
  have hcalls : ContainerCalls I proxyContainerName (proxyOptions env plan net serviceIds) := by
    have hsame : ∀ d d' : Docker, I d → d'.networks = d.networks → I d' := by
      intro d d' hd hnetworks
      change (d'.managedNetwork net).isSome
      rwa [managedNetwork_of_networks hnetworks]
    exact ⟨fun d _ d' hd hcall => hsame d d' hd (Docker.networks_createContainer hcall),
      fun d _ d' hd _ _ hcall => hsame d d' hd (Docker.networks_startContainer hcall),
      fun d _ d' hd _ _ hcall => hsame d d' hd (Docker.networks_removeContainer hcall),
      fun d _ _ d' hd _ _ hcall => hsame d d' hd (Docker.networks_connectNetwork hcall)⟩
  refine Act.Triple.bind ((ensureNetwork_spec (I := fun _ => True) fun _ _ _ _ => trivial).conseq
    (fun _ h => h) (fun _ _ h => h.2) fun _ _ h => h) fun r => ?_
  refine Act.Triple.bind (Q := fun _ w => I w.docker) (Act.Triple.modify fun _ h => h) fun _ => ?_
  refine Act.Triple.bind (ensureContainer_spec hcalls tagged_proxyOptions) fun r => ?_
  refine Act.Triple.bind (Q := fun _ w => I w.docker ∧
    Brought env proxyContainerName (proxySpec env plan net serviceIds) [] w.docker)
    (Act.Triple.modify fun _ h => h) fun _ => ?_
  exact (connectAll_spec hcalls _ _).conseq (fun _ h => h) (fun _ _ h => ⟨h.2, h.1⟩) fun _ _ h => h

end Execute

/-! ### EXECUTE and OBSERVE in a run -/

section Stages

variable {sha256 : List UInt8 → JsString} {envs : List Env} {env : Env} {network : JsString}
  {was : Option Network} {ds : DesiredState} {graph : PlanGraph}

/-- The graph is the one that the run's documents are planned into. -/
def PlanGraph.IsOf (graph : PlanGraph) (env : Env) : Prop :=
  ∃ ds framework, env.load = .ok ds ∧ ds.framework = some framework ∧
    planOf env ds framework = .ok (.ok graph)

theorem asks_iff (h : PlanGraph.IsOf graph env) {plan : NetworkPlan} {serviceIds : List JsString} :
    Asks env plan network serviceIds ↔ graph.networkPlan = some plan ∧
      plan.exposureNetwork = some network ∧ Obj.keys graph.servicePlans = serviceIds := by
  obtain ⟨ds, framework, hload, hfw, hplan⟩ := h
  constructor
  · rintro ⟨⟨ds', framework', graph', hload', hfw', hplan', hnetwork, hids⟩, hexposes⟩
    rw [hload] at hload'
    cases hload'
    rw [hfw] at hfw'
    cases hfw'
    rw [hplan] at hplan'
    cases hplan'
    exact ⟨hnetwork, hexposes, hids⟩
  · rintro ⟨hnetwork, hexposes, hids⟩
    exact ⟨⟨ds, framework, graph, hload, hfw, hplan, hnetwork, hids⟩, hexposes⟩

/-- What a run owes its network plan. -/
def Owed (env : Env) (network : JsString) (d : Docker) : Prop :=
  ∀ plan serviceIds, Asks env plan network serviceIds → Placed env plan network serviceIds d

theorem executeGraph_spec (h : Hashing sha256 envs) (henv : env ∈ envs)
    (hname : ∀ id, network ≠ serviceNetworkName id) (hgraph : PlanGraph.IsOf graph env)
    (gate : Option (Obj GatedService)) :
    Act.Triple (fun w => Kept envs env network was w.docker) (executeGraph env ds graph gate)
      (fun r w => Kept envs env network was w.docker ∧ (r = none → Owed env network w.docker))
      fun _ w => Kept envs env network was w.docker := by
  refine Act.Triple.bind
    (Act.Keeps.forReturn fun e _ => keeps_executeEntry fun _ => kept_service hname e.1 e.2) fun r => ?_
  cases r with
  | some e => exact Act.Triple.pure fun _ hw => ⟨hw, by simp⟩
  | none =>
    refine Act.Triple.bind (Q := fun r w =>
      Kept envs env network was w.docker ∧ (r = none → Owed env network w.docker)) ?_ fun r => ?_
    · unfold executeNetworkPlan
      split
      · rename_i hnone
        refine Act.Triple.pure fun _ hw => ⟨hw, fun _ plan ids hasks => ?_⟩
        rw [((asks_iff hgraph).mp hasks).1] at hnone
        cases hnone
      rename_i plan hplan
      split
      · rename_i hnone
        refine Act.Triple.pure fun _ hw => ⟨hw, fun _ plan' ids hasks => ?_⟩
        obtain ⟨hplan', hexposes, -⟩ := (asks_iff hgraph).mp hasks
        rw [hplan, Option.some.injEq] at hplan'
        rw [hplan', hexposes] at hnone
        cases hnone
      rename_i net hnet
      have hasks : Asks env plan net (Obj.keys graph.servicePlans) :=
        (asks_iff hgraph).mpr ⟨hplan, hnet, rfl⟩
      refine Act.Triple.tryCatch (F := fun _ w => Kept envs env network was w.docker) ?_ fun e =>
        Act.Triple.bind (Act.Triple.modify fun _ hw => hw) fun _ =>
          Act.Triple.pure fun _ hw => ⟨hw, by simp⟩
      refine Act.Triple.bind
        ((Act.Triple.and (kept_executeProxy h henv hasks) placed_executeProxy).conseq
          (fun _ hw => ⟨hw, trivial⟩) (fun _ _ hw => hw) fun _ _ hw => hw.1)
        fun _ => Act.Triple.pure fun w hw => ⟨hw.1, fun _ => ?_⟩
      intro plan' ids hasks'
      obtain ⟨hplan', hexposes, rfl⟩ := (asks_iff hgraph).mp hasks'
      rw [hplan, Option.some.injEq] at hplan'
      subst hplan'
      rw [hnet, Option.some.injEq] at hexposes
      subst hexposes
      exact hw.2
    · cases r with
      | some e => exact Act.Triple.pure fun _ hw => ⟨hw.1, by simp⟩
      | none =>
        exact (keeps_executeProxyRender
          (I := fun d => Kept envs env network was d ∧ Owed env network d) graph).conseq
          (fun _ hw => ⟨hw.1, hw.2 rfl⟩) (fun _ _ hw => ⟨hw.1, fun _ => hw.2⟩) fun _ _ hw => hw.1

/-- The objects of the exposure, as they are found by name. -/
def Found (network : JsString) (c : Option Container) (n : Option Network) (d : Docker) : Prop :=
  d.managedContainer proxyContainerName = c ∧ d.managedNetwork network = n

theorem Owed.of_found {d d' : Docker} (h : Owed env network d)
    (hfound : Found network (d.managedContainer proxyContainerName) (d.managedNetwork network) d') :
    Owed env network d' := by
  intro plan ids hasks
  obtain ⟨⟨c, hc, hcurrent⟩, hnetwork⟩ := h plan ids hasks
  exact ⟨⟨c, hfound.1.trans hc, hcurrent⟩, hfound.2 ▸ hnetwork⟩

variable {c₀ : Option Container} {n₀ : Option Network} {planId : JsString}

/-- The objects are found as they were, and the rest is kept. -/
def Steady (envs : List Env) (env : Env) (network : JsString) (was : Option Network) (c : Option Container)
    (n : Option Network) (d : Docker) : Prop :=
  Kept envs env network was d ∧ Found network c n d

/-- No orphan has a label without a service. -/
theorem isOrphan_of_none {labels : Obj JsString} (h : Obj.get labels (js "wanfw.service") = none) :
    isOrphan ds labels = false := by
  rw [isOrphan, serviceLabel, h]
  rfl

theorem kept_collectContainers :
    KeepsDocker (Steady envs env network was c₀ n₀) (collectContainers env ds planId) := by
  refine Act.Triple.bind (query_docker _) fun containers => ?_
  -- the proxy is none of the orphans
  refine Act.Triple.assume
    (p := ∀ c ∈ containers, isOrphan ds c.labels = true → ∀ p, c₀ = some p → p.id ≠ c.id) ?_ fun hother => ?_
  · rintro w ⟨⟨hkept, hc₀, -⟩, rfl⟩ c hc horphan p hp hid
    obtain ⟨hc, hm⟩ := List.mem_filter.mp hc
    rw [hp] at hc₀
    have hproxy := Docker.mem_managedContainer hc₀
    obtain rfl : p = c := Docker.eq_of_id hproxy.1 hc hid
    obtain ⟨e, -, plan, net, ids, -, hfor⟩ := hkept.proxy p hc hproxy.2 hm
    rw [isOrphan_of_none hfor.service] at horphan
    cases horphan
  · refine (Act.Keeps.forEach (I := fun w => Steady envs env network was c₀ n₀ w.docker)
      fun c hc => ?_).conseq (fun _ hw => hw.1) (fun _ _ hw => hw) fun _ _ hw => hw
    obtain ⟨hc, horphan⟩ := List.mem_filter.mp hc
    refine (keeps_issue fun d _ d' hd hcall => ?_).bind fun _ => keeps_journal _ _ _ _
    refine ⟨hd.1.removeContainer hcall, (managedContainer_removed hcall fun p hp => ?_).trans hd.2.1,
      (managedNetwork_of_networks (Docker.networks_removeContainer hcall)).trans hd.2.2⟩
    exact hother c hc horphan p (hd.2.1 ▸ hp)

theorem kept_collectNetworks :
    KeepsDocker (Steady envs env network was c₀ n₀) (collectNetworks env ds planId) := by
  refine Act.Triple.bind (query_docker _) fun networks => ?_
  refine Act.Triple.assume
    (p := ∀ n ∈ networks, isOrphan ds n.labels = true → ∀ p, n₀ = some p → p.id ≠ n.id) ?_ fun hother => ?_
  · rintro w ⟨⟨hkept, -, hn₀⟩, rfl⟩ n hn horphan p hp hid
    rw [hp] at hn₀
    have heq : p = n := List.inj_on_of_nodup_map w.docker.networks_nodup (List.mem_of_find?_eq_some hn₀)
      (List.mem_of_mem_filter hn) hid
    rw [← heq, isOrphan_of_none (hkept.lasting p hn₀)] at horphan
    cases horphan
  · refine (Act.Keeps.forEach (I := fun w => Steady envs env network was c₀ n₀ w.docker)
      fun n hn => ?_).conseq (fun _ hw => hw.1) (fun _ _ hw => hw) fun _ _ hw => hw
    obtain ⟨hn, horphan⟩ := List.mem_filter.mp hn
    refine (keeps_issue fun d _ d' hd hcall => ?_).bind fun _ => keeps_journal _ _ _ _
    have hfound : d'.managedNetwork network = d.managedNetwork network :=
      managedNetwork_removed hcall fun p hp => hother n hn horphan p (hd.2.2 ▸ hp)
    have hcontainers : d'.containers = d.containers := by
      unfold Docker.removeNetwork at hcall
      split at hcall <;> cases hcall
      rfl
    refine ⟨⟨hcontainers ▸ hd.1.proxy, hfound ▸ hd.1.lasting, hfound ▸ hd.1.exposed⟩, ?_, hfound.trans hd.2.2⟩
    rw [Docker.managedContainer, hcontainers]
    exact hd.2.1

theorem kept_collectVolumes :
    KeepsDocker (Steady envs env network was c₀ n₀) (collectVolumes env ds planId) := by
  refine (keeps_query _).bind fun volumes => Act.Keeps.forEach fun v _ => ?_
  split
  · refine (keeps_issue fun d _ d' hd hcall => ?_).bind fun _ => keeps_journal _ _ _ _
    unfold Docker.removeVolume at hcall
    split at hcall <;> cases hcall
    exact ⟨⟨hd.1.proxy, hd.1.lasting, hd.1.exposed⟩, hd.2⟩
  · exact keeps_journal _ _ _ _

/-- OBSERVE takes nothing of the exposure. -/
theorem kept_observeStage : KeepsDocker (Steady envs env network was c₀ n₀) (observeStage env) := by
  refine Act.Keeps.get.bind fun w => ?_
  split
  · exact .pure _
  · split
    · exact .pure _
    · refine Act.Keeps.bind ?_ fun _ => .pure _
      refine kept_collectContainers.bind fun _ => kept_collectNetworks.bind fun _ =>
        kept_collectVolumes.bind fun _ => ?_
      refine (keeps_query _).bind fun remaining => (Act.Keeps.forEach fun service _ => ?_).bind fun _ =>
        Act.Keeps.modify fun _ h => h
      unfold writeStatus
      split
      · exact .throw _
      · exact Act.Keeps.modify fun _ h => h

end Stages

/-! ### A run -/

section Run

variable {sha256 : List UInt8 → JsString} {envs : List Env} {env : Env} {network : JsString} {w : World}

/-- What earlier runs have made of the exposure. -/
structure Usual (envs : List Env) (network : JsString) (d : Docker) : Prop where
  proxy : ∀ c ∈ d.containers, c.name = proxyContainerName → isManaged c.labels = true → Made envs c
  lasting : ∀ n, d.managedNetwork network = some n → Obj.get n.labels (js "wanfw.service") = none

theorem Usual.kept (h : Usual envs network w.docker) :
    Kept envs env network (w.docker.managedNetwork network) w.docker :=
  ⟨h.proxy, h.lasting, .inl rfl⟩

theorem executeStage_owes (h : Hashing sha256 envs) (henv : env ∈ envs)
    (hname : ∀ id, network ≠ serviceNetworkName id) (hdecided : Decided env w) {was : Option Network}
    (hkept : Kept envs env network was w.docker) :
    Act.Triple (· = w) (executeStage env)
      (fun r w' => Kept envs env network was w'.docker ∧ (r = none → Owed env network w'.docker))
      fun _ w' => Kept envs env network was w'.docker := by
  obtain ⟨⟨ds, hload, -, hds⟩, ds', hds', hgated⟩ := hdecided
  rw [hds, Option.some.injEq] at hds'
  subst hds'
  -- without a framework document the run has no network plan
  have hidle : ds.framework = none → Owed env network w.docker := by
    rintro hnone plan ids ⟨⟨ds', framework, graph, hload', hfw, -⟩, -⟩
    rw [hload] at hload'
    cases hload'
    rw [hnone] at hfw
    cases hfw
  refine Act.Triple.getBind ?_
  rintro w₁ rfl
  split
  · rename_i ds' graph hds' hgraph
    rw [hds, Option.some.injEq] at hds'
    subst hds'
    split
    · rename_i hnone
      exact Act.Triple.pure fun _ hw => hw ▸ ⟨hkept, fun _ => hidle hnone⟩
    · rename_i framework hfw
      obtain ⟨graph', validation, hgraph', -, hprepared⟩ := hgated framework hfw
      rw [hgraph, Option.some.injEq] at hgraph'
      subst hgraph'
      refine Act.Triple.bind
        ((executeGraph_spec h henv hname ⟨ds, framework, hload, hfw, hprepared.planned⟩ _).conseq
          (fun _ hw => hw ▸ hkept) (fun _ _ hw => hw) fun _ _ hw => hw) fun r => ?_
      cases r with
      | some e => exact Act.Triple.pure fun _ hw => hw
      | none =>
        exact Act.Triple.bind (Act.Triple.modify fun _ hw => hw) fun _ => Act.Triple.pure fun _ hw => hw
  · rename_i hmissing
    refine Act.Triple.pure fun _ hw => hw ▸ ⟨hkept, fun _ => hidle ?_⟩
    cases hfw : ds.framework with
    | none => rfl
    | some framework =>
      obtain ⟨graph, validation, hgraph, -⟩ := hgated framework hfw
      exact absurd hgraph (hmissing ds graph hds)

/-- **A run.** It keeps what earlier runs have made, and a run without an error is what its network
plan asks for. -/
theorem kept_runOnce (h : Hashing sha256 envs) (henv : env ∈ envs)
    (hname : ∀ id, network ≠ serviceNetworkName id) (husual : Usual envs network w.docker) :
    Kept envs env network (w.docker.managedNetwork network) (runOnce env w).2.docker ∧
      ∀ o, (runOnce env w).1 = .ok o → o.phase ≠ .error → Owed env network (runOnce env w).2.docker := by
  obtain ⟨o, r, w', hrun, ⟨w₁, hdocker, -, hparts⟩, hphase⟩ := runOnce_parts env w
  rw [hrun]
  let R (r : StageResult) (w' : World) : Prop :=
    Kept envs env network (w.docker.managedNetwork network) w'.docker ∧
      (r = none → Owed env network w'.docker)
  have hkept : Kept envs env network (w.docker.managedNetwork network) w₁.docker := by
    rw [hdocker]
    exact husual.kept
  have hresult : R r w' := by
    rcases hparts with ⟨rfl, hr⟩ | ⟨hdecided, hlast⟩
    · exact ⟨hkept, fun h => absurd h hr⟩
    · have hlaststages : Act.Triple (· = w₁) (runStages env [.execute, .observe]) R fun _ _ => False := by
        refine lastStages_spec (Q := R none) ?_ ?_
        · refine (executeStage_owes h henv hname hdecided hkept).conseq (fun _ h => h) (fun r _ hw => ?_)
            fun _ _ hw => ⟨hw, by simp⟩
          cases r with
          | some e => exact hw
          | none => exact hw
        · refine Act.Triple.ofEach fun w₂ hw₂ => ?_
          have hsteady : KeepsDocker (Steady envs env network (w.docker.managedNetwork network)
              (w₂.docker.managedContainer proxyContainerName) (w₂.docker.managedNetwork network))
              (observeStage env) :=
            kept_observeStage
          refine hsteady.conseq (fun w' hw => ?_) (fun r _ hw => ⟨hw.1, fun _ => ?_⟩)
            fun _ _ hw => ⟨hw.1, by simp⟩
          · rw [hw]
            exact ⟨hw₂.1, rfl, rfl⟩
          · exact (hw₂.2 rfl).of_found hw.2
      exact hlaststages.returned rfl hlast
  refine ⟨hresult.1, fun o' ho' hok => hresult.2 ?_⟩
  cases ho'
  by_contra hr
  exact hok (hphase.mpr hr)

end Run

/-! ### Runs -/

/-- The network was created in the first run whose plan got that far, with the options of that plan,
and is there ever since. -/
def FirstPlan (envs : List Env) (w : World) (network : JsString) (n : Network) : Prop :=
  ∃ before env later plan serviceIds, envs = before ++ env :: later ∧ Asks env plan network serviceIds ∧
    n.options = exposureNetworkDriverOptions plan network ∧
    (∀ earlier, earlier <+: before → (runs earlier w).docker.managedNetwork network = none) ∧
    ∀ mid, mid <+: later → (runs (before ++ env :: mid) w).docker.managedNetwork network = some n

/-- What has become of the exposure network over runs. -/
def History (envs : List Env) (w : World) (network : JsString) : Prop :=
  (∀ earlier, earlier <+: envs → (runs earlier w).docker.managedNetwork network = none) ∨
    ∃ n, FirstPlan envs w network n

/-- The framework has neither a proxy nor this exposure network yet. -/
structure Fresh (network : JsString) (d : Docker) : Prop where
  proxy : d.managedContainer proxyContainerName = none
  network : d.managedNetwork network = none

/-- What the network plan of the last run has come to. -/
structure Realised (envs : List Env) (w : World) (plan : NetworkPlan) (network : JsString)
    (serviceIds : List JsString) (d : Docker) : Prop where
  /-- The proxy runs, on the ports of this plan and on its networks alone. -/
  proxy : ∃ c, d.managedContainer proxyContainerName = some c ∧ c.state = js "running" ∧
    c.ports = plan.hostPorts ∧
    (∀ m ∈ network :: serviceIds.map serviceNetworkName, m ∈ c.networks) ∧
    ∀ m ∈ c.networks, m ∈ initialNetworks (some network) ∨
      m ∈ network :: serviceIds.map serviceNetworkName
  /-- The exposure network is that of the first plan. -/
  network : ∃ n, d.managedNetwork network = some n ∧ FirstPlan envs w network n

section Runs

variable {sha256 : List UInt8 → JsString} {all envs : List Env} {env : Env} {network : JsString} {w : World}

theorem runs_concat (envs : List Env) (env : Env) (w : World) :
    runs (envs ++ [env]) w = (runOnce env (runs envs w)).2 := by
  rw [Bystanders.runs, List.foldl_append]
  rfl

theorem FirstPlan.found {n : Network} (h : FirstPlan envs w network n) :
    (runs envs w).docker.managedNetwork network = some n := by
  obtain ⟨before, env, later, plan, ids, rfl, -, -, -, hlasts⟩ := h
  exact hlasts later List.prefix_rfl

/-- One more run. -/
theorem History.concat (h : History envs w network)
    (hkept : Kept all env network ((runs envs w).docker.managedNetwork network) (runs (envs ++ [env]) w).docker) :
    History (envs ++ [env]) w network := by
  rcases h with hnone | ⟨n, hn⟩
  · rcases hkept.exposed with hsame | ⟨-, n, plan, ids, hn, hasks, hoptions⟩
    · left
      intro earlier hearlier
      rcases List.prefix_concat_iff.mp hearlier with rfl | hearlier
      · exact hsame.trans (hnone envs List.prefix_rfl)
      · exact hnone earlier hearlier
    · refine .inr ⟨n, envs, env, [], plan, ids, rfl, hasks, hoptions, hnone, fun mid hmid => ?_⟩
      rw [List.prefix_nil.mp hmid]
      exact hn
  · have hsame : (runs (envs ++ [env]) w).docker.managedNetwork network = some n := by
      rcases hkept.exposed with hsame | ⟨hnone, -⟩
      · exact hsame.trans hn.found
      · rw [hn.found] at hnone
        cases hnone
    obtain ⟨before, env₀, later, plan, ids, rfl, hasks, hoptions, hnone, hlasts⟩ := hn
    refine .inr ⟨n, before, env₀, later ++ [env], plan, ids, by simp, hasks, hoptions, hnone, fun mid hmid => ?_⟩
    rcases List.prefix_concat_iff.mp hmid with rfl | hmid
    · rwa [List.append_assoc] at hsame
    · exact hlasts mid hmid

/-- Over any runs, however they end. -/
theorem usual_runs (h : Hashing sha256 all) (hname : ∀ id, network ≠ serviceNetworkName id)
    (hfresh : Fresh network w.docker) (hall : ∀ e ∈ envs, e ∈ all) :
    Usual all network (runs envs w).docker ∧ History envs w network := by
  induction envs using List.reverseRecOn with
  | nil =>
    refine ⟨⟨fun c hc hproxy hm => ?_, fun n hn => ?_⟩, .inl fun earlier hearlier => ?_⟩
    · have hnone := List.find?_eq_none.mp hfresh.proxy c hc
      simp [hproxy, hm] at hnone
    · exact absurd (hfresh.network.symm.trans hn) (by simp)
    · rw [List.prefix_nil.mp hearlier]
      exact hfresh.network
  | append_singleton envs env ih =>
    obtain ⟨husual, hhistory⟩ := ih fun e he => hall e (List.mem_append_left _ he)
    have henv := hall env (List.mem_append_right _ (List.mem_singleton_self _))
    obtain ⟨hkept, -⟩ := kept_runOnce h henv hname husual
    rw [← runs_concat] at hkept
    exact ⟨⟨hkept.proxy, hkept.lasting⟩, hhistory.concat hkept⟩

/-- **The ports and networks are those of the current plan, the exposure network is that of the
first.** -/
theorem network_plan_realised {plan : NetworkPlan} {serviceIds : List JsString} {o : ReconcileOutcome}
    (hfresh : Fresh network w.docker) (hsha : Hashing sha256 (envs ++ [env]))
    (hasks : Asks env plan network serviceIds) (hname : ∀ id, network ≠ serviceNetworkName id)
    (hrun : (runOnce env (runs envs w)).1 = .ok o) (hok : o.phase ≠ .error) :
    Realised (envs ++ [env]) w plan network serviceIds (runs (envs ++ [env]) w).docker := by
  have henv : env ∈ envs ++ [env] := List.mem_append_right _ (List.mem_singleton_self _)
  obtain ⟨husual, hhistory⟩ := usual_runs hsha hname hfresh fun e he => List.mem_append_left [env] he
  obtain ⟨hkept, howes⟩ := kept_runOnce hsha henv hname husual
  rw [← runs_concat] at hkept howes
  obtain ⟨⟨c, hc, hcurrent, hon⟩, hnetwork⟩ := howes o hrun hok plan serviceIds hasks
  constructor
  · have hmem := Docker.mem_managedContainer hc
    have hmanaged := List.find?_some hc
    rw [Bool.and_eq_true] at hmanaged
    have hfor := hsha.madeFor henv hasks (hkept.proxy c hmem.1 hmem.2 hmanaged.2) hcurrent.confighash
    exact ⟨c, hc, hcurrent.running, hfor.ports, hon, hfor.networks⟩
  · rcases hhistory.concat hkept with hnone | ⟨n, hn⟩
    · rw [hnone _ List.prefix_rfl] at hnetwork
      cases hnetwork
    · exact ⟨n, hn.found, hn⟩

end Runs

/-! ### A change of the provider -/

/-- The plan of the bundled macvlan provider. -/
def macvlanPlan : NetworkPlan where
  network := some (js "wanfw_exposure")
  endpoint := some ⟨some (js "dedicated-ip"), none⟩
  resources := some [⟨js "wanfw_exposure", some (js "macvlan"), some (js "eth0"), some (js "192.168.1.240/29"),
    some (js "192.168.1.1")⟩]

/-- The texts that are hashed in the runs below, with their digests. -/
def exposureDigests : List (JsString × JsString) :=
  [(js "network:wanfw_exposure", js "6b148c91d66b3f806ddb39c8b99097506d405806ba2cc5a50c089107c5a67899"),
    (proxyText [js "wanfw_exposure"] [], js "da6a5691a984cbf88a8f97703aade9bb840454768d758c02c14a49bbc8e7ec81"),
    (proxyText [js "wanfw_exposure"] (js "443,80"), js "add50db1215dddc4e94ddfc42bab8b99dac016f97a4794a7de7f016783ee4a58")]

/-- A run with this network plan and no service. -/
def exposureRun (provider : JsString) (plan : NetworkPlan) : Env :=
  { providerEnv provider plan ⟨[], []⟩ with sha256 := shaOf exposureDigests }

/-- A run with the macvlan provider, and one with the bridge provider. -/
def providerRuns : List Env :=
  [exposureRun (js "network-macvlan") macvlanPlan, exposureRun (js "network-bridge") bridgePlan]

theorem asks_exposureRun (provider : JsString) (hprovider : provider ≠ []) {plan : NetworkPlan}
    {network : JsString} (hnetwork : plan.exposureNetwork = some network) :
    Asks (exposureRun provider plan) plan network [] := by
  obtain ⟨u, us, rfl⟩ := List.exists_cons_of_ne_nil hprovider
  exact ⟨⟨_, _, .empty (some plan), rfl, rfl, rfl, rfl, rfl⟩, hnetwork⟩

/-- After the change the proxy publishes the bridge provider's ports, on a network that is still a
macvlan. -/
theorem network_plan_realised_changed :
    Realised providerRuns World.empty bridgePlan (js "wanfw_exposure") []
      (runs providerRuns World.empty).docker ∧
      ((runs providerRuns World.empty).docker.managedNetwork (js "wanfw_exposure")).bind (·.options) =
        exposureNetworkDriverOptions macvlanPlan (js "wanfw_exposure") := by
  refine ⟨?_, by decide +kernel⟩
  have hinj : Function.Injective (shaOf exposureDigests) := shaOf_injective (by decide +kernel) (by decide +kernel)
  have hsha : Hashing (shaOf exposureDigests)
      ([exposureRun (js "network-macvlan") macvlanPlan] ++ [exposureRun (js "network-bridge") bridgePlan]) :=
    ⟨by simp [exposureRun], hinj.injOn⟩
  have hlive : (runOnce (exposureRun (js "network-bridge") bridgePlan)
      (runs [exposureRun (js "network-macvlan") macvlanPlan] World.empty)).1.map (·.phase) = .ok .live := by
    decide +kernel
  obtain ⟨o, ho, hphase⟩ : ∃ o, (runOnce (exposureRun (js "network-bridge") bridgePlan)
      (runs [exposureRun (js "network-macvlan") macvlanPlan] World.empty)).1 = .ok o ∧ o.phase = .live := by
    revert hlive
    rcases (runOnce _ _).1 with e | o
    · exact nofun
    · exact fun h => ⟨o, rfl, Except.ok.inj h⟩
  have hasks : Asks (exposureRun (js "network-bridge") bridgePlan) bridgePlan (js "wanfw_exposure") [] :=
    asks_exposureRun _ (by decide) rfl
  have hok : o.phase ≠ .error := by rw [hphase]; decide
  refine network_plan_realised ⟨rfl, rfl⟩ hsha hasks (fun id h => ?_) ho hok
  have htake := congrArg (List.take 7) h
  rw [serviceNetworkName, List.take_append_of_le_length (by decide)] at htake
  revert htake
  decide

end Wanfw.Orchestrator.ExposureRuns
