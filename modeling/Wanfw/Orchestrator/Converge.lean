import Wanfw.Orchestrator.Exposure
import Wanfw.Orchestrator.Labels
import Wanfw.Orchestrator.Preserve

/-!
# EXECUTE converges

From any state of the daemon, a run of EXECUTE that succeeds leaves every service that
is not parked `Settled`: `settled_executeGraph`. Each ensure function brings one part
of it about, and what is done for one service spares the others (`Spares`).

The run after that finds nothing to do, but for one kind of volume. Volumes are looked
up among the managed ones and created by name, and creating a volume that exists does
nothing: a named volume that was there without the framework's label is created again
in every run. `converges_iff` says that these are the only calls.
-/

namespace Wanfw.Orchestrator

open Wanfw.Js

/-! ### What a call leaves alone -/

/-- The container of this name is found as before, and no network and no volume is gone. -/
structure Spares (name : JsString) (d d' : Docker) : Prop where
  container : d'.managedContainer name = d.managedContainer name
  networks : d.networks <+: d'.networks
  volumes : d.volumes <+: d'.volumes

namespace Docker

variable {d d' : Docker} {name : JsString}

theorem managedContainer_mapContainers {f : Container → Container} {hf : ∀ c, (f c).id = c.id}
    (h : ∀ c, (f c).name = c.name ∧ (f c).labels = c.labels) :
    (d.mapContainers f hf).managedContainer name = (d.managedContainer name).map f := by
  unfold managedContainer mapContainers
  rw [List.find?_map]
  congr 2
  funext c
  simp [(h c).1, (h c).2]

/-- A container that is started. -/
theorem managedContainer_started {id : ℕ} (h : d.startContainer id = .ok ((), d')) : d'.managedContainer name =
    (d.managedContainer name).map fun c => if c.id = id then { c with state := js "running" } else c := by
  obtain ⟨_, rfl⟩ := startContainer_eq h
  exact managedContainer_mapContainers fun c => by split <;> exact ⟨rfl, rfl⟩

/-- A container that is connected. -/
theorem managedContainer_connected {id : ℕ} {network : JsString} (h : d.connectNetwork id network = .ok ((), d')) :
    d'.managedContainer name =
      (d.managedContainer name).map fun c => if c.id = id then { c with networks := c.networks ++ [network] } else c := by
  obtain ⟨_, rfl⟩ := connectNetwork_eq h
  exact managedContainer_mapContainers fun c => by split <;> exact ⟨rfl, rfl⟩

/-- A change of the container `c` does not concern containers of another name. -/
theorem map_managedContainer_of_ne {c : Container} (hc : c ∈ d.containers) (hne : c.name ≠ name) {g : Container → Container} :
    ((d.managedContainer name).map fun x => if x.id = c.id then g x else x) = d.managedContainer name := by
  cases hfound : d.managedContainer name with
  | none => rfl
  | some x =>
    have hx := mem_managedContainer hfound
    rw [Option.map_some, if_neg]
    intro hid
    exact hne (eq_of_id hx.1 hc hid ▸ hx.2)

theorem managedContainer_createContainer_of_ne {o : CreateContainerOptions} {c : Container}
    (h : d.createContainer o = .ok (c, d')) (hne : o.name ≠ name) : d'.managedContainer name = d.managedContainer name := by
  unfold createContainer at h
  split at h <;> cases h
  rw [managedContainer, List.find?_append, List.find?_singleton, if_neg (by simp [newContainer, hne]), Option.or_none]
  rfl

theorem managedContainer_removeContainer_of_ne {c : Container} (hc : c ∈ d.containers) (hne : c.name ≠ name)
    (h : d.removeContainer c.id = .ok ((), d')) : d'.managedContainer name = d.managedContainer name := by
  unfold removeContainer at h
  split at h <;> cases h
  rw [managedContainer, managedContainer, List.find?_filter]
  refine List.find?_congr fun x hx => ?_
  by_cases hid : x.id = c.id
  · rw [eq_of_id hx hc hid]
    simp [hne]
  · simp only [bne_iff_ne.mpr hid, true_and, Bool.decide_eq_true]

end Docker

section Spares

variable {name other : JsString} {d₀ d d' : Docker}

theorem Spares.refl (name : JsString) (d : Docker) : Spares name d d := ⟨rfl, List.prefix_refl _, List.prefix_refl _⟩

theorem Spares.step (h : Spares name d₀ d) (hcontainer : d'.managedContainer name = d.managedContainer name)
    (hnetworks : d.networks <+: d'.networks) (hvolumes : d.volumes <+: d'.volumes) : Spares name d₀ d' :=
  ⟨hcontainer.trans h.container, h.networks.trans hnetworks, h.volumes.trans hvolumes⟩

/-- The calls for a container of another name. -/
theorem spares_container {options : CreateContainerOptions} (hname : options.name = other) (hne : other ≠ name) :
    ContainerCalls (Spares name d₀) other options where
  create d c d' hd h := by
    refine hd.step (Docker.managedContainer_createContainer_of_ne h (hname ▸ hne))
      (by rw [Docker.networks_createContainer h]) ?_
    obtain ⟨new, hnew, -⟩ := Docker.mountVolumes_eq d.volumes options.mounts
    rw [Docker.volumes_createContainer h, hnew]
    exact List.prefix_append _ _
  start d c d' hd hc hcname h :=
    hd.step ((Docker.managedContainer_started h).trans (Docker.map_managedContainer_of_ne hc (hcname ▸ hne)))
      (by rw [Docker.networks_startContainer h]) (by rw [Docker.volumes_startContainer h])
  remove d c d' hd hc hcname h :=
    hd.step (Docker.managedContainer_removeContainer_of_ne hc (hcname ▸ hne) h)
      (by rw [Docker.networks_removeContainer h]) (by rw [Docker.volumes_removeContainer h])
  connect d c network d' hd hc hcname h :=
    hd.step ((Docker.managedContainer_connected h).trans (Docker.map_managedContainer_of_ne hc (hcname ▸ hne)))
      (by rw [Docker.networks_connectNetwork h]) (by rw [Docker.volumes_connectNetwork h])

theorem Spares.createNetwork {network : JsString} {labels : Obj JsString} {options : Option NetworkDriverOptions}
    (hd : Spares name d₀ d) (h : d.createNetwork network labels options = .ok ((), d')) : Spares name d₀ d' := by
  unfold Docker.createNetwork at h
  split at h <;> cases h
  exact hd.step rfl (List.prefix_append _ _) (List.prefix_refl _)

theorem Spares.createVolume {volume : JsString} {labels : Obj JsString} (hd : Spares name d₀ d)
    (h : d.createVolume volume labels = .ok ((), d')) : Spares name d₀ d' := by
  cases h
  obtain ⟨new, hnew, -⟩ := Docker.addVolume_eq d.volumes volume labels
  exact hd.step rfl (List.prefix_refl _) ⟨new, hnew.symm⟩

variable {env : Env} {ds : DesiredState}

/-- The calls for another service. -/
theorem spares_service {serviceId : JsString} (spec : ContainerSpec) (hne : containerName serviceId ≠ name) :
    ServiceCalls (Spares name d₀) env ds serviceId spec :=
  ⟨fun _ _ hd h => hd.createNetwork h, fun _ _ _ _ hd h => hd.createVolume h, spares_container rfl hne⟩

/-- The calls for a network plan. -/
theorem spares_proxy (plan : NetworkPlan) (exposureNetwork : JsString) (serviceIds : List JsString)
    (hne : proxyContainerName ≠ name) : ProxyCalls (Spares name d₀) env plan exposureNetwork serviceIds :=
  ⟨fun _ _ hd h => hd.createNetwork h, spares_container rfl hne⟩

/-- No volume is ever removed. -/
theorem volumes_executeGraph (graph : PlanGraph) (gate : Option (Obj GatedService)) (w : World) :
    w.docker.volumes <+: (executeGraph env ds graph gate w).2.docker.volumes := by
  -- no container has the empty name
  have hkeeps : KeepsDocker (Spares [] w.docker) (executeGraph env ds graph gate) :=
    keeps_executeGraph (fun serviceId spec _ _ => spares_service spec (List.append_ne_nil_of_left_ne_nil (by decide) _))
      fun plan exposureNetwork _ _ => spares_proxy plan exposureNetwork _ (by decide)
  exact (hkeeps.final (Spares.refl _ _)).volumes

end Spares

/-! ### What the ensure functions bring about -/

/-- The container runs, and was created for this plan. -/
structure Container.Current (c : Container) (env : Env) (spec : ContainerSpec) : Prop where
  running : c.state = js "running"
  confighash : Obj.get c.labels (js "wanfw.confighash") = some (computeConfigHash env spec)

/-- The container of this name is there for this plan, on these networks. -/
def Brought (env : Env) (name : JsString) (spec : ContainerSpec) (networks : List JsString) (d : Docker) : Prop :=
  ∃ c, d.managedContainer name = some c ∧ c.Current env spec ∧ ∀ n ∈ networks, n ∈ c.networks

section Ensure

variable {env : Env} {I : Docker → Prop} {name planId : JsString} {owner : Owner}

theorem isSome_managedNetwork_mono {d d' : Docker} (h : d.networks <+: d'.networks)
    (hsome : (d.managedNetwork name).isSome) : (d'.managedNetwork name).isSome := by
  unfold Docker.managedNetwork at *
  rw [List.find?_isSome] at *
  obtain ⟨n, hn, hp⟩ := hsome
  exact ⟨n, h.subset hn, hp⟩

/-- The network is there. -/
theorem ensureNetwork_spec {options : Option NetworkDriverOptions}
    (h : ∀ d d', I d → d.createNetwork name (networkLabels env name planId owner) options = .ok ((), d') → I d') :
    Act.Returns (fun w => I w.docker) (ensureNetwork env name planId owner options)
      fun _ w => I w.docker ∧ (w.docker.managedNetwork name).isSome := by
  refine Act.Triple.bind ((query_docker _).conseq (fun _ h => h) (fun _ _ h => h) fun _ _ _ => trivial) fun existing => ?_
  cases existing with
  | some n => exact Act.Triple.pure fun w hw => ⟨hw.1, by rw [← hw.2]; rfl⟩
  | none =>
    refine Act.Triple.bind (Q := fun _ w => I w.docker ∧ (w.docker.managedNetwork name).isSome) ?_ fun _ =>
      Act.Triple.pure fun _ h => h
    refine returns_issue fun w _ d hw hd => ⟨h _ _ hw.1 hd, ?_⟩
    unfold Docker.createNetwork at hd
    split at hd <;> cases hd
    rw [Docker.managedNetwork, List.find?_isSome]
    refine ⟨_, List.mem_append_right _ (List.mem_singleton_self _), ?_⟩
    have hmanaged : Obj.get (networkLabels env name planId owner) (js "wanfw.managed") = some (js "true") := by
      rw [networkLabels, baseLabels, Obj.get_spread _ _ (by cases owner <;> simp [Obj.keys, Owner.labels] <;> decide)]
      cases owner <;> rfl
    simp [isManaged, hmanaged]

/-- The volume is there. -/
theorem ensureVolume_spec {serviceId : JsString} {remove : Bool}
    (h : ∀ d d', I d → d.createVolume name (volumeLabels env name planId serviceId remove) = .ok ((), d') → I d') :
    Act.Returns (fun w => I w.docker) (ensureVolume env name planId serviceId remove)
      fun _ w => I w.docker ∧ ∃ v ∈ w.docker.volumes, v.name = name := by
  refine Act.Triple.bind ((query_docker _).conseq (fun _ h => h) (fun _ _ h => h) fun _ _ _ => trivial) fun existing => ?_
  cases existing with
  | some v =>
    refine Act.Triple.pure fun w hw => ⟨hw.1, v, List.mem_of_find?_eq_some hw.2.symm, ?_⟩
    have hfound := List.find?_some hw.2.symm
    rw [Bool.and_eq_true, beq_iff_eq] at hfound
    exact hfound.1
  | none =>
    refine Act.Triple.bind (Q := fun _ w => I w.docker ∧ ∃ v ∈ w.docker.volumes, v.name = name) ?_ fun _ =>
      Act.Triple.pure fun _ h => h
    refine returns_issue fun w _ d hw hd => ⟨h _ _ hw.1 hd, ?_⟩
    cases hd
    change ∃ v ∈ Docker.addVolume w.docker.volumes name _, v.name = name
    unfold Docker.addVolume
    split
    · rename_i hthere
      obtain ⟨v, hv, hname⟩ := List.any_eq_true.mp hthere
      exact ⟨v, hv, beq_iff_eq.mp hname⟩
    · exact ⟨_, List.mem_append_right _ (List.mem_singleton_self _), rfl⟩

/-- The labels of the container that a plan creates say that it is managed, and for which plan. -/
structure CreateContainerOptions.Tagged (o : CreateContainerOptions) (env : Env) (name : JsString) (spec : ContainerSpec) :
    Prop where
  name : o.name = name
  managed : Obj.get o.labels (js "wanfw.managed") = some (js "true")
  confighash : Obj.get o.labels (js "wanfw.confighash") = some (computeConfigHash env spec)

theorem createAndStart_spec {spec : ContainerSpec} {options : CreateContainerOptions} (h : ContainerCalls I name options)
    (htag : options.Tagged env name spec) :
    Act.Returns (fun w => I w.docker) (createAndStart env options) fun _ w => I w.docker ∧ Brought env name spec [] w.docker := by
  refine Act.Triple.bind (Q := fun c w => I w.docker ∧ w.docker.managedContainer name = some c ∧ c.labels = options.labels)
    (returns_issue fun w c d hw hd => ?_) fun c => returns_issue fun w _ d hw hd => ?_
  · exact ⟨h.create _ _ _ hw hd, htag.name ▸ Docker.managedContainer_created hd htag.managed, Docker.labels_created hd⟩
  · have hc := Docker.mem_managedContainer hw.2.1
    refine ⟨h.start _ _ _ hw.1 hc.1 hc.2 hd, { c with state := js "running" }, ?_, ⟨rfl, ?_⟩, by simp⟩
    · refine (Docker.managedContainer_started hd).trans ?_
      rw [hw.2.1, Option.map_some, if_pos rfl]
    · rw [← htag.confighash, ← hw.2.2]

/-- The container is there, for the plan. -/
theorem ensureContainer_spec {spec : ContainerSpec} (h : ContainerCalls I name (createOptions env name spec planId owner))
    (htag : (createOptions env name spec planId owner).Tagged env name spec) :
    Act.Returns (fun w => I w.docker) (ensureContainer env name spec planId owner)
      fun _ w => I w.docker ∧ Brought env name spec [] w.docker := by
  have hcreate := createAndStart_spec h htag
  refine Act.Triple.bind ((query_docker _).conseq (fun _ h => h) (fun _ _ h => h) fun _ _ _ => trivial) fun existing => ?_
  cases existing with
  | none =>
    exact Act.Triple.bind (hcreate.conseq (fun _ h => h.1) (fun _ _ h => h) fun _ _ h => h) fun _ =>
      Act.Triple.pure fun _ h => h
  | some c =>
    dsimp only
    split
    · rename_i hhash
      split
      · rename_i hrunning
        exact Act.Triple.pure fun w hw => ⟨hw.1, c, hw.2.symm, ⟨hrunning, hhash⟩, by simp⟩
      · refine Act.Triple.bind (returns_issue fun w _ d hw hd => ?_) fun _ => Act.Triple.pure fun _ h => h
        have hc := Docker.mem_managedContainer hw.2.symm
        refine ⟨h.start _ _ _ hw.1 hc.1 hc.2 hd, { c with state := js "running" }, ?_, ⟨rfl, hhash⟩, by simp⟩
        refine (Docker.managedContainer_started hd).trans ?_
        rw [← hw.2, Option.map_some, if_pos rfl]
    · refine Act.Triple.bind (Q := fun _ w => I w.docker) (returns_issue fun w _ d hw hd => ?_) fun _ =>
        Act.Triple.bind hcreate fun _ => Act.Triple.pure fun _ h => h
      have hc := Docker.mem_managedContainer hw.2.symm
      exact h.remove _ _ _ hw.1 hc.1 hc.2 hd

/-- The container is on one more network. -/
theorem connect_spec {options : CreateContainerOptions} (h : ContainerCalls I name options) {spec : ContainerSpec}
    {networks : List JsString} (networkName : JsString) :
    Act.Returns (fun w => I w.docker ∧ Brought env name spec networks w.docker) (connect env name networkName)
      fun _ w => I w.docker ∧ Brought env name spec (networkName :: networks) w.docker := by
  refine Act.Triple.bind ((query_docker (I := fun d => I d ∧ Brought env name spec networks d) _).conseq (fun _ h => h)
    (fun _ _ h => h) fun _ _ _ => trivial) fun existing => ?_
  cases existing with
  | none =>
    refine Act.Triple.pure fun w hw => ?_
    obtain ⟨⟨-, c, hc, -⟩, hnone⟩ := hw
    rw [hc] at hnone
    cases hnone
  | some c =>
    have hbrought : ∀ w : World, Brought env name spec networks w.docker → some c = w.docker.managedContainer name →
        c.Current env spec ∧ ∀ n ∈ networks, n ∈ c.networks := by
      rintro w ⟨c', hc', hcurrent⟩ hc
      rw [hc'] at hc
      cases hc
      exact hcurrent
    dsimp only
    split
    · rename_i hmem
      refine Act.Triple.pure fun w hw => ⟨hw.1.1, c, hw.2.symm, (hbrought w hw.1.2 hw.2).1, ?_⟩
      exact List.forall_mem_cons.mpr ⟨hmem, (hbrought w hw.1.2 hw.2).2⟩
    · refine Act.Triple.bind (returns_issue fun w _ d hw hd => ?_) fun _ => Act.Triple.pure fun _ h => h
      have hc := Docker.mem_managedContainer hw.2.symm
      obtain ⟨⟨hrunning, hhash⟩, hon⟩ := hbrought w hw.1.2 hw.2
      refine ⟨h.connect _ _ _ _ hw.1.1 hc.1 hc.2 hd, { c with networks := c.networks ++ [networkName] }, ?_,
        ⟨hrunning, hhash⟩, ?_⟩
      · refine (Docker.managedContainer_connected hd).trans ?_
        rw [← hw.2, Option.map_some, if_pos rfl]
      · refine List.forall_mem_cons.mpr ⟨List.mem_append_right _ (List.mem_singleton_self _), fun n hn => ?_⟩
        exact List.mem_append_left _ (hon n hn)

/-- The container is on all the networks. -/
theorem connectAll_spec {options : CreateContainerOptions} (h : ContainerCalls I name options) {spec : ContainerSpec}
    (networks : List JsString) (payload : JsString → Json) :
    Act.Returns (fun w => I w.docker ∧ Brought env name spec [] w.docker)
      (Act.forEach networks fun networkName => do
        let r ← connect env name networkName
        journal env.planId r.step (payload networkName) r.toJson)
      fun _ w => I w.docker ∧ Brought env name spec networks w.docker := by
  -- what is not to be done any more is done
  let J (todo : List JsString) (w : World) : Prop :=
    I w.docker ∧ ∃ done, Brought env name spec done w.docker ∧ ∀ n ∈ networks, n ∈ todo ∨ n ∈ done
  refine (Act.Triple.forEachLeft (I := J) (fun n todo => ?_) networks).conseq ?_ ?_ fun _ _ h => h
  · refine Act.Triple.ofEach ?_
    rintro w ⟨hI, done, hbrought, hdone⟩
    refine Act.Triple.bind ((connect_spec h n).conseq (fun w' hw' => hw' ▸ ⟨hI, hbrought⟩) (fun _ _ h => h) fun _ _ h => h)
      fun r => Act.Triple.modify fun w' hw' => ⟨hw'.1, n :: done, hw'.2, fun m hm => ?_⟩
    rcases hdone m hm with hm | hm
    · rcases List.mem_cons.mp hm with rfl | hm
      · exact .inr List.mem_cons_self
      · exact .inl hm
    · exact .inr (List.mem_cons_of_mem _ hm)
  · exact fun w hw => ⟨hw.1, [], hw.2, fun n hn => .inl hn⟩
  · rintro _ w ⟨hI, done, ⟨c, hc, hcurrent, hon⟩, hdone⟩
    exact ⟨hI, c, hc, hcurrent, fun n hn => hon n ((hdone n hn).resolve_left List.not_mem_nil)⟩

end Ensure

/-! ### One service -/

/-- A plan whose labels are an object without the framework's keys, and whose volumes are those of its service. -/
structure ContainerSpec.Plain (spec : ContainerSpec) (serviceId : JsString) : Prop where
  labels_nodup : (Obj.keys (spec.labels.getD [])).Nodup
  labels : ∀ k ∈ Obj.keys (spec.labels.getD []), startsWith k (js "wanfw.") = false
  volumes : ∀ m ∈ spec.mountList, m.type = .volume → m ∈ namedVolumes serviceId spec

/-- What a service needs, for its plan. -/
structure Settled (env : Env) (d : Docker) (serviceId : JsString) (spec : ContainerSpec) : Prop where
  container : Brought env (containerName serviceId) (withPrimaryNetwork serviceId spec)
    ((withPrimaryNetwork serviceId spec).networks.getD []) d
  network : (d.managedNetwork (serviceNetworkName serviceId)).isSome
  volumes : ∀ vol ∈ namedVolumes serviceId spec, ∃ v ∈ d.volumes, v.name = vol.source

section Service

variable {env : Env} {ds : DesiredState} {serviceId : JsString} {spec : ContainerSpec} {vs : List Volume}

/-- A managed volume. -/
def Volume.Managed (v : Volume) : Prop := isManaged v.labels = true

theorem ContainerSpec.Plain.get (h : spec.Plain serviceId) {k : JsString} (hk : startsWith k (js "wanfw.") = true) :
    Obj.get (spec.labels.getD []) k = none := by
  cases hget : Obj.get (spec.labels.getD []) k with
  | none => rfl
  | some v =>
    have hmem : k ∈ Obj.keys (spec.labels.getD []) :=
      List.mem_map_of_mem (f := Prod.fst) ((Obj.mem_iff_get h.labels_nodup).mpr hget)
    rw [h.labels k hmem] at hk
    cases hk

theorem tagged_serviceOptions (h : spec.Plain serviceId) :
    (serviceOptions env serviceId spec).Tagged env (containerName serviceId) (withPrimaryNetwork serviceId spec) := by
  have hget : ∀ k, startsWith k (js "wanfw.") = true → Obj.get (serviceOptions env serviceId spec).labels k =
      Obj.get [(js "wanfw.service", serviceId), (js "wanfw.plan", env.planId),
        (js "wanfw.confighash", computeConfigHash env (withPrimaryNetwork serviceId spec)),
        (js "wanfw.managed", js "true")] k := by
    intro k hk
    have hnodup : (Obj.keys ((withPrimaryNetwork serviceId spec).labels.getD [])).Nodup := h.labels_nodup
    refine (get_containerLabels hnodup env.planId k).trans ?_
    rw [show Obj.get ((withPrimaryNetwork serviceId spec).labels.getD []) k = none from h.get hk, Option.none_or]
  exact ⟨rfl, hget _ (by decide), hget _ (by decide)⟩

/-- Before the container: the network is there, and so are the volumes but those of `todo`. Since `vs` there are
only managed volumes more. -/
structure Ready (serviceId : JsString) (spec : ContainerSpec) (vs : List Volume) (todo : List MountSpec) (d : Docker) :
    Prop where
  grown : Grown Volume.Managed vs d
  network : (d.managedNetwork (serviceNetworkName serviceId)).isSome
  volumes : ∀ vol ∈ namedVolumes serviceId spec, vol ∈ todo ∨ ∃ v ∈ d.volumes, v.name = vol.source

theorem Ready.same {todo : List MountSpec} {d d' : Docker} (h : Ready serviceId spec vs todo d)
    (hvolumes : d'.volumes = d.volumes) (hnetworks : d'.networks = d.networks) : Ready serviceId spec vs todo d' where
  grown := h.grown.same hvolumes
  network := by
    rw [Docker.managedNetwork, hnetworks]
    exact h.network
  volumes := by
    rw [hvolumes]
    exact h.volumes

/-- A volume that is there is left as it is. -/
theorem Docker.addVolume_self {volumes : List Volume} {name : JsString} (h : ∃ v ∈ volumes, v.name = name)
    (labels : Obj JsString) : addVolume volumes name labels = volumes := by
  obtain ⟨v, hv, hname⟩ := h
  unfold addVolume
  exact if_pos (List.any_eq_true.mpr ⟨v, hv, by simpa using hname⟩)

/-- Volumes that are all there. -/
theorem Docker.mountVolumes_self {volumes : List Volume} {mounts : List MountSpec}
    (h : ∀ m ∈ mounts, m.type = .volume → ∃ v ∈ volumes, v.name = m.source) : mountVolumes volumes mounts = volumes := by
  unfold mountVolumes
  have hthere : ∀ m ∈ mounts.filter fun m => m.type = .volume, ∃ v ∈ volumes, v.name = m.source := fun m hm =>
    h m (List.mem_filter.mp hm).1 (by simpa using (List.mem_filter.mp hm).2)
  generalize (mounts.filter fun m => m.type = .volume) = ms at hthere ⊢
  induction ms with
  | nil => rfl
  | cons m ms ih =>
    rw [List.foldl_cons, addVolume_self (hthere m List.mem_cons_self)]
    exact ih fun m' hm' => hthere m' (List.mem_cons_of_mem _ hm')

/-- The calls for the container of a service add no volume when its own are there. -/
theorem ready_container (hspec : spec.Plain serviceId) : ContainerCalls (Ready serviceId spec vs []) (containerName serviceId)
    (serviceOptions env serviceId spec) where
  create d c d' hd h := by
    refine hd.same ((Docker.volumes_createContainer h).trans (Docker.mountVolumes_self fun m hm hv => ?_))
      (Docker.networks_createContainer h)
    exact (hd.volumes m (hspec.volumes m hm hv)).resolve_left List.not_mem_nil
  start d c d' hd _ _ h := hd.same (Docker.volumes_startContainer h) (Docker.networks_startContainer h)
  remove d c d' hd _ _ h := hd.same (Docker.volumes_removeContainer h) (Docker.networks_removeContainer h)
  connect d c network d' hd _ _ h := hd.same (Docker.volumes_connectNetwork h) (Docker.networks_connectNetwork h)

theorem managed_volumeLabels (name planId : JsString) (flag : Bool) :
    isManaged (volumeLabels env name planId serviceId flag) = true := by
  rw [isManaged, volumeLabels, baseLabels, Obj.get_spread _ _ (by simp [Obj.keys]; decide)]
  rfl

/-- A volume that `ensureVolume` creates is managed. -/
theorem grown_createVolume {d d' : Docker} {name planId : JsString} {flag : Bool} (hd : Grown Volume.Managed vs d)
    (h : d.createVolume name (volumeLabels env name planId serviceId flag) = .ok ((), d')) : Grown Volume.Managed vs d' := by
  cases h
  obtain ⟨new, hnew, hall⟩ := Docker.addVolume_eq d.volumes name (volumeLabels env name planId serviceId flag)
  refine hd.more ⟨new, hnew, fun v hv => ?_⟩
  rw [hall v hv]
  exact managed_volumeLabels _ _ _

/-- **The steps for a service settle it**, and the only volumes they add are managed. -/
theorem executeService_spec (hspec : spec.Plain serviceId) :
    Act.Returns (fun w => Grown Volume.Managed vs w.docker) (executeService env ds serviceId spec)
      fun _ w => Grown Volume.Managed vs w.docker ∧ Settled env w.docker serviceId spec := by
  let R (todo : List MountSpec) (w : World) : Prop := Ready serviceId spec vs todo w.docker
  refine Act.Triple.bind (ensureNetwork_spec fun d d' hd h => hd.same (Docker.volumes_createNetwork h)) fun net => ?_
  refine Act.Triple.bind (Q := fun _ => R (namedVolumes serviceId spec))
    (Act.Triple.modify fun w h => ⟨h.1, h.2, fun vol hvol => .inl hvol⟩) fun _ => ?_
  refine Act.Triple.bind (Q := fun _ => R []) (Act.Triple.forEachLeft (fun vol todo => ?_) _) fun _ => ?_
  · refine Act.Triple.bind (Q := fun _ => R todo) ((ensureVolume_spec fun d d' hd h => ?_).conseq (fun _ h => h)
      (fun _ w h => ⟨h.1.grown, h.1.network, fun vol' hvol' => ?_⟩) fun _ _ h => h) fun r => Act.Triple.modify fun _ h => h
    · have hspares := (Spares.refl (containerName serviceId) d).createVolume h
      refine ⟨grown_createVolume hd.grown h, isSome_managedNetwork_mono hspares.networks hd.network, fun vol' hvol' => ?_⟩
      refine (hd.volumes vol' hvol').imp_right fun ⟨v, hv, hname⟩ => ⟨v, hspares.volumes.subset hv, hname⟩
    · rcases h.1.volumes vol' hvol' with hmem | hthere
      · rcases List.mem_cons.mp hmem with rfl | hmem
        · exact .inr h.2
        · exact .inl hmem
      · exact .inr hthere
  have hcalls : ContainerCalls (Ready serviceId spec vs []) (containerName serviceId) (serviceOptions env serviceId spec) :=
    ready_container hspec
  refine Act.Triple.bind (ensureContainer_spec hcalls (tagged_serviceOptions hspec)) fun r => ?_
  refine Act.Triple.bind (Q := fun _ w => R [] w ∧ Brought env (containerName serviceId) (withPrimaryNetwork serviceId spec) []
    w.docker) (Act.Triple.modify fun _ h => h) fun _ => ?_
  refine (connectAll_spec hcalls _ fun networkName => servicePayload serviceId [(js "networkName", .str networkName)]).conseq
    (fun _ h => h) (fun _ w h => ?_) fun _ _ h => h
  exact ⟨h.1.grown, h.2, h.1.network, fun vol hvol => (h.1.volumes vol hvol).resolve_left List.not_mem_nil⟩

end Service

/-! ### The whole stage -/

section Graph

variable {env : Env} {ds : DesiredState} {gate : Option (Obj GatedService)} {graph : PlanGraph} {vs : List Volume}
  {w w' : World}

/-- The named volumes of a service are there, and those without the framework's label are among `vs`. -/
def Traced (vs : List Volume) (d : Docker) (serviceId : JsString) (spec : ContainerSpec) : Prop :=
  ∀ vol ∈ namedVolumes serviceId spec, ∃ v ∈ d.volumes, v.name = vol.source ∧ (v.Managed ∨ v ∈ vs)

/-- The services of these entries that are not parked are settled. -/
def AllSettled (env : Env) (gate : Option (Obj GatedService)) (vs : List Volume) (entries : List (JsString × ContainerSpec))
    (d : Docker) : Prop :=
  ∀ e ∈ entries, isParked gate e.1 = false → Settled env d e.1 e.2 ∧ Traced vs d e.1 e.2

theorem Settled.spared {d d' : Docker} {serviceId : JsString} {spec : ContainerSpec} (h : Settled env d serviceId spec)
    (hspares : Spares (containerName serviceId) d d') : Settled env d' serviceId spec where
  container := by
    rw [Brought, hspares.container]
    exact h.container
  network := isSome_managedNetwork_mono hspares.networks h.network
  volumes vol hvol := by
    obtain ⟨v, hv, hname⟩ := h.volumes vol hvol
    exact ⟨v, hspares.volumes.subset hv, hname⟩

/-- What spares the containers of the services leaves them settled. -/
theorem allSettled_spared {α : Type} {m : M α} {entries : List (JsString × ContainerSpec)}
    (h : ∀ e ∈ entries, ∀ d, KeepsDocker (Spares (containerName e.1) d) m) : KeepsDocker (AllSettled env gate vs entries) m := by
  intro w hw
  have hall := fun e he => h e he w.docker w (Spares.refl _ _)
  have close : ∀ d, (∀ e ∈ entries, Spares (containerName e.1) w.docker d) → AllSettled env gate vs entries d := by
    intro d hd e he hpark
    refine ⟨(hw e he hpark).1.spared (hd e he), fun vol hvol => ?_⟩
    obtain ⟨v, hv, hname⟩ := (hw e he hpark).2 vol hvol
    exact ⟨v, (hd e he).volumes.subset hv, hname⟩
  revert hall
  rcases m w with ⟨r, w'⟩
  cases r with
  | ok a => exact fun hall => close _ hall
  | error e => exact fun hall => close _ hall

/-- The services before this point of the loop are settled. -/
def SettledUntil (env : Env) (gate : Option (Obj GatedService)) (vs : List Volume) (entries todo : List (JsString × ContainerSpec))
    (w : World) : Prop :=
  ∃ done, entries = done ++ todo ∧ Grown Volume.Managed vs w.docker ∧ AllSettled env gate vs done w.docker

theorem executeEntry_spec {e : JsString × ContainerSpec} {entries todo : List (JsString × ContainerSpec)}
    (hnodup : (entries.map (·.1)).Nodup) (hplain : ∀ e ∈ entries, isParked gate e.1 = false → e.2.Plain e.1) :
    Act.Returns (SettledUntil env gate vs entries (e :: todo)) (executeEntry env ds gate e)
      fun r w => (∀ b, r = some b → True) ∧ (r = none → SettledUntil env gate vs entries todo w) := by
  refine Act.Triple.ofEach ?_
  rintro w ⟨done, hentries, hgrown, hsettled⟩
  have hmem : e ∈ entries := by simp [hentries]
  have hnext : ∀ d : Docker, Grown Volume.Managed vs d → AllSettled env gate vs done d →
      (isParked gate e.1 = false → Settled env d e.1 e.2 ∧ Traced vs d e.1 e.2) →
      ∀ w' : World, w'.docker = d → SettledUntil env gate vs entries todo w' := by
    rintro _ hg hs he w' rfl
    refine ⟨done ++ [e], by simp [hentries], hg, fun e' he' => ?_⟩
    rcases List.mem_append.mp he' with he' | he'
    · exact hs e' he'
    · rw [List.mem_singleton.mp he']
      exact he
  unfold executeEntry
  split
  · rename_i hpark
    refine Act.Triple.bind (Q := fun _ w' => w'.docker = w.docker) (Act.Triple.modify fun w' hw' => congrArg World.docker hw')
      fun _ => Act.Triple.pure fun w' hw' => ⟨by simp, fun _ => ?_⟩
    exact hnext _ hgrown hsettled (fun hnot => absurd (hpark.symm.trans hnot) (by simp)) w' hw'
  · rename_i hpark
    have hpark : isParked gate e.1 = false := by simpa using hpark
    refine Act.Triple.tryCatch (F := fun _ _ => True) (Act.Triple.bind (Q := fun _ w' =>
      (Grown Volume.Managed vs w'.docker ∧ Settled env w'.docker e.1 e.2) ∧ AllSettled env gate vs done w'.docker) ?_
      fun _ => Act.Triple.pure fun w' h => ⟨by simp, fun _ => ?_⟩) fun err => ?_
    · have hothers : KeepsDocker (AllSettled env gate vs done) (executeService env ds e.1 e.2) := by
        refine allSettled_spared fun e' he' d => keeps_executeService (spares_service e.2 fun hname => ?_)
        rw [hentries, List.map_append, List.nodup_append] at hnodup
        exact hnodup.2.2 _ (List.mem_map_of_mem he') _ (List.mem_map_of_mem List.mem_cons_self) (containerName_inj hname).symm
      refine ((executeService_spec (hplain e hmem hpark)).and hothers).conseq ?_ (fun _ _ h => h) fun _ _ _ => trivial
      rintro _ rfl
      exact ⟨hgrown, hsettled⟩
    · refine hnext _ h.1.1 h.2 (fun _ => ⟨h.1.2, fun vol hvol => ?_⟩) w' rfl
      obtain ⟨v, hv, hname⟩ := h.1.2.volumes vol hvol
      obtain ⟨new, hnew, hall⟩ := h.1.1
      refine ⟨v, hv, hname, ?_⟩
      rw [hnew] at hv
      exact (List.mem_append.mp hv).elim .inr fun hv => .inl (hall v hv)
    · exact Act.Triple.bind (Q := fun _ _ => True) (Act.Triple.modify fun _ _ => trivial) fun _ =>
        Act.Triple.pure fun _ _ => ⟨by simp, by simp⟩

/-- **Convergence.** From every state of the daemon. -/
theorem settled_executeGraph (hplain : ∀ e ∈ graph.servicePlans, isParked gate e.1 = false → e.2.Plain e.1)
    (hok : executeGraph env ds graph gate w = (.ok none, w')) :
    AllSettled env gate w.docker.volumes graph.servicePlans w'.docker := by
  have key : Act.Returns (· = w) (executeGraph env ds graph gate) fun r w' =>
      r = none → AllSettled env gate w.docker.volumes graph.servicePlans w'.docker := by
    refine Act.Triple.bind (Act.Triple.forReturnLeft (R := fun _ _ => True)
      (I := SettledUntil env gate w.docker.volumes graph.servicePlans)
      (fun e todo => executeEntry_spec graph.plans_nodup hplain) graph.servicePlans |>.conseq ?_ (fun _ _ h => h)
        fun _ _ h => h) fun r => ?_
    · rintro _ rfl
      exact ⟨[], rfl, ⟨[], by simp, by simp⟩, by simp [AllSettled]⟩
    · cases r with
      | some e => exact Act.Triple.pure fun _ _ h => by cases h
      | none =>
        have hnetwork : KeepsDocker (AllSettled env gate w.docker.volumes graph.servicePlans) (executeNetworkPlan env graph) :=
          allSettled_spared fun e _ d => keeps_executeNetworkPlan fun plan exposureNetwork _ _ =>
            spares_proxy plan exposureNetwork _ (containerName_ne_proxy e.1)
        refine Act.Triple.bind (Q := fun _ w' => AllSettled env gate w.docker.volumes graph.servicePlans w'.docker)
          (hnetwork.conseq ?_ (fun _ _ h => h) fun _ _ _ => trivial) fun r => ?_
        · rintro w' ⟨-, h⟩
          obtain ⟨done, hdone, -, hsettled⟩ := h rfl
          rw [List.append_nil] at hdone
          rwa [hdone]
        · cases r with
          | some e => exact Act.Triple.pure fun _ _ h => by cases h
          | none =>
            exact (keeps_executeProxyRender graph).conseq (fun _ h => h) (fun _ _ h _ => h) fun _ _ _ => trivial
  exact key.returned rfl hok rfl

end Graph

/-! ### The run after that -/

/-- The daemon and the log. -/
def Still (d : Docker) (log : List Attempt) (w : World) : Prop := w.docker = d ∧ w.log = log

/-- The action leaves the daemon as it is and makes exactly these calls, unless one of the calls fails: then the
first ones of them. -/
def Repeats {α : Type} (env : Env) (d : Docker) (calls : List Attempt) (m : M α) : Prop :=
  ∀ log, Act.Triple (Still d log) m (fun _ => Still d (log ++ calls)) fun _ w =>
    (∃ n, env.fault n ≠ none) ∧ ∃ done, done <+: calls ∧ Still d (log ++ done) w

section Repeats

variable {α β : Type} {env : Env} {d : Docker} {calls calls' : List Attempt} {m : M α}

theorem Repeats.pure (a : α) : Repeats env d [] (pure a : M α) := fun log => Act.Triple.pure fun w h => by
  rwa [List.append_nil]

theorem Repeats.journal (planId step : JsString) (payload result : Json) :
    Repeats env d [] (Orchestrator.journal planId step payload result) := fun log => Act.Triple.modify fun w h => by
  rwa [List.append_nil]

theorem Repeats.bind {f : α → M β} (hm : Repeats env d calls m) (hf : ∀ a, Repeats env d calls' (f a)) :
    Repeats env d (calls ++ calls') (m >>= f) := by
  intro log
  refine Act.Triple.bind ((hm log).conseq (fun _ h => h) (fun _ _ h => h) fun _ w h => ?_) fun a =>
    (hf a (log ++ calls)).conseq (fun _ h => h) (fun _ w h => ?_) fun _ w h => ?_
  · obtain ⟨hfault, done, hdone, hw⟩ := h
    exact ⟨hfault, done, hdone.trans (List.prefix_append _ _), hw⟩
  · rwa [← List.append_assoc]
  · obtain ⟨hfault, done, hdone, hw⟩ := h
    exact ⟨hfault, calls ++ done, List.prefix_append_right_inj calls |>.mpr hdone, by rwa [← List.append_assoc]⟩

/-- A step without a call comes first. -/
theorem Repeats.skip {f : α → M β} (hm : Repeats env d [] m) (hf : ∀ a, Repeats env d calls (f a)) :
    Repeats env d calls (m >>= f) := hm.bind hf

/-- A step without a call comes last. -/
theorem Repeats.close {f : α → M β} (hm : Repeats env d calls m) (hf : ∀ a, Repeats env d [] (f a)) :
    Repeats env d calls (m >>= f) := by
  have h := hm.bind hf
  rwa [List.append_nil] at h

theorem Repeats.forEach {xs : List β} {body : β → M Unit} {calls : β → List Attempt}
    (h : ∀ x ∈ xs, Repeats env d (calls x) (body x)) : Repeats env d (xs.flatMap calls) (Act.forEach xs body) := by
  induction xs with
  | nil => exact Repeats.pure ()
  | cons x xs ih => exact (h x List.mem_cons_self).bind fun _ => ih fun y hy => h y (List.mem_cons_of_mem _ hy)

/-- A loop whose body makes no call. -/
theorem Repeats.forEachNone {xs : List β} {body : β → M Unit} (h : ∀ x ∈ xs, Repeats env d [] (body x)) :
    Repeats env d [] (Act.forEach xs body) := by
  have hall := Repeats.forEach h
  rwa [List.flatMap_eq_nil_iff.mpr fun _ _ => rfl] at hall

/-- What follows a reading call may rely on its answer. -/
theorem Repeats.query {f : Docker → α} {g : α → M β} (h : Repeats env d calls (g (f d))) :
    Repeats env d calls (Orchestrator.query env f >>= g) := by
  intro log
  refine Act.Triple.bind (Q := fun a w => a = f d ∧ Still d log w) ?_ fun a => ?_
  · rintro w ⟨rfl, rfl⟩
    unfold Orchestrator.query
    simp only
    cases hfault : env.fault w.calls with
    | none => exact ⟨rfl, rfl, rfl⟩
    | some fault =>
      have hfailed : (∃ n, env.fault n ≠ none) ∧ ∃ done, done <+: calls ∧
          Still w.docker (w.log ++ done) { w with calls := w.calls + 1 } :=
        ⟨⟨w.calls, by simp [hfault]⟩, [], List.nil_prefix, rfl, (List.append_nil _).symm⟩
      cases fault <;> exact hfailed
  · rintro w ⟨rfl, hw⟩
    exact h log w hw

/-- A changing call that finds nothing to change. -/
theorem Repeats.issue {stage : Stage} {c : Call} {f : Docker → Except JsError (α × Docker)} {a : α} (h : f d = .ok (a, d)) :
    Repeats env d [⟨stage, d, c⟩] (Orchestrator.issue env stage c f) := by
  rintro log w ⟨rfl, rfl⟩
  unfold Orchestrator.issue
  simp only [h]
  cases hfault : env.fault w.calls with
  | none => exact ⟨rfl, rfl⟩
  | some fault =>
    have hfailed : ∃ n, env.fault n ≠ none := ⟨w.calls, by simp [hfault]⟩
    cases fault with
    | lost message => exact ⟨hfailed, _, List.prefix_refl _, rfl, rfl⟩
    | late message => exact ⟨hfailed, _, List.prefix_refl _, rfl, rfl⟩

end Repeats

section Again

variable {env : Env} {d : Docker} {name planId : JsString} {owner : Owner}

theorem repeats_ensureNetwork {options : Option NetworkDriverOptions} (h : (d.managedNetwork name).isSome) :
    Repeats env d [] (ensureNetwork env name planId owner options) := by
  obtain ⟨n, hn⟩ := Option.isSome_iff_exists.mp h
  refine Repeats.query ?_
  rw [hn]
  exact Repeats.pure _

/-- The call that creates a volume again. -/
def recreate (env : Env) (ds : DesiredState) (d : Docker) (serviceId : JsString) (vol : MountSpec) : List Attempt :=
  if (d.managedVolume vol.source).isSome then []
  else [⟨.execute, d, .createVolume vol.source
    (volumeLabels env vol.source env.planId serviceId (removeVolumesOnDelete ds serviceId))⟩]

theorem repeats_ensureVolume {ds : DesiredState} {serviceId : JsString} {vol : MountSpec}
    (h : ∃ v ∈ d.volumes, v.name = vol.source) :
    Repeats env d (recreate env ds d serviceId vol)
      (ensureVolume env vol.source env.planId serviceId (removeVolumesOnDelete ds serviceId)) := by
  refine Repeats.query ?_
  unfold recreate
  cases d.managedVolume vol.source with
  | some v => exact Repeats.pure _
  | none =>
    refine (Repeats.issue (a := ()) ?_).close fun _ => Repeats.pure _
    unfold Docker.createVolume
    simp only [Docker.addVolume_self h]

theorem repeats_ensureContainer {spec : ContainerSpec} {networks : List JsString} (h : Brought env name spec networks d) :
    Repeats env d [] (ensureContainer env name spec planId owner) := by
  obtain ⟨c, hc, ⟨hrunning, hhash⟩, -⟩ := h
  refine Repeats.query ?_
  rw [hc]
  dsimp only
  rw [if_pos hhash, if_pos hrunning]
  exact Repeats.pure _

theorem repeats_connect {spec : ContainerSpec} {networks : List JsString} (h : Brought env name spec networks d)
    {networkName : JsString} (hmem : networkName ∈ networks) : Repeats env d [] (connect env name networkName) := by
  obtain ⟨c, hc, -, hon⟩ := h
  refine Repeats.query ?_
  rw [hc]
  dsimp only
  rw [if_pos (hon networkName hmem)]
  exact Repeats.pure _

variable {ds : DesiredState} {serviceId : JsString} {spec : ContainerSpec}

/-- **The steps for a settled service** make no call but for volumes that lack the framework's label. -/
theorem repeats_executeService (h : Settled env d serviceId spec) :
    Repeats env d ((namedVolumes serviceId spec).flatMap (recreate env ds d serviceId)) (executeService env ds serviceId spec) := by
  refine (repeats_ensureNetwork h.network).skip fun net => (Repeats.journal _ _ _ _).skip fun _ => ?_
  refine (Repeats.forEach fun vol hvol => (repeats_ensureVolume (h.volumes vol hvol)).close fun r =>
    Repeats.journal _ _ _ _).close fun _ => ?_
  refine (repeats_ensureContainer h.container).skip fun r => (Repeats.journal _ _ _ _).skip fun _ => ?_
  exact Repeats.forEachNone fun networkName hmem => (repeats_connect h.container hmem).skip fun r => Repeats.journal _ _ _ _

end Again

/-- A call of EXECUTE that is made for a service: not for the network plan, and not the reload of the proxy. -/
def Attempt.ForAnyService (a : Attempt) : Prop := ¬ (a.ForNetworkPlan ∨ IsProxyExec a)

section Idempotent

variable {env : Env} {ds : DesiredState} {gate : Option (Obj GatedService)} {graph : PlanGraph} {d : Docker}

/-- The volumes that the loop creates again for an entry. -/
def recreateEntry (env : Env) (ds : DesiredState) (gate : Option (Obj GatedService)) (d : Docker)
    (e : JsString × ContainerSpec) : List Attempt :=
  if isParked gate e.1 then [] else (namedVolumes e.1 e.2).flatMap (recreate env ds d e.1)

/-- A call failed, after the first of these calls. -/
def Failed (env : Env) (d : Docker) (log calls : List Attempt) (w : World) : Prop :=
  (∃ n, env.fault n ≠ none) ∧ ∃ done, done <+: calls ∧ Still d (log ++ done) w

theorem again_executeEntry {e : JsString × ContainerSpec} (h : isParked gate e.1 = false → Settled env d e.1 e.2)
    (log : List Attempt) :
    Act.Triple (Still d log) (executeEntry env ds gate e)
      (fun r w => (∀ b, r = some b → Failed env d log (recreateEntry env ds gate d e) w) ∧
        (r = none → Still d (log ++ recreateEntry env ds gate d e) w)) fun _ _ => False := by
  unfold executeEntry recreateEntry
  cases hpark : isParked gate e.1 with
  | true =>
    refine Act.Triple.bind (Q := fun _ => Still d log) (Act.Triple.modify fun _ h => h) fun _ => Act.Triple.pure fun w hw => ?_
    exact ⟨by simp, fun _ => by simpa using hw⟩
  | false =>
    refine Act.Triple.tryCatch (Act.Triple.bind (repeats_executeService (h hpark) log) fun _ => Act.Triple.pure fun w hw =>
      ⟨by simp, fun _ => hw⟩) fun err => ?_
    refine Act.Triple.bind (Q := fun _ w => Failed env d log ((namedVolumes e.1 e.2).flatMap (recreate env ds d e.1)) w)
      (Act.Triple.modify fun _ h => h) fun _ => Act.Triple.pure fun w hw => ⟨fun _ _ => hw, by simp⟩

/-- The loop over the services: exactly these calls, unless a call fails. -/
theorem again_loop {entries : List (JsString × ContainerSpec)}
    (h : ∀ e ∈ entries, isParked gate e.1 = false → Settled env d e.1 e.2) (log : List Attempt) :
    Act.Triple (Still d log) (Act.forReturn entries (executeEntry env ds gate))
      (fun r w => (∀ b, r = some b → Failed env d log (entries.flatMap (recreateEntry env ds gate d)) w) ∧
        (r = none → Still d (log ++ entries.flatMap (recreateEntry env ds gate d)) w)) fun _ _ => False := by
  induction entries generalizing log with
  | nil => exact Act.Triple.pure fun w hw => ⟨by simp, fun _ => by simpa using hw⟩
  | cons e entries ih =>
    refine Act.Triple.bind (again_executeEntry (h e List.mem_cons_self) log) fun r => ?_
    rw [List.flatMap_cons]
    cases r with
    | some b =>
      refine Act.Triple.pure fun w hw => ⟨fun _ _ => ?_, by simp⟩
      obtain ⟨hfault, done, hdone, hw⟩ := hw.1 b rfl
      exact ⟨hfault, done, hdone.trans (List.prefix_append _ _), hw⟩
    | none =>
      refine (ih (fun e' he' => h e' (List.mem_cons_of_mem _ he')) _).conseq (fun w hw => hw.2 rfl) (fun r w hw => ?_)
        fun _ _ hw => hw
      rw [List.append_assoc] at hw
      refine ⟨fun b hb => ?_, hw.2⟩
      obtain ⟨hfault, done, hdone, hw⟩ := hw.1 b hb
      exact ⟨hfault, recreateEntry env ds gate d e ++ done, (List.prefix_append_right_inj _).mpr hdone, by
        rwa [← List.append_assoc]⟩

theorem ForProxy.forNetworkPlan {plan : NetworkPlan} {exposureNetwork : JsString} {serviceIds : List JsString} {a : Attempt}
    (h : ForProxy env plan exposureNetwork serviceIds a) : a.ForNetworkPlan := by
  refine ⟨h.stage, ?_⟩
  have hcall := h.call
  revert hcall
  cases a.call with
  | createNetwork name labels options =>
    rintro ⟨rfl, rfl, -⟩
    exact networkLabels_core _ _
  | createContainer o =>
    rintro rfl
    rfl
  | _ => exact fun hcall => hcall

theorem issues_executeNetworkPlan (graph : PlanGraph) :
    Issues (fun a => a.ForNetworkPlan ∨ IsProxyExec a) (executeNetworkPlan env graph) := by
  unfold executeNetworkPlan
  split
  · exact Issues.pure _
  · rename_i plan hplan
    split
    · exact Issues.pure _
    · rename_i exposureNetwork hnetwork
      refine Issues.tryCatch (Issues.bind ?_ fun _ => Issues.pure _) fun err => Issues.failStep _ _ _ _
      exact (issues_executeProxy plan exposureNetwork _).mono fun a ha => .inl ha.forNetworkPlan

/-- **What the next run calls.** It makes these calls for services, fewer if a call fails, and then only calls
for the network plan and the proxy. -/
theorem log_again (ds : DesiredState) (h : ∀ e ∈ graph.servicePlans, isParked gate e.1 = false → Settled env d e.1 e.2) {w : World}
    (hw : w.docker = d) : ∃ done rest, (executeGraph env ds graph gate w).2.log = w.log ++ (done ++ rest) ∧
      done <+: graph.servicePlans.flatMap (recreateEntry env ds gate d) ∧
      ((∀ n, env.fault n = none) → done = graph.servicePlans.flatMap (recreateEntry env ds gate d)) ∧
      ∀ a ∈ rest, ¬ a.ForAnyService := by
  let calls := graph.servicePlans.flatMap (recreateEntry env ds gate d)
  let L (w' : World) : Prop := ∃ done rest, w'.log = w.log ++ (done ++ rest) ∧ done <+: calls ∧
    ((∀ n, env.fault n = none) → done = calls) ∧ ∀ a ∈ rest, ¬ a.ForAnyService
  have hrest : ∀ {α : Type} {m : M α}, Issues (fun a => a.ForNetworkPlan ∨ IsProxyExec a) m → Act.Keeps L m := by
    intro α m hm w' hw'
    obtain ⟨done, rest, hlog, hdone, hall, hrest⟩ := hw'
    refine (hm w'.log w'.ctx).conseq (fun _ h => h) (fun _ w'' hw'' => ?_) (fun _ w'' hw'' => ?_) w' (.refl _ _) <;>
    · obtain ⟨⟨new, hnew, hP⟩, -⟩ := hw''
      refine ⟨done, rest ++ new, by rw [hnew, hlog]; simp only [List.append_assoc], hdone, hall, fun a ha => ?_⟩
      exact (List.mem_append.mp ha).elim (hrest a) fun ha => not_not_intro (hP a ha)
  have key : Act.Triple (Still d w.log) (executeGraph env ds graph gate) (fun _ => L) fun _ => L := by
    refine Act.Triple.bind ((again_loop h w.log).conseq (fun _ h => h) (fun _ _ h => h) fun _ _ h => h.elim) fun r => ?_
    cases r with
    | some e =>
      refine Act.Triple.pure fun w' hw' => ?_
      obtain ⟨⟨n, hn⟩, done, hdone, -, hlog⟩ := hw'.1 e rfl
      exact ⟨done, [], by rw [hlog, List.append_nil], hdone, fun hnone => absurd (hnone n) hn, by simp⟩
    | none =>
      refine Act.Triple.bind (Q := fun _ => L) ((hrest (issues_executeNetworkPlan graph)).conseq (fun w' hw' => ?_)
        (fun _ _ h => h) fun _ _ h => h) fun r => ?_
      · exact ⟨calls, [], by rw [(hw'.2 rfl).2, List.append_nil], List.prefix_refl _, fun _ => rfl, by simp⟩
      · cases r with
        | some e => exact Act.Keeps.pure _
        | none => exact hrest ((issues_executeProxyRender graph).mono fun _ h => .inr h)
  exact key.final ⟨hw, rfl⟩ (fun _ _ h => h) fun _ _ h => h

/-- A named volume of a service that is not parked is there without the framework's label. -/
def Unlabelled (graph : PlanGraph) (gate : Option (Obj GatedService)) (d : Docker) : Prop :=
  ∃ serviceId spec, (serviceId, spec) ∈ graph.servicePlans ∧ isParked gate serviceId = false ∧
    ∃ vol ∈ namedVolumes serviceId spec, ∃ v ∈ d.volumes, v.name = vol.source ∧ ¬ v.Managed

/-- Every service that is not parked is settled. -/
def Converged (env : Env) (graph : PlanGraph) (gate : Option (Obj GatedService)) (d : Docker) : Prop :=
  ∀ serviceId spec, (serviceId, spec) ∈ graph.servicePlans → isParked gate serviceId = false → Settled env d serviceId spec

/-- A run for the same graph and snapshot, over the same hash function, makes no call for a service. -/
def NothingToDo (sha256 : List UInt8 → JsString) (graph : PlanGraph) (gate : Option (Obj GatedService)) (d : Docker) : Prop :=
  ∀ env ds w new, env.sha256 = sha256 → w.docker = d → (executeGraph env ds graph gate w).2.log = w.log ++ new →
    ∀ a ∈ new, ¬ a.ForAnyService

/-- The plans went through VALIDATE, and none has a label under the framework's prefix. -/
structure PlanGraph.Ordinary (graph : PlanGraph) (sha256 : List UInt8 → JsString) : Prop where
  accepted : ∀ serviceId spec, (serviceId, spec) ∈ graph.servicePlans → ∃ grants result,
    validateContainerSpec sha256 serviceId spec grants = .ok result ∧ result.ok = true
  labels_nodup : ∀ serviceId spec, (serviceId, spec) ∈ graph.servicePlans → (Obj.keys (spec.labels.getD [])).Nodup
  labels : ∀ serviceId spec, (serviceId, spec) ∈ graph.servicePlans →
    ∀ k ∈ Obj.keys (spec.labels.getD []), startsWith k (js "wanfw.") = false

theorem PlanGraph.Ordinary.plain {sha256 : List UInt8 → JsString} (h : graph.Ordinary sha256) {serviceId : JsString}
    {spec : ContainerSpec} (hmem : (serviceId, spec) ∈ graph.servicePlans) : spec.Plain serviceId where
  labels_nodup := h.labels_nodup _ _ hmem
  labels := h.labels _ _ hmem
  volumes m hm hv := by
    obtain ⟨grants, result, hresult, hok⟩ := h.accepted _ _ hmem
    obtain ⟨rest, hrest⟩ := (accepted_of_ok hresult hok).volume hm hv
    have hinit : startsWith m.source (js "wanfw_" ++ serviceId) = true := startsWith_iff.mpr ⟨rest, hrest⟩
    exact List.mem_filter.mpr ⟨hm, by simp [hv, hinit]⟩

/-- Settled says the same over the same hash function. -/
theorem Settled.of_sha256 {env' : Env} (hsha : env'.sha256 = env.sha256) {serviceId : JsString} {spec : ContainerSpec}
    (h : Settled env d serviceId spec) : Settled env' d serviceId spec where
  container := by
    obtain ⟨c, hc, ⟨hrunning, hhash⟩, hon⟩ := h.container
    refine ⟨c, hc, ⟨hrunning, ?_⟩, hon⟩
    rw [hhash, computeConfigHash, computeConfigHash, hsha]
  network := h.network
  volumes := h.volumes

/-- A volume that is found among the managed ones. -/
theorem isSome_managedVolume_iff {name : JsString} :
    (d.managedVolume name).isSome ↔ ∃ v ∈ d.volumes, v.name = name ∧ v.Managed := by
  simp [Docker.managedVolume, List.find?_isSome, Volume.Managed]

/-- **EXECUTE converges**, for every state of the daemon before it. After a run that succeeds every service
that is not parked is settled; and the next run has nothing to do for a service exactly when no named volume of a
service that is not parked was there without the framework's label. -/
theorem converges_iff {w w' : World} (hgraph : graph.Ordinary env.sha256)
    (hok : executeGraph env ds graph gate w = (.ok none, w')) :
    Converged env graph gate w'.docker ∧
      (NothingToDo env.sha256 graph gate w'.docker ↔ ¬ Unlabelled graph gate w.docker) := by
  have hall := settled_executeGraph (fun e he _ => hgraph.plain he) hok
  have hvolumes : w.docker.volumes <+: (executeGraph env ds graph gate w).2.docker.volumes := volumes_executeGraph graph gate w
  rw [hok] at hvolumes
  refine ⟨fun serviceId spec hmem hpark => (hall _ hmem hpark).1, fun hnothing => ?_, fun hlabelled => ?_⟩
  · rintro ⟨serviceId, spec, hmem, hpark, vol, hvol, v, hv, hname, hunlabelled⟩
    -- a run in which no call fails creates the volume again
    let env' : Env := { env with fault := fun _ => none }
    have hsettled : ∀ e ∈ graph.servicePlans, isParked gate e.1 = false → Settled env' w'.docker e.1 e.2 :=
      fun e he hpark => (hall e he hpark).1.of_sha256 (show env'.sha256 = env.sha256 from rfl)
    obtain ⟨done, rest, hlog, -, hdone, -⟩ := log_again ds hsettled (w := w') rfl
    have hnone : w'.docker.managedVolume vol.source = none := by
      rw [← Option.not_isSome_iff_eq_none, isSome_managedVolume_iff]
      rintro ⟨v', hv', hname', hmanaged⟩
      rw [List.inj_on_of_nodup_map w'.docker.volumes_nodup hv' (hvolumes.subset hv) (hname'.trans hname.symm)] at hmanaged
      exact hunlabelled hmanaged
    let a : Attempt := ⟨.execute, w'.docker, .createVolume vol.source
      (volumeLabels env' vol.source env'.planId serviceId (removeVolumesOnDelete ds serviceId))⟩
    refine hnothing env' ds w' _ rfl rfl hlog a (List.mem_append_left _ ?_) ?_
    · rw [hdone fun _ => rfl]
      refine List.mem_flatMap.mpr ⟨_, hmem, ?_⟩
      rw [recreateEntry, hpark]
      refine List.mem_flatMap.mpr ⟨vol, hvol, ?_⟩
      rw [recreate, hnone]
      exact List.mem_singleton_self _
    · rintro (⟨-, hcall⟩ | ⟨-, cmd, hcall⟩)
      · exact hcall
      · cases hcall
  · rintro env' ds' w₂ new hsha hdocker hlog a ha
    have hsettled : ∀ e ∈ graph.servicePlans, isParked gate e.1 = false → Settled env' w'.docker e.1 e.2 :=
      fun e he hpark => (hall e he hpark).1.of_sha256 hsha
    obtain ⟨done, rest, hlog', hdone, -, hrest⟩ := log_again ds' hsettled hdocker
    have hcalls : graph.servicePlans.flatMap (recreateEntry env' ds' gate w'.docker) = [] := by
      refine List.flatMap_eq_nil_iff.mpr fun e he => ?_
      unfold recreateEntry
      split
      · rfl
      · rename_i hpark
        have hpark : isParked gate e.1 = false := by simpa using hpark
        refine List.flatMap_eq_nil_iff.mpr fun vol hvol => ?_
        obtain ⟨v, hv, hname, hmanaged⟩ := (hall e he hpark).2 vol hvol
        refine if_pos (isSome_managedVolume_iff.mpr ⟨v, hv, hname, ?_⟩)
        by_contra hunlabelled
        exact hlabelled ⟨e.1, e.2, he, hpark, vol, hvol, v, hmanaged.resolve_left hunlabelled, hname, hunlabelled⟩
    rw [hcalls, List.prefix_nil] at hdone
    rw [hlog', hdone, List.nil_append] at hlog
    exact hrest a (List.append_cancel_left hlog ▸ ha)

end Idempotent

/-! ### A volume of the framework's own -/

/-- The plan of deploy-docker for a section with an image and one volume. -/
def dataPlan (serviceId volume : JsString) : ContainerSpec :=
  Plugins.DeployDocker.planTask serviceId { image := js "busybox", mounts := some [.volume volume (js "/data") none] }

theorem accepted_dataPlan (serviceId volume : JsString) : Accepted serviceId (dataPlan serviceId volume) [anyImage] where
  image := by rfl
  mounts := by
    intro m hm
    rw [dataPlan, Plugins.DeployDocker.planTask_mountList] at hm
    rw [List.mem_singleton.mp hm]
    exact Plugins.DeployDocker.checkMount_planMount_volume _ _ _ _ _
  devices := by simp [dataPlan, Plugins.DeployDocker.planTask]
  networkMode := by rfl
  privileged := by rfl
  capAdd := by simp [dataPlan, Plugins.DeployDocker.planTask]
  ports := by rfl
  networks := by simp [dataPlan, Plugins.DeployDocker.planTask]

/-- The graph of this plan alone. -/
def dataGraph (serviceId volume : JsString) (hid : js "__proto__" ∉ [serviceId]) : PlanGraph where
  networkPlan := none
  servicePlans := [(serviceId, dataPlan serviceId volume)]
  routes := []
  proxyRender := none
  certNames := []
  plans_nodup := List.nodup_singleton _
  plans_plain := hid

theorem ordinary_dataGraph (sha256 : List UInt8 → JsString) (serviceId volume : JsString) (hid : js "__proto__" ∉ [serviceId]) :
    (dataGraph serviceId volume hid).Ordinary sha256 where
  accepted := by
    intro id spec hmem
    cases List.mem_singleton.mp hmem
    exact ⟨_, _, ok_of_accepted (accepted_dataPlan _ _), rfl⟩
  labels_nodup := by
    intro id spec hmem
    cases List.mem_singleton.mp hmem
    exact List.nodup_nil
  labels := by
    intro id spec hmem
    cases List.mem_singleton.mp hmem
    exact fun k hk => absurd hk List.not_mem_nil

/-- The volume `posts` of the service `blog`. -/
def postsGraph : PlanGraph := dataGraph (js "blog") (js "posts") (by decide)

/-- The volume `certs` of a service with the id `wanfw`: the name of the volume in which the framework keeps its
certificates. -/
def certsGraph : PlanGraph := dataGraph (js "wanfw") (js "certs") (by decide)

/-- EXECUTE for a graph, with no service parked and nothing failing. -/
abbrev executeIdle (graph : PlanGraph) (w : World) : Except JsError StageResult × World :=
  executeGraph Env.idle ⟨none, [], [], List.nodup_nil⟩ graph none w

/-- On an empty host. -/
theorem converges_posts : Converged Env.idle postsGraph none (executeIdle postsGraph World.empty).2.docker ∧
    NothingToDo Env.idle.sha256 postsGraph none (executeIdle postsGraph World.empty).2.docker := by
  have hresult : (executeIdle postsGraph World.empty).1 = .ok none := by decide +kernel
  have hok : executeIdle postsGraph World.empty = (.ok none, (executeIdle postsGraph World.empty).2) := by
    rw [← hresult]
  have h := converges_iff (ordinary_dataGraph _ _ _ _) hok
  refine ⟨h.1, h.2.mpr ?_⟩
  rintro ⟨-, -, -, -, -, -, v, hv, -⟩
  cases hv

/-- The host with the proxy, and then with the service `wanfw` too. -/
def withCerts : World := (executeIdle certsGraph (executeIdle (PlanGraph.empty (some bridgePlan)) World.empty).2).2

/-- The volume that a call creates. -/
def Attempt.createdVolume (a : Attempt) : Option JsString :=
  match a.call with
  | .createVolume name _ => some name
  | _ => none

theorem not_nothingToDo (graph : PlanGraph) (w : World) (name : JsString)
    (h : some name ∈ ((executeIdle graph w).2.log.drop w.log.length).map Attempt.createdVolume) :
    ¬ NothingToDo Env.idle.sha256 graph none w.docker := by
  intro hnothing
  have hissued : Issues (ForGraph Env.idle graph none) (executeGraph Env.idle ⟨none, [], [], List.nodup_nil⟩ graph none) :=
    issues_executeGraph _ graph none
  obtain ⟨⟨new, hlog, -⟩, -⟩ := (hissued w.log w.ctx).final (IssuedSince.refl _ w) (fun _ _ h => h) fun _ _ h => h
  rw [hlog, List.drop_left] at h
  obtain ⟨a, ha, hcall⟩ := List.mem_map.mp h
  refine hnothing Env.idle _ w new rfl rfl hlog a ha ?_
  unfold Attempt.createdVolume at hcall
  rintro (⟨-, hfor⟩ | ⟨-, cmd, hexec⟩)
  · revert hcall hfor
    cases a.call with
    | createVolume name labels => exact fun _ hfor => hfor
    | _ => exact fun hcall => by cases hcall
  · rw [hexec] at hcall
    cases hcall

/-- Two runs succeed, one for the network plan and one for the service; every run after them creates the volume again. -/
theorem not_nothingToDo_certs :
    certsGraph.Ordinary Env.idle.sha256 ∧
    (executeIdle (PlanGraph.empty (some bridgePlan)) World.empty).1 = .ok none ∧
    (executeIdle certsGraph (executeIdle (PlanGraph.empty (some bridgePlan)) World.empty).2).1 = .ok none ∧
    ¬ NothingToDo Env.idle.sha256 certsGraph none withCerts.docker := by
  refine ⟨ordinary_dataGraph _ _ _ _, by decide +kernel, by decide +kernel, ?_⟩
  exact not_nothingToDo certsGraph withCerts (js "wanfw_wanfw_certs") (by decide +kernel)

end Wanfw.Orchestrator
