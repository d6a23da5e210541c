import Wanfw.Orchestrator.Preserve
import Wanfw.Orchestrator.Run

/-!
# Bystanders

What is on the host without `wanfw.managed=true` is not the framework's. OBSERVE only lists what
has the label, and the ensure functions only find what has it. A bystander with the name of a
container that EXECUTE wants is not found either: the create call that follows fails, and the
container stays what it was.

`bystanders_spared`: over any number of runs, with any documents, plans and failures, every
container, network and volume without the label stays as it is.

Two calls go by a name. EXECUTE attaches the proxy to the network called like that of a service,
which may be a bystander: what is recorded of the network stays as it is then, and the attachment
is in the record of the proxy. And it runs the reload command in the container called like the
proxy: what a command does inside of a container is not part of the record.
-/

namespace Wanfw.Orchestrator.Bystanders

open Wanfw.Js

/-- What is not managed in `d₀` is in `d`, as it was. Ids are not handed out again. -/
structure Spared (d₀ d : Docker) : Prop where
  containers : ∀ c ∈ d₀.containers, isManaged c.labels = false → c ∈ d.containers
  networks : ∀ n ∈ d₀.networks, isManaged n.labels = false → n ∈ d.networks
  volumes : ∀ v ∈ d₀.volumes, isManaged v.labels = false → v ∈ d.volumes
  nextId : d₀.nextId ≤ d.nextId

/-- No bystander has this id. -/
def Foreign (d₀ : Docker) (id : ℕ) : Prop := ∀ c ∈ d₀.containers, isManaged c.labels = false → c.id ≠ id

section Calls

variable {d₀ d d' d'' : Docker} {c : Container} {id : ℕ} {name : JsString}

theorem Spared.refl (d : Docker) : Spared d d :=
    ⟨fun _ h _ => h, fun _ h _ => h, fun _ h _ => h, le_rfl⟩

theorem Spared.trans (h : Spared d d') (h' : Spared d' d'') : Spared d d'' where
  containers c hc hm := h'.containers c (h.containers c hc hm) hm
  networks n hn hm := h'.networks n (h.networks n hn hm) hm
  volumes v hv hm := h'.volumes v (h.volumes v hv hm) hm
  nextId := h.nextId.trans h'.nextId

/-- A container that is there and managed is no bystander. -/
theorem Spared.foreign (h : Spared d₀ d) (hc : c ∈ d.containers) (hm : isManaged c.labels = true) :
    Foreign d₀ c.id := by
  intro c₀ hc₀ hm₀ hid
  have heq : c₀ = c := Docker.eq_of_id (h.containers c₀ hc₀ hm₀) hc hid
  rw [heq, hm] at hm₀
  cases hm₀

/-- A container that was found by its name is no bystander. -/
theorem Spared.foreign_found (h : Spared d₀ d) (hfound : d.managedContainer name = some c) :
    Foreign d₀ c.id := by
  have hboth := List.find?_some hfound
  rw [Bool.and_eq_true] at hboth
  exact h.foreign (List.mem_of_find?_eq_some hfound) hboth.2

/-- A container with a new id is no bystander. -/
theorem foreign_of_le (h : d₀.nextId ≤ id) : Foreign d₀ id :=
    fun c hc _ => ((d₀.ids_lt c hc).trans_le h).ne

/-! ### One call -/

theorem Spared.createNetwork (h : Spared d₀ d) {labels : Obj JsString}
    {options : Option NetworkDriverOptions}
    (hcall : d.createNetwork name labels options = .ok ((), d')) : Spared d₀ d' := by
  unfold Docker.createNetwork at hcall
  split at hcall <;> cases hcall
  exact ⟨h.containers, fun n hn hm => List.mem_append_left _ (h.networks n hn hm), h.volumes,
    h.nextId.trans (Nat.le_succ _)⟩

theorem mem_addVolume {volumes : List Volume} {v : Volume} (h : v ∈ volumes) (name : JsString)
    (labels : Obj JsString) : v ∈ Docker.addVolume volumes name labels := by
  obtain ⟨new, hnew, -⟩ := Docker.addVolume_eq volumes name labels
  rw [hnew]
  exact List.mem_append_left _ h

theorem Spared.createVolume (h : Spared d₀ d) {labels : Obj JsString}
    (hcall : d.createVolume name labels = .ok ((), d')) : Spared d₀ d' := by
  unfold Docker.createVolume at hcall
  cases hcall
  exact ⟨h.containers, h.networks, fun v hv hm => mem_addVolume (h.volumes v hv hm) _ _, h.nextId⟩

/-- The new container is no bystander. -/
theorem Spared.createContainer (h : Spared d₀ d) {o : CreateContainerOptions}
    (hcall : d.createContainer o = .ok (c, d')) : Spared d₀ d' ∧ Foreign d₀ c.id := by
  obtain ⟨new, hnew, -⟩ := Docker.mountVolumes_eq d.volumes o.mounts
  have hvolumes := Docker.volumes_createContainer hcall
  unfold Docker.createContainer at hcall
  split at hcall <;> cases hcall
  refine ⟨⟨fun c hc hm => List.mem_append_left _ (h.containers c hc hm), h.networks, fun v hv hm => ?_,
    h.nextId.trans (Nat.le_succ _)⟩, foreign_of_le h.nextId⟩
  rw [hvolumes, hnew]
  exact List.mem_append_left _ (h.volumes v hv hm)

/-- A change of one container that is no bystander. -/
theorem Spared.mapContainers (h : Spared d₀ d) (hid : Foreign d₀ id) {f : Container → Container}
    (hf : ∀ c, (f c).id = c.id)
    (hother : ∀ c, c.id ≠ id → f c = c) : Spared d₀ (d.mapContainers f hf) where
  containers c hc hm := List.mem_map.mpr ⟨c, h.containers c hc hm, hother c (hid c hc hm)⟩
  networks := h.networks
  volumes := h.volumes
  nextId := h.nextId

theorem Spared.startContainer (h : Spared d₀ d) (hid : Foreign d₀ id)
    (hcall : d.startContainer id = .ok ((), d')) : Spared d₀ d' := by
  obtain ⟨hf, rfl⟩ := Docker.startContainer_eq hcall
  exact h.mapContainers hid hf fun c hc => if_neg hc

theorem Spared.connectNetwork (h : Spared d₀ d) (hid : Foreign d₀ id) {network : JsString}
    (hcall : d.connectNetwork id network = .ok ((), d')) : Spared d₀ d' := by
  obtain ⟨hf, rfl⟩ := Docker.connectNetwork_eq hcall
  exact h.mapContainers hid hf fun c hc => if_neg hc

theorem Spared.removeContainer (h : Spared d₀ d) (hid : Foreign d₀ id)
    (hcall : d.removeContainer id = .ok ((), d')) : Spared d₀ d' := by
  unfold Docker.removeContainer at hcall
  split at hcall <;> cases hcall
  refine ⟨fun c hc hm => List.mem_filter.mpr ⟨h.containers c hc hm, ?_⟩, h.networks, h.volumes, h.nextId⟩
  simpa using hid c hc hm

end Calls

/-! ### EXECUTE -/

section Execute

variable {env : Env} {d₀ : Docker} {name planId : JsString} {owner : Owner}

/-- A call on a container that is no bystander. -/
theorem spared_issue {stage : Stage} {call : Call} {f : Docker → Except JsError (Unit × Docker)}
    {P : Docker → Prop} (hP : ∀ d, P d → Spared d₀ d) (h : ∀ d d', P d → f d = .ok ((), d') → Spared d₀ d') :
    Act.Triple (fun w => P w.docker) (issue env stage call f) (fun _ w => Spared d₀ w.docker)
      fun _ w => Spared d₀ w.docker :=
  issue_docker (Q := fun _ => Spared d₀) hP (fun _ _ h => h) fun d _ d' => h d d'

theorem spared_createAndStart (options : CreateContainerOptions) :
    KeepsDocker (Spared d₀) (createAndStart env options) := by
  refine Act.Triple.bind (Q := fun c w => Spared d₀ w.docker ∧ Foreign d₀ c.id) ?_ fun c => ?_
  · exact issue_docker (Q := fun c d => Spared d₀ d ∧ Foreign d₀ c.id) (fun _ h => h) (fun _ _ h => h.1)
      fun d c d' hd hcall => hd.createContainer hcall
  · exact spared_issue (P := fun d => Spared d₀ d ∧ Foreign d₀ c.id) (fun _ h => h.1)
      fun d d' hd hcall => hd.1.startContainer hd.2 hcall

/-- A call on the container that was found by its name. -/
theorem spared_found {stage : Stage} {call : Call} {f : Docker → Except JsError (Unit × Docker)} {c : Container}
    (h : ∀ d d', Spared d₀ d → Foreign d₀ c.id → f d = .ok ((), d') → Spared d₀ d') :
    Act.Triple (fun w => Spared d₀ w.docker ∧ some c = w.docker.managedContainer name)
      (issue env stage call f) (fun _ w => Spared d₀ w.docker) fun _ w => Spared d₀ w.docker :=
  spared_issue (P := fun d => Spared d₀ d ∧ some c = d.managedContainer name) (fun _ h => h.1)
    fun d d' hd hcall => h d d' hd.1 (hd.1.foreign_found hd.2.symm) hcall

theorem spared_ensureContainer (spec : ContainerSpec) :
    KeepsDocker (Spared d₀) (ensureContainer env name spec planId owner) := by
  have hcreate : KeepsDocker (Spared d₀) (createAndStart env (createOptions env name spec planId owner)) :=
    spared_createAndStart _
  refine Act.Triple.bind (query_docker _) fun existing => ?_
  cases existing with
  | none =>
    exact Act.Triple.bind (hcreate.conseq (fun _ h => h.1) (fun _ _ h => h) fun _ _ h => h) fun _ =>
      Act.Keeps.pure _
  | some c =>
    dsimp only
    split
    · split
      · exact Act.Triple.pure fun _ h => h.1
      · exact Act.Triple.bind (spared_found fun d d' hd hid hcall => hd.startContainer hid hcall) fun _ =>
          Act.Keeps.pure _
    · refine Act.Triple.bind (spared_found fun d d' hd hid hcall => hd.removeContainer hid hcall) fun _ => ?_
      exact hcreate.bind fun _ => .pure _

theorem spared_connect (networkName : JsString) :
    KeepsDocker (Spared d₀) (connect env name networkName) := by
  refine Act.Triple.bind (query_docker _) fun existing => ?_
  cases existing with
  | none => exact Act.Triple.pure fun _ h => h.1
  | some c =>
    dsimp only
    split
    · exact Act.Triple.pure fun _ h => h.1
    · exact Act.Triple.bind (spared_found fun d d' hd hid hcall => hd.connectNetwork hid hcall) fun _ =>
        Act.Keeps.pure _

theorem spared_ensureNetwork (options : Option NetworkDriverOptions) :
    KeepsDocker (Spared d₀) (ensureNetwork env name planId owner options) :=
  keeps_ensureNetwork fun _ _ hd hcall => hd.createNetwork hcall

theorem spared_executeService (ds : DesiredState) (serviceId : JsString) (spec : ContainerSpec) :
    KeepsDocker (Spared d₀) (executeService env ds serviceId spec) := by
  refine (spared_ensureNetwork _).bind fun net => (keeps_journal _ _ _ _).bind fun _ => ?_
  refine (Act.Keeps.forEach fun vol _ => ?_).bind fun _ => ?_
  · exact (keeps_ensureVolume fun _ _ hd hcall => hd.createVolume hcall).bind fun r =>
      keeps_journal _ _ _ _
  refine (spared_ensureContainer _).bind fun r => (keeps_journal _ _ _ _).bind fun _ => ?_
  exact Act.Keeps.forEach fun networkName _ => (spared_connect _).bind fun r => keeps_journal _ _ _ _

theorem spared_executeProxy (plan : NetworkPlan) (exposureNetwork : JsString)
    (serviceIds : List JsString) :
    KeepsDocker (Spared d₀) (executeProxy env plan exposureNetwork serviceIds) := by
  refine (spared_ensureNetwork _).bind fun net => (keeps_journal _ _ _ _).bind fun _ => ?_
  refine (spared_ensureContainer _).bind fun r => (keeps_journal _ _ _ _).bind fun _ => ?_
  exact Act.Keeps.forEach fun networkName _ => (spared_connect _).bind fun r => keeps_journal _ _ _ _

theorem spared_executeGraph (ds : DesiredState) (graph : PlanGraph)
    (gateSnapshot : Option (Obj GatedService)) :
    KeepsDocker (Spared d₀) (executeGraph env ds graph gateSnapshot) := by
  refine (Act.Keeps.forReturn fun e _ => ?_).bind fun r => ?_
  · unfold executeEntry
    split
    · exact (keeps_journal _ _ _ _).bind fun _ => .pure _
    · exact Act.Keeps.tryCatch ((spared_executeService _ _ _).bind fun _ => .pure _) fun _ => keeps_failStep _ _ _ _
  · cases r with
    | some e => exact .pure _
    | none =>
      refine Act.Keeps.bind ?_ fun r => ?_
      · unfold executeNetworkPlan
        split
        · exact .pure _
        · split
          · exact .pure _
          · exact Act.Keeps.tryCatch ((spared_executeProxy _ _ _).bind fun _ => .pure _) fun _ =>
              keeps_failStep _ _ _ _
      · cases r with
        | some e => exact .pure _
        | none => exact keeps_executeProxyRender _

theorem spared_executeStage : KeepsDocker (Spared d₀) (executeStage env) := by
  refine Act.Keeps.get.bind fun w => ?_
  split
  · split
    · exact .pure _
    · refine (spared_executeGraph _ _ _).bind fun r => ?_
      cases r with
      | some e => exact .pure _
      | none =>
        refine Act.Keeps.bind ?_ fun _ => .pure _
        exact Act.Keeps.modify fun _ h => h
  · exact .pure _

end Execute

/-! ### OBSERVE -/

section Observe

variable {env : Env} {ds : DesiredState} {d₀ : Docker} {planId : JsString}

theorem spared_collectContainers : KeepsDocker (Spared d₀) (collectContainers env ds planId) := by
  refine Act.Triple.bind (query_docker _) fun containers => ?_
  -- the ids were read from a state in which the bystanders are, and stay what they are
  refine Act.Triple.assume (p := ∀ c ∈ containers, Foreign d₀ c.id) ?_ fun hforeign => ?_
  · rintro w ⟨hw, rfl⟩ c hc
    obtain ⟨hc, hm⟩ := List.mem_filter.mp hc
    exact hw.foreign hc hm
  · refine (Act.Keeps.forEach (I := fun w => Spared d₀ w.docker) fun c hc => ?_).conseq
      (fun _ h => h.1) (fun _ _ h => h) fun _ _ h => h
    have hid := hforeign c (List.mem_of_mem_filter hc)
    exact (keeps_issue fun d _ d' hd hcall => hd.removeContainer hid hcall).bind fun _ =>
      keeps_journal _ _ _ _

theorem spared_collectNetworks : KeepsDocker (Spared d₀) (collectNetworks env ds planId) := by
  refine Act.Triple.bind (query_docker _) fun networks => ?_
  refine Act.Triple.assume
    (p := ∀ n ∈ networks, ∀ n₀ ∈ d₀.networks, isManaged n₀.labels = false → n₀.id ≠ n.id) ?_ fun hforeign => ?_
  · rintro w ⟨hw, rfl⟩ n hn n₀ hn₀ hm₀ hid
    obtain ⟨hn, hm⟩ := List.mem_filter.mp hn
    have heq : n₀ = n :=
      List.inj_on_of_nodup_map w.docker.networks_nodup (hw.networks n₀ hn₀ hm₀) hn hid
    rw [heq, hm] at hm₀
    cases hm₀
  · refine (Act.Keeps.forEach (I := fun w => Spared d₀ w.docker) fun n hn => ?_).conseq
      (fun _ h => h.1) (fun _ _ h => h) fun _ _ h => h
    refine (keeps_issue fun d _ d' hd hcall => ?_).bind fun _ => keeps_journal _ _ _ _
    unfold Docker.removeNetwork at hcall
    split at hcall <;> cases hcall
    refine ⟨hd.containers, fun n₀ hn₀ hm₀ => List.mem_filter.mpr ⟨hd.networks n₀ hn₀ hm₀, ?_⟩, hd.volumes, hd.nextId⟩
    simpa using hforeign n (List.mem_of_mem_filter hn) n₀ hn₀ hm₀

theorem spared_collectVolumes : KeepsDocker (Spared d₀) (collectVolumes env ds planId) := by
  refine Act.Triple.bind (query_docker _) fun volumes => ?_
  refine Act.Triple.assume
    (p := ∀ v ∈ volumes, ∀ v₀ ∈ d₀.volumes, isManaged v₀.labels = false → v₀.name ≠ v.name) ?_ fun hforeign => ?_
  · rintro w ⟨hw, rfl⟩ v hv v₀ hv₀ hm₀ hname
    obtain ⟨hv, hm⟩ := List.mem_filter.mp hv
    have heq : v₀ = v :=
      List.inj_on_of_nodup_map w.docker.volumes_nodup (hw.volumes v₀ hv₀ hm₀) hv hname
    rw [heq, hm] at hm₀
    cases hm₀
  · refine (Act.Keeps.forEach (I := fun w => Spared d₀ w.docker) fun v hv => ?_).conseq
      (fun _ h => h.1) (fun _ _ h => h) fun _ _ h => h
    split
    · refine (keeps_issue fun d _ d' hd hcall => ?_).bind fun _ => keeps_journal _ _ _ _
      unfold Docker.removeVolume at hcall
      split at hcall <;> cases hcall
      refine ⟨hd.containers, hd.networks, fun v₀ hv₀ hm₀ => List.mem_filter.mpr ⟨hd.volumes v₀ hv₀ hm₀, ?_⟩,
        hd.nextId⟩
      simpa using hforeign v (List.mem_of_mem_filter hv) v₀ hv₀ hm₀
    · exact keeps_journal _ _ _ _

theorem spared_observeStage : KeepsDocker (Spared d₀) (observeStage env) := by
  refine Act.Keeps.get.bind fun w => ?_
  split
  · exact .pure _
  · split
    · exact .pure _
    · refine Act.Keeps.bind ?_ fun _ => .pure _
      refine spared_collectContainers.bind fun _ => spared_collectNetworks.bind fun _ =>
        spared_collectVolumes.bind fun _ => ?_
      refine (keeps_query _).bind fun remaining => (Act.Keeps.forEach fun service _ => ?_).bind fun _ =>
        Act.Keeps.modify fun _ h => h
      unfold writeStatus
      split
      · exact .throw _
      · exact Act.Keeps.modify fun _ h => h

end Observe

/-! ### Runs -/

/-- One run after the other, each in its own circumstances. -/
def runs (envs : List Env) (w : World) : World := envs.foldl (fun w env => (runOnce env w).2) w

theorem spared_runOnce (env : Env) (w : World) : Spared w.docker (runOnce env w).2.docker := by
  obtain ⟨o, r, w', hrun, ⟨w₁, hdocker, -, hparts⟩, -⟩ := runOnce_parts env w
  rw [hrun]
  rcases hparts with ⟨rfl, -⟩ | ⟨-, hlast⟩
  · exact hdocker ▸ .refl _
  · have hkeeps : KeepsDocker (Spared w.docker) (runStages env [.execute, .observe]) := by
      refine (Act.Keeps.tryCatch spared_executeStage fun _ => .pure _).bind fun r => ?_
      cases r with
      | some e => exact .pure _
      | none =>
        refine (Act.Keeps.tryCatch spared_observeStage fun _ => .pure _).bind fun r => ?_
        cases r <;> exact .pure _
    have hfinal := hkeeps.final (s := w₁) (hdocker ▸ Spared.refl _)
    rwa [hlast] at hfinal

/-- **Whatever is not managed stays as it is**, over any runs: its own record, which is what the
daemon has of a container, network or volume; the proxy may be attached to such a network. -/
theorem bystanders_spared (envs : List Env) (w : World) : Spared w.docker (runs envs w).docker := by
  induction envs generalizing w with
  | nil => exact .refl _
  | cons env envs ih => exact (spared_runOnce env w).trans (ih _)

end Wanfw.Orchestrator.Bystanders
