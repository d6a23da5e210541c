import Wanfw.Orchestrator.Pipeline
import Wanfw.Plugins.DeployDocker

/-!
# Labels

The labels of a container are all that links it to its service from one run to the
next: `ensureContainer` finds it by `wanfw.managed` and compares `wanfw.confighash`,
OBSERVE attributes it by `wanfw.service`. They come from three objects of which the
later wins: `wanfw.managed`, the framework's own, and those of the plan, which no
check looks at.

`bookkept_iff`: a container keeps the framework's books exactly when the labels of
its plan say nothing else under the framework's four keys.
-/

namespace Wanfw.Orchestrator

open Wanfw.Js Wanfw.Schemas

/-- What the later steps find out about the container that this call creates for a service. -/
structure Bookkept (env : Env) (serviceId : JsString) (spec : ContainerSpec) (before : Docker)
    (o : CreateContainerOptions) : Prop where
  managed : Obj.get o.labels (js "wanfw.managed") = some (js "true")
  service : Obj.get o.labels (js "wanfw.service") = some serviceId
  confighash : Obj.get o.labels (js "wanfw.confighash") = some (computeConfigHash env (withPrimaryNetwork serviceId spec))
  core : Obj.get o.labels (js "wanfw.core") = none
  /-- The next run finds it by its name, with the hash to compare, and OBSERVE attributes it. -/
  found : ∀ c d, before.createContainer o = .ok (c, d) → d.managedContainer (containerName serviceId) = some c ∧
    Obj.get c.labels (js "wanfw.confighash") = some (computeConfigHash env (withPrimaryNetwork serviceId spec)) ∧
    serviceLabel c.labels = some serviceId

/-- The labels of the plan leave those of the framework as they are. -/
structure ContainerSpec.LeavesLabels (spec : ContainerSpec) (env : Env) (serviceId : JsString) : Prop where
  managed : ∀ v, Obj.get (spec.labels.getD []) (js "wanfw.managed") = some v → v = js "true"
  service : ∀ v, Obj.get (spec.labels.getD []) (js "wanfw.service") = some v → v = serviceId
  confighash : ∀ v, Obj.get (spec.labels.getD []) (js "wanfw.confighash") = some v →
    v = computeConfigHash env (withPrimaryNetwork serviceId spec)
  core : Obj.get (spec.labels.getD []) (js "wanfw.core") = none

section Labels

variable {env : Env} {serviceId : JsString} {spec : ContainerSpec}

/-- The labels of a service's container: the plan's, or else the framework's. -/
theorem get_containerLabels (hobj : (Obj.keys (spec.labels.getD [])).Nodup) (planId k : JsString) :
    Obj.get (containerLabels env spec planId (.service serviceId)) k =
      (Obj.get (spec.labels.getD []) k).or
        (Obj.get [(js "wanfw.service", serviceId), (js "wanfw.plan", planId),
          (js "wanfw.confighash", computeConfigHash env spec), (js "wanfw.managed", js "true")] k) := by
  have hown : (Obj.keys [(js "wanfw.service", serviceId), (js "wanfw.plan", planId),
      (js "wanfw.confighash", computeConfigHash env spec)]).Nodup := by
    simp only [Obj.keys, List.map_cons, List.map_nil]
    decide
  rw [containerLabels, baseLabels, Obj.get_spread _ _ (Obj.nodup_spread hown _), Obj.get_spread _ _ hobj, Option.or_assoc]
  congr 1
  simp only [Obj.get_cons, Obj.get_nil]
  split
  · rfl
  · split
    · rfl
    · split <;> rfl

theorem or_eq_some_iff_of_some {α : Type} {x : Option α} {y : α} : x.or (some y) = some y ↔ ∀ v, x = some v → v = y := by
  cases x with
  | none => simp
  | some v => simp

/-- A container that was just created is found by its name if it is managed. -/
theorem Docker.managedContainer_created {d d' : Docker} {o : CreateContainerOptions} {c : Container}
    (h : d.createContainer o = .ok (c, d')) (hmanaged : Obj.get o.labels (js "wanfw.managed") = some (js "true")) :
    d'.managedContainer o.name = some c := by
  unfold Docker.createContainer at h
  split at h
  · cases h
  · rename_i hfree
    cases h
    have hnone : (d.containers.find? fun c => c.name == o.name && isManaged c.labels) = none := by
      rw [List.find?_eq_none]
      intro c hc hname
      rw [Bool.and_eq_true] at hname
      exact hfree (List.any_eq_true.mpr ⟨c, hc, hname.1⟩)
    rw [Docker.managedContainer, List.find?_append, hnone, Option.none_or, List.find?_cons_of_pos]
    simp [Docker.newContainer, isManaged, hmanaged]

theorem Docker.labels_created {d d' : Docker} {o : CreateContainerOptions} {c : Container}
    (h : d.createContainer o = .ok (c, d')) : c.labels = o.labels := by
  unfold Docker.createContainer at h
  split at h <;> cases h
  rfl

theorem bookkept_createOptions_iff (hid : serviceId ≠ []) (hobj : (Obj.keys (spec.labels.getD [])).Nodup) (before : Docker) :
    Bookkept env serviceId spec before (createOptions env (containerName serviceId) (withPrimaryNetwork serviceId spec)
      env.planId (.service serviceId)) ↔ spec.LeavesLabels env serviceId := by
  have hget := fun k => @get_containerLabels env serviceId (withPrimaryNetwork serviceId spec) hobj env.planId k
  have hmanaged := hget (js "wanfw.managed")
  have hservice := hget (js "wanfw.service")
  have hhash := hget (js "wanfw.confighash")
  have hcore := hget (js "wanfw.core")
  rw [show Obj.get [_, _, _, _] (js "wanfw.managed") = some (js "true") from rfl] at hmanaged
  rw [show Obj.get [_, _, _, _] (js "wanfw.service") = some serviceId from rfl] at hservice
  rw [show Obj.get [_, _, _, _] (js "wanfw.confighash") = some (computeConfigHash env (withPrimaryNetwork serviceId spec))
    from rfl] at hhash
  rw [show Obj.get [_, _, _, _] (js "wanfw.core") = none from rfl, Option.or_none] at hcore
  constructor
  · rintro ⟨h1, h2, h3, h4, -⟩
    exact ⟨or_eq_some_iff_of_some.mp (hmanaged ▸ h1), or_eq_some_iff_of_some.mp (hservice ▸ h2),
      or_eq_some_iff_of_some.mp (hhash ▸ h3), hcore ▸ h4⟩
  · rintro ⟨h1, h2, h3, h4⟩
    have h1' := hmanaged.trans (or_eq_some_iff_of_some.mpr h1)
    have h2' := hservice.trans (or_eq_some_iff_of_some.mpr h2)
    have h3' := hhash.trans (or_eq_some_iff_of_some.mpr h3)
    refine ⟨h1', h2', h3', hcore.trans h4, fun c d hc => ⟨Docker.managedContainer_created hc h1', ?_, ?_⟩⟩
    · rw [Docker.labels_created hc]
      exact h3'
    · rw [Docker.labels_created hc, serviceLabel]
      refine (congrArg truthy h2').trans ?_
      simp [truthy, hid]

/-- A call of EXECUTE that creates the container of a service comes from its plan. -/
theorem create_of_execute {ds : DesiredState} {graph : PlanGraph} {gate : Option (Obj GatedService)} {w : World}
    {new : List Attempt} (hlog : (executeGraph env ds graph gate w).2.log = w.log ++ new)
    (hmem : (serviceId, spec) ∈ graph.servicePlans) {a : Attempt} (ha : a ∈ new) {o : CreateContainerOptions}
    (hcall : a.call = .createContainer o) (hname : o.name = containerName serviceId) :
    o = createOptions env (containerName serviceId) (withPrimaryNetwork serviceId spec) env.planId (.service serviceId) := by
  obtain ⟨⟨new', hnew, hall⟩, -⟩ := (issues_executeGraph ds graph gate w.log w.ctx).final (IssuedSince.refl _ w)
    (fun _ _ h => h) fun _ _ h => h
  rw [hlog] at hnew
  rw [List.append_cancel_left hnew] at ha
  rcases hall a ha with ⟨id, plan, hplan, -, hfor⟩ | ⟨plan, network, -, -, hfor⟩ | ⟨-, cmd, hexec⟩
  · have ho := hfor.createsFrom o hcall
    have hid : id = serviceId := containerName_inj (by rw [← hname, ho]; rfl)
    subst hid
    have hget := (Obj.mem_iff_get graph.plans_nodup).mp hplan
    rw [(Obj.mem_iff_get graph.plans_nodup).mp hmem] at hget
    cases hget
    exact ho
  · have ho := hfor.call
    rw [hcall] at ho
    refine absurd ?_ (containerName_ne_proxy serviceId)
    rw [← hname, show o = _ from ho]
    rfl
  · rw [hcall] at hexec
    cases hexec

/-- **When the labels of a plan leave the framework's books alone.** For every plan, accepted or not,
every run of EXECUTE on a graph with it, and every container that the run creates for the service. -/
theorem bookkept_iff (hid : serviceId ≠ []) (hobj : (Obj.keys (spec.labels.getD [])).Nodup) {ds : DesiredState}
    {graph : PlanGraph} {gate : Option (Obj GatedService)} {w : World} {new : List Attempt}
    (hlog : (executeGraph env ds graph gate w).2.log = w.log ++ new) (hmem : (serviceId, spec) ∈ graph.servicePlans)
    {a : Attempt} (ha : a ∈ new) {o : CreateContainerOptions} (hcall : a.call = .createContainer o)
    (hname : o.name = containerName serviceId) :
    Bookkept env serviceId spec a.before o ↔ spec.LeavesLabels env serviceId := by
  rw [create_of_execute hlog hmem ha hcall hname]
  exact bookkept_createOptions_iff hid hobj a.before

end Labels

/-! ### Labels of a deploy section -/

/-- The plan of deploy-docker for a section with nothing but an image and labels. -/
def labelledPlan (serviceId : JsString) (labels : Obj JsString) : ContainerSpec :=
  Plugins.DeployDocker.planTask serviceId { image := js "busybox", labels := some labels }

theorem accepted_labelledPlan (serviceId : JsString) (labels : Obj JsString) :
    Accepted serviceId (labelledPlan serviceId labels) [anyImage] where
  image := by rfl
  mounts := by simp [labelledPlan, Plugins.DeployDocker.planTask, ContainerSpec.mountList]
  devices := by simp [labelledPlan, Plugins.DeployDocker.planTask]
  networkMode := by rfl
  privileged := by rfl
  capAdd := by simp [labelledPlan, Plugins.DeployDocker.planTask]
  ports := by rfl
  networks := by simp [labelledPlan, Plugins.DeployDocker.planTask]

/-- The graph of this plan for the service `blog`. -/
def labelledGraph (labels : Obj JsString) : PlanGraph where
  networkPlan := none
  servicePlans := [(js "blog", labelledPlan (js "blog") labels)]
  routes := []
  proxyRender := none
  certNames := []
  plans_nodup := List.nodup_singleton _
  plans_plain := by
    change _ ∉ [js "blog"]
    decide

/-- EXECUTE for this graph, nothing failing. -/
def executeLabelled (labels : Obj JsString) (w : World) : Except JsError StageResult × World :=
  executeGraph Env.idle ⟨none, [], [], List.nodup_nil⟩ (labelledGraph labels) none w

/-- The created containers of a log: their name and labels. -/
def createdLabels (log : List Attempt) : List (JsString × Obj JsString) :=
  log.filterMap fun a =>
    match a.call with
    | .createContainer o => some (o.name, o.labels)
    | _ => none

theorem exists_of_mem_createdLabels {log : List Attempt} {e : JsString × Obj JsString} (h : e ∈ createdLabels log) :
    ∃ a ∈ log, ∃ o, a.call = .createContainer o ∧ o.name = e.1 ∧ o.labels = e.2 := by
  obtain ⟨a, ha, hcall⟩ := List.mem_filterMap.mp h
  cases hc : a.call <;> rw [hc] at hcall <;> cases hcall
  exact ⟨a, ha, _, hc, rfl, rfl⟩

/-- A plan with a label of its own. -/
theorem bookkept_app :
    ∃ a ∈ (executeLabelled [(js "app", js "blog")] World.empty).2.log, ∃ o, a.call = .createContainer o ∧
      Bookkept Env.idle (js "blog") (labelledPlan (js "blog") [(js "app", js "blog")]) a.before o := by
  obtain ⟨a, ha, o, hcall, hname, -⟩ := exists_of_mem_createdLabels
    (show (containerName (js "blog"), [(js "wanfw.managed", js "true"), (js "wanfw.service", js "blog"),
      (js "wanfw.plan", js "plan-1"), (js "wanfw.confighash", []), (js "app", js "blog")]) ∈
        createdLabels (executeLabelled [(js "app", js "blog")] World.empty).2.log by decide +kernel)
  have hmem : (js "blog", labelledPlan (js "blog") [(js "app", js "blog")]) ∈
      (labelledGraph [(js "app", js "blog")]).servicePlans := List.mem_singleton_self _
  have hlog : (executeGraph Env.idle ⟨none, [], [], List.nodup_nil⟩ (labelledGraph [(js "app", js "blog")]) none
      World.empty).2.log = World.empty.log ++ (executeLabelled [(js "app", js "blog")] World.empty).2.log := by
    rw [executeLabelled, show World.empty.log = [] from rfl, List.nil_append]
  refine ⟨a, ha, o, hcall, (bookkept_iff (by decide) ?_ hlog hmem ha hcall hname).mpr ?_⟩
  · exact List.nodup_singleton _
  · refine ⟨?_, ?_, ?_, rfl⟩ <;> exact fun v hv => by cases hv

/-- The label `wanfw.managed` of a plan that passes the check hides the container: the next run does
not find it, and fails on its name. Under `wanfw.service` the container becomes another service's. -/
theorem not_bookkept_managed :
    (∃ result, validateContainerSpec (fun _ => []) (js "blog")
      (labelledPlan (js "blog") [(js "wanfw.managed", js "false")]) [anyImage] = .ok result ∧ result.ok = true) ∧
    (∃ a ∈ (executeLabelled [(js "wanfw.managed", js "false")] World.empty).2.log, ∃ o, a.call = .createContainer o ∧
      ¬ Bookkept Env.idle (js "blog") (labelledPlan (js "blog") [(js "wanfw.managed", js "false")]) a.before o) ∧
    (executeLabelled [(js "wanfw.managed", js "false")]
      (executeLabelled [(js "wanfw.managed", js "false")] World.empty).2).1.toOption.join.map (·.message) =
        some (js "Conflict. The container name \"/wanfw_blog\" is already in use") ∧
    (executeLabelled [(js "wanfw.service", js "wiki")] World.empty).2.docker.containers.map
      (fun c => (c.name, serviceLabel c.labels)) = [(js "wanfw_blog", some (js "wiki"))] := by
  refine ⟨⟨_, ok_of_accepted (accepted_labelledPlan _ _), rfl⟩, ?_, by decide +kernel, by decide +kernel⟩
  obtain ⟨a, ha, o, hcall, -, hlabels⟩ := exists_of_mem_createdLabels
    (show (containerName (js "blog"), [(js "wanfw.managed", js "false"), (js "wanfw.service", js "blog"),
      (js "wanfw.plan", js "plan-1"), (js "wanfw.confighash", [])]) ∈
        createdLabels (executeLabelled [(js "wanfw.managed", js "false")] World.empty).2.log by decide +kernel)
  refine ⟨a, ha, o, hcall, fun h => ?_⟩
  have hmanaged := h.managed
  rw [hlabels] at hmanaged
  revert hmanaged
  decide

end Wanfw.Orchestrator
