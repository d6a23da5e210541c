import Wanfw.Orchestrator.Converge
import Wanfw.Orchestrator.PlanOrder
import Wanfw.Orchestrator.Retention
import Wanfw.Schemas.BundleHash

/-!
# A run with the documents in another order

A run that succeeded leaves the proxy container as its plan wants it
(`SuccessfulRun.kept`), and a run whose plan has the same configuration hash leaves
that container where it is, whatever fails on the way (`sparesProxy_of_kept`).
`unmoved_iff` says when a reordering of the documents leaves the proxy alone.
-/

namespace Wanfw.Orchestrator

open Wanfw.Js Wanfw.Schemas

/-! ### What is watched over a run -/

/-- Different containers have different names. -/
def Docker.NamesUnique (d : Docker) : Prop := (d.containers.map (·.name)).Nodup

/-- The call removes a container with the name of the proxy. -/
def Attempt.RemovesProxy (a : Attempt) : Prop := ∃ id, a.call = .removeContainer id ∧ a.Names id proxyContainerName

/-- The daemon has `I`, and no call since `log` removes the proxy container. -/
def Watched (I : Docker → Prop) (log : List Attempt) (w : World) : Prop :=
  I w.docker ∧ ∃ new, w.log = log ++ new ∧ ∀ a ∈ new, ¬ a.RemovesProxy

section Watched

variable {α : Type} {env : Env} {I : Docker → Prop} {log : List Attempt} {m : M α}

/-- What keeps `I` and issues other calls. -/
theorem watched_of_issues {P : Attempt → Prop} (hkeeps : KeepsDocker I m) (hissues : Issues P m)
    (hP : ∀ a, P a → ¬ a.RemovesProxy) : Act.Keeps (Watched I log) m := by
  refine Act.Triple.ofEach fun w hw => ?_
  have close : ∀ w', I w'.docker ∧ IssuedSince P w.log w.ctx w' → Watched I log w' := by
    rintro w' ⟨hI, ⟨new', hnew', hall'⟩, -⟩
    obtain ⟨-, new, hnew, hall⟩ := hw
    refine ⟨hI, new ++ new', by rw [hnew', hnew, List.append_assoc], fun a ha => ?_⟩
    exact (List.mem_append.mp ha).elim (hall a) fun ha => hP a (hall' a ha)
  refine (Act.Triple.and hkeeps (hissues w.log w.ctx)).conseq ?_ (fun _ => close) fun _ => close
  rintro _ rfl
  exact ⟨hw.1, .refl P _⟩

theorem watched_query (f : Docker → α) :
    Act.Triple (Watched I log) (query env f) (fun a w => Watched I log w ∧ a = f w.docker) fun _ => Watched I log := by
  intro w hw
  unfold query
  simp only
  cases env.fault w.calls with
  | none => exact ⟨hw, rfl⟩
  | some fault => cases fault <;> exact hw

theorem Watched.push {w w' : World} (h : Watched I log w) {a : Attempt} (ha : ¬ a.RemovesProxy)
    (hlog : w'.log = w.log ++ [a]) (hI : I w'.docker) : Watched I log w' := by
  obtain ⟨-, new, hnew, hall⟩ := h
  refine ⟨hI, new ++ [a], by rw [hlog, hnew, List.append_assoc], fun b hb => ?_⟩
  rcases List.mem_append.mp hb with hb | hb
  · exact hall b hb
  · rwa [List.mem_singleton.mp hb]

/-- A call that keeps `I` and does not remove the proxy container of a daemon with `I`. -/
theorem watched_issue {stage : Stage} {call : Call} {f : Docker → Except JsError (α × Docker)}
    (hI : ∀ d a d', I d → f d = .ok (a, d') → I d') (hcall : ∀ d, I d → ¬ Attempt.RemovesProxy ⟨stage, d, call⟩) :
    Act.Keeps (Watched I log) (issue env stage call f) := by
  intro w hw
  have hother := hcall w.docker hw.1
  unfold issue
  simp only
  cases env.fault w.calls with
  | none =>
    cases hf : f w.docker with
    | error e => exact hw.push hother rfl hw.1
    | ok r => exact hw.push hother rfl (hI _ r.1 r.2 hw.1 hf)
  | some fault =>
    cases fault with
    | lost message => exact hw.push hother rfl hw.1
    | late message =>
      cases hf : f w.docker with
      | error e => exact hw.push hother rfl hw.1
      | ok r => exact hw.push hother rfl (hI _ r.1 r.2 hw.1 hf)

theorem not_removesProxy {a : Attempt} (h : ∀ id, a.call ≠ .removeContainer id) : ¬ a.RemovesProxy := by
  rintro ⟨id, hcall, -⟩
  exact h id hcall

/-- The calls for a service do not remove the proxy container. -/
theorem ForService.not_removesProxy {serviceId : JsString} {spec : ContainerSpec} {a : Attempt}
    (h : ForService env serviceId spec a) : ¬ a.RemovesProxy := by
  rintro ⟨id, hcall, hnames⟩
  have hfor := h.call
  rw [hcall] at hfor
  exact containerName_ne_proxy serviceId (hnames.unique hfor)

end Watched

/-! ### A container that stays -/

/-- No container with the proxy's name belongs to a service that is gone, and those that are managed were created for
this hash. -/
structure Kept (hash : Option JsString) (ds : DesiredState) (d : Docker) : Prop where
  alive : ∀ c ∈ d.containers, c.name = proxyContainerName → isDoomed ds c.labels = false
  current : ∀ c ∈ d.containers, c.name = proxyContainerName → isManaged c.labels = true →
    ∀ h, hash = some h → Obj.get c.labels (js "wanfw.confighash") = some h

section Kept

variable {env : Env} {ds : DesiredState} {hash : Option JsString} {d d' : Docker} {name : JsString}
  {options : CreateContainerOptions} {docs : DesiredState}

/-- A daemon that has no other containers of the proxy's name. -/
theorem Kept.of_older (h : Kept hash ds d) (hold : ∀ c' ∈ d'.containers, c'.name = proxyContainerName →
    ∃ c ∈ d.containers, c.name = c'.name ∧ c.labels = c'.labels) : Kept hash ds d' where
  alive c' hc' hname := by
    obtain ⟨c, hc, hsame, hlabels⟩ := hold c' hc' hname
    exact hlabels ▸ h.alive c hc (hsame.trans hname)
  current c' hc' hname := by
    obtain ⟨c, hc, hsame, hlabels⟩ := hold c' hc' hname
    exact hlabels ▸ h.current c hc (hsame.trans hname)

theorem Kept.same (h : Kept hash ds d) (hsame : d'.containers = d.containers) : Kept hash ds d' :=
  h.of_older fun c hc _ => ⟨c, hsame ▸ hc, rfl, rfl⟩

theorem Kept.map (h : Kept hash ds d) {f : Container → Container} (hd : d'.containers = d.containers.map f)
    (hf : ∀ c, (f c).name = c.name ∧ (f c).labels = c.labels) : Kept hash ds d' := by
  refine h.of_older fun c' hc' _ => ?_
  rw [hd] at hc'
  obtain ⟨c, hc, rfl⟩ := List.mem_map.mp hc'
  exact ⟨c, hc, (hf c).1.symm, (hf c).2.symm⟩

theorem Kept.start (hd : Kept hash ds d) {id : ℕ} (h : d.startContainer id = .ok ((), d')) : Kept hash ds d' := by
  obtain ⟨_, rfl⟩ := Docker.startContainer_eq h
  exact hd.map rfl fun c => by split <;> exact ⟨rfl, rfl⟩

theorem Kept.remove (hd : Kept hash ds d) {id : ℕ} (h : d.removeContainer id = .ok ((), d')) : Kept hash ds d' := by
  unfold Docker.removeContainer at h
  split at h <;> cases h
  exact hd.of_older fun c hc _ => ⟨c, List.mem_of_mem_filter hc, rfl, rfl⟩

/-- The calls for a container: only what they create matters. -/
theorem kept_container (hname : options.name = name) (hnew : name = proxyContainerName →
      isDoomed ds options.labels = false ∧ ∀ h, hash = some h → Obj.get options.labels (js "wanfw.confighash") = some h) :
    ContainerCalls (Kept hash ds) name options where
  create d c d' hd h := by
    unfold Docker.createContainer at h
    split at h <;> cases h
    refine ⟨fun c' hc' hproxy => ?_, fun c' hc' hproxy => ?_⟩
    · rcases List.mem_append.mp hc' with hc' | hc'
      · exact hd.alive c' hc' hproxy
      · rw [List.mem_singleton.mp hc'] at hproxy ⊢
        exact (hnew (hname.symm.trans hproxy)).1
    · rcases List.mem_append.mp hc' with hc' | hc'
      · exact hd.current c' hc' hproxy
      · rw [List.mem_singleton.mp hc'] at hproxy ⊢
        exact fun _ => (hnew (hname.symm.trans hproxy)).2
  start d c d' hd _ _ h := hd.start h
  remove d c d' hd _ _ h := hd.remove h
  connect d c network d' hd _ _ h := by
    obtain ⟨_, rfl⟩ := Docker.connectNetwork_eq h
    exact hd.map rfl fun c => by split <;> exact ⟨rfl, rfl⟩

theorem kept_service (serviceId : JsString) (spec : ContainerSpec) :
    ServiceCalls (Kept hash ds) env docs serviceId spec where
  network d d' hd h := hd.same (Docker.containers_createNetwork h)
  volume vol _ d d' hd h := by
    cases h
    exact hd.same rfl
  container := kept_container rfl fun h => absurd h.symm (containerName_ne_proxy serviceId)

end Kept

/-! ### The labels of the proxy container -/

section Labels

variable {env : Env} {spec : ContainerSpec}

/-- The labels of a container of the core, for a plan without labels. -/
theorem get_coreLabels (hlabels : spec.labels = none) (planId k : JsString) :
    Obj.get (containerLabels env spec planId .core) k =
      Obj.get [(js "wanfw.plan", planId), (js "wanfw.confighash", computeConfigHash env spec),
        (js "wanfw.core", js "true"), (js "wanfw.managed", js "true")] k := by
  have hown : (Obj.keys [(js "wanfw.plan", planId), (js "wanfw.confighash", computeConfigHash env spec),
      (js "wanfw.core", js "true")]).Nodup := by
    simp only [Obj.keys, List.map_cons, List.map_nil]
    decide
  have hspread : Obj.spread [(js "wanfw.plan", planId), (js "wanfw.confighash", computeConfigHash env spec),
      (js "wanfw.core", js "true")] [] = [(js "wanfw.plan", planId), (js "wanfw.confighash", computeConfigHash env spec),
      (js "wanfw.core", js "true")] := rfl
  rw [containerLabels, hlabels, Option.getD_none, hspread, baseLabels, Obj.get_spread _ _ hown]
  simp only [Obj.get_cons, Obj.get_nil]
  split
  · rfl
  · split
    · rfl
    · split <;> rfl

theorem tagged_proxy (plan : NetworkPlan) (network : JsString) (ids : List JsString) :
    (createOptions env proxyContainerName (proxySpec env plan network ids) env.planId .core).Tagged env proxyContainerName
      (proxySpec env plan network ids) := by
  have hlabels : (proxySpec env plan network ids).labels = none := rfl
  exact ⟨rfl, get_coreLabels hlabels env.planId (js "wanfw.managed"),
    get_coreLabels hlabels env.planId (js "wanfw.confighash")⟩

/-- The proxy container belongs to no service. -/
theorem not_doomed_proxy (ds : DesiredState) (plan : NetworkPlan) (network : JsString) (ids : List JsString) :
    isDoomed ds (createOptions env proxyContainerName (proxySpec env plan network ids) env.planId .core).labels =
      false := by
  have hlabels : (proxySpec env plan network ids).labels = none := rfl
  have hnone : serviceLabel (containerLabels env (proxySpec env plan network ids) env.planId .core) = none := by
    rw [serviceLabel, get_coreLabels hlabels]
    rfl
  change (isManaged _ && isOrphan ds (containerLabels env (proxySpec env plan network ids) env.planId .core)) = false
  rw [isOrphan, hnone, Bool.and_false]

theorem kept_proxy {ds : DesiredState} {plan : NetworkPlan} {network : JsString} {ids : List JsString} :
    ContainerCalls (Kept (some (computeConfigHash env (proxySpec env plan network ids))) ds) proxyContainerName
      (createOptions env proxyContainerName (proxySpec env plan network ids) env.planId .core) := by
  refine kept_container rfl fun _ => ⟨not_doomed_proxy ds plan network ids, fun h hh => ?_⟩
  rw [← Option.some.inj hh]
  exact (tagged_proxy plan network ids).confighash

end Labels

/-! ### EXECUTE finds the container as it is to be -/

section Execute

variable {env : Env} {ds docs : DesiredState} {g : PlanGraph} {gate : Option (Obj GatedService)} {log : List Attempt}

/-- A container with the hash of the plan is not removed. -/
theorem watched_ensureProxy {spec : ContainerSpec} {options : CreateContainerOptions} (hoptions : createOptions env
      proxyContainerName spec env.planId .core = options)
    (hcalls : ContainerCalls (Kept (some (computeConfigHash env spec)) ds) proxyContainerName options) :
    Act.Keeps (Watched (Kept (some (computeConfigHash env spec)) ds) log)
      (ensureContainer env proxyContainerName spec env.planId .core) := by
  have hcreate : Act.Keeps (Watched (Kept (some (computeConfigHash env spec)) ds) log) (createAndStart env options) := by
    refine watched_of_issues (P := fun a => ∀ id, a.call ≠ .removeContainer id) (keeps_createAndStart ?_ hcalls) ?_
      fun a => not_removesProxy
    · rw [← hoptions]
      rfl
    · exact (Issues.issue (by simp)).bind fun c => Issues.issue (by simp)
  refine Act.Triple.bind (watched_query _) fun existing => ?_
  rw [hoptions]
  cases existing with
  | none =>
    exact Act.Triple.bind (hcreate.conseq (fun _ h => h.1) (fun _ _ h => h) fun _ _ h => h) fun _ => Act.Keeps.pure _
  | some c =>
    refine Act.Triple.assume (p := Obj.get c.labels (js "wanfw.confighash") = some (computeConfigHash env spec)) ?_
      fun hhash => ?_
    · rintro w ⟨hw, hfound⟩
      have hc := Docker.mem_managedContainer hfound.symm
      have hmanaged := List.find?_some hfound.symm
      rw [Bool.and_eq_true] at hmanaged
      exact hw.1.current c hc.1 hc.2 hmanaged.2 _ rfl
    · dsimp only
      rw [if_pos hhash]
      split
      · exact Act.Triple.pure fun _ h => h.1
      · have hstart : Act.Keeps (Watched (Kept (some (computeConfigHash env spec)) ds) log)
            (issue env .execute (.startContainer c.id) fun d => d.startContainer c.id) :=
          watched_issue (fun d _ d' hd h => hd.start h) fun d _ => not_removesProxy (by simp)
        exact Act.Triple.bind (hstart.conseq (fun _ h => h.1) (fun _ _ h => h) fun _ _ h => h) fun _ => Act.Keeps.pure _

/-- EXECUTE for a network plan. -/
theorem watched_executeProxy (plan : NetworkPlan) (network : JsString) (ids : List JsString) :
    Act.Keeps (Watched (Kept (some (computeConfigHash env (proxySpec env plan network ids))) ds) log)
      (executeProxy env plan network ids) := by
  have hjournal : ∀ (step : JsString) (payload result : Json),
      Act.Keeps (Watched (Kept (some (computeConfigHash env (proxySpec env plan network ids))) ds) log)
        (journal env.planId step payload result) := fun _ _ _ => Act.Keeps.modify fun _ h => h
  refine Act.Keeps.bind (watched_of_issues (P := fun a => ∀ id, a.call ≠ .removeContainer id)
    (keeps_ensureNetwork fun d d' hd h => hd.same (Docker.containers_createNetwork h)) (issues_ensureNetwork (by simp))
    fun a => not_removesProxy) fun net => (hjournal _ _ _).bind fun _ => ?_
  refine (watched_ensureProxy rfl kept_proxy).bind fun r => (hjournal _ _ _).bind fun _ => ?_
  refine Act.Keeps.forEach fun networkName _ => Act.Keeps.bind ?_ fun r => hjournal _ _ _
  refine watched_of_issues (P := fun a => ∀ id, a.call ≠ .removeContainer id) (keeps_connect kept_proxy _)
    (issues_connect fun a id _ hcall _ => by simp [hcall]) fun a => not_removesProxy

/-- **EXECUTE leaves a container with the hash of its plan where it is.** -/
theorem watched_executeGraph : Act.Keeps (Watched (Kept (g.proxyHash env) ds) log) (executeGraph env docs g gate) := by
  have hfail : ∀ (step plugin : JsString) (payload : Json) (e : JsError),
      Act.Keeps (Watched (Kept (g.proxyHash env) ds) log) (failStep env step plugin payload e) := fun _ _ _ _ =>
    Act.Keeps.bind (Act.Keeps.modify fun _ h => h) fun _ => Act.Keeps.pure _
  refine Act.Keeps.bind (Act.Keeps.forReturn fun e he => ?_) fun r => ?_
  · unfold executeEntry
    split
    · exact Act.Keeps.bind (Act.Keeps.modify fun _ h => h) fun _ => Act.Keeps.pure _
    · refine Act.Keeps.tryCatch (Act.Keeps.bind ?_ fun _ => Act.Keeps.pure _) fun err => hfail _ _ _ _
      exact watched_of_issues (keeps_executeService (kept_service e.1 e.2)) (issues_executeService docs e.1 e.2)
        fun a => ForService.not_removesProxy
  · cases r with
    | some e => exact Act.Keeps.pure _
    | none =>
      refine Act.Keeps.bind ?_ fun r => ?_
      · unfold executeNetworkPlan
        split
        · exact Act.Keeps.pure _
        · rename_i plan hplan
          split
          · exact Act.Keeps.pure _
          · rename_i network hnetwork
            refine Act.Keeps.tryCatch (Act.Keeps.bind ?_ fun _ => Act.Keeps.pure _) fun err => hfail _ _ _ _
            have hhash : g.proxyHash env =
                some (computeConfigHash env (proxySpec env plan network (Obj.keys g.servicePlans))) := by
              simp [PlanGraph.proxyHash, PlanGraph.proxyPlan, hplan, hnetwork]
            rw [hhash]
            exact watched_executeProxy plan network _
      · cases r with
        | some e => exact Act.Keeps.pure _
        | none =>
          refine watched_of_issues (keeps_executeProxyRender g) (issues_executeProxyRender g) fun a ha => ?_
          obtain ⟨-, cmd, hcall⟩ := ha
          exact not_removesProxy (by simp [hcall])

end Execute

/-! ### OBSERVE finds nothing of the proxy to collect -/

section Observe

variable {env : Env} {ds : DesiredState} {hash : Option JsString} {planId : JsString} {log : List Attempt}

theorem watched_collectContainers :
    Act.Keeps (Watched (Kept hash ds) log) (collectContainers env ds planId) := by
  refine Act.Triple.bind (watched_query _) fun containers => Act.Triple.ofEach ?_
  rintro w₀ ⟨hw₀, rfl⟩
  -- every container was there when they were listed
  let I (d : Docker) : Prop := Kept hash ds d ∧ d.containers ⊆ w₀.docker.containers
  have hbody : ∀ c ∈ (w₀.docker.containers.filter fun c => isManaged c.labels).filter fun c => isOrphan ds c.labels,
      Act.Keeps (Watched I log) (do
        issue env .observe (.removeContainer c.id) fun d => d.removeContainer c.id
        gcJournal planId (js "container") c.name [(js "removed", .bool true)]) := by
    intro c hc
    obtain ⟨hlisted, horphan⟩ := List.mem_filter.mp hc
    obtain ⟨hmem, hmanaged⟩ := List.mem_filter.mp hlisted
    refine Act.Keeps.bind (watched_issue (fun d _ d' hd h => ⟨hd.1.remove h, ?_⟩) fun d hd => ?_) fun _ =>
      Act.Keeps.modify fun _ h => h
    · unfold Docker.removeContainer at h
      split at h <;> cases h
      exact fun x hx => hd.2 (List.mem_of_mem_filter hx)
    · rintro ⟨id, hcall, x, hx, hid, hname⟩
      cases hcall
      have hsame : x = c := Docker.eq_of_id (hd.2 hx) hmem hid
      have halive := hw₀.1.alive c hmem (hsame ▸ hname)
      rw [isDoomed, hmanaged, horphan] at halive
      cases halive
  refine Act.Triple.conseq (Act.Keeps.forEach hbody) ?_ (fun _ w hw => ⟨hw.1.1, hw.2⟩) fun _ w hw => ⟨hw.1.1, hw.2⟩
  rintro _ rfl
  exact ⟨⟨hw₀.1, List.Subset.refl _⟩, hw₀.2⟩

/-- What OBSERVE does after the containers removes none. -/
theorem watched_observeBody (ctx : Ctx) :
    Act.Triple (Watched (Kept hash ds) log) (observeBody env ds ctx) (fun _ => Watched (fun _ => True) log)
      fun _ => Watched (fun _ => True) log := by
  have hrest : ∀ {α : Type} {m : M α}, Issues (fun a => ∀ id, a.call ≠ .removeContainer id) m →
      Act.Keeps (Watched (fun _ => True) log) m := by
    intro α m hissues
    refine watched_of_issues (fun w _ => ?_) hissues fun a => not_removesProxy
    rcases m w with ⟨r, w'⟩
    cases r <;> trivial
  refine Act.Triple.bind (Q := fun _ => Watched (fun _ => True) log) ?_ fun _ => hrest ?_
  · exact watched_collectContainers.conseq (fun _ h => h) (fun _ _ h => ⟨trivial, h.2⟩) fun _ _ h => ⟨trivial, h.2⟩
  · have hnetworks : Issues (fun a => ∀ id, a.call ≠ .removeContainer id)
        (collectNetworks env ds (ctx.executedPlanId.getD (js "observe"))) :=
      (Issues.query _).bind fun networks => Issues.forEach fun n _ =>
        (Issues.issue (by simp)).bind fun _ => Issues.journal _ _ _ _
    have hvolumes : Issues (fun a => ∀ id, a.call ≠ .removeContainer id)
        (collectVolumes env ds (ctx.executedPlanId.getD (js "observe"))) := by
      refine (Issues.query _).bind fun volumes => Issues.forEach fun v _ => ?_
      split
      · exact (Issues.issue (by simp)).bind fun _ => Issues.journal _ _ _ _
      · exact Issues.journal _ _ _ _
    have hstatus : ∀ (id : JsString) (doc : Json), Issues (fun a => ∀ id, a.call ≠ .removeContainer id)
        (writeStatus env id doc) := by
      intro id doc
      unfold writeStatus
      split
      · exact Issues.throw _
      · exact Issues.modify (fun _ => rfl) fun _ => rfl
    refine hnetworks.bind fun _ => hvolumes.bind fun _ => (Issues.query _).bind fun remaining => ?_
    exact (Issues.forEach fun service _ => hstatus _ _).bind fun _ => Issues.modify (fun _ => rfl) fun _ => rfl

end Observe

/-! ### Two runs -/

/-- The run removes no proxy container. -/
def SparesProxy (env : Env) (w : World) : Prop :=
  ∀ new, (runOnce env w).2.log = w.log ++ new → ∀ a ∈ new, ¬ a.RemovesProxy

section Runs

variable {env : Env} {ds : DesiredState} {framework : Framework} {g : PlanGraph} {w w' : World}

/-- The graph that EXECUTE finds. -/
theorem graph_of_decided (hdecided : Decided env w) (hload : env.load = .ok ds) (hfw : ds.framework = some framework)
    (hplan : planOf env ds framework = .ok (.ok g)) :
    w.ctx.desiredState = some ds ∧ w.ctx.planGraph = some g := by
  obtain ⟨ds₁, hds₁, hgated⟩ := hdecided.gated
  obtain ⟨ds₂, hload₂, -, hds₂⟩ := hdecided.read
  rw [hload] at hload₂
  cases hload₂
  rw [hds₂] at hds₁
  cases hds₁
  obtain ⟨graph, validation, hgraph, -, hprepared⟩ := hgated framework hfw
  have hsame := hprepared.planned.symm.trans hplan
  exact ⟨hds₂, hgraph.trans (congrArg some (Except.ok.inj (Except.ok.inj hsame)))⟩

/-- The stage for a run that has its documents and its graph. -/
theorem executeStage_graph {Q : StageResult → World → Prop} {E : JsError → World → Prop}
    (hds : w.ctx.desiredState = some ds) (hg : w.ctx.planGraph = some g) (hfw : ds.framework.isSome)
    (h : Act.Triple (fun w' => w' = w) (executeGraph env ds g w.ctx.gateSnapshot) Q E)
    (hdone : ∀ w', Q none w' → Q none { w' with ctx := { w'.ctx with executedPlanId := some env.planId } }) :
    Act.Triple (fun w' => w' = w) (executeStage env) Q E := by
  obtain ⟨framework, hfw⟩ := Option.isSome_iff_exists.mp hfw
  refine Act.Triple.getBind ?_
  rintro _ rfl
  rw [hds, hg]
  dsimp only
  rw [hfw]
  refine h.bind fun r => ?_
  cases r with
  | some e => exact Act.Triple.pure fun _ h => h
  | none => exact Act.Triple.bind (Q := fun _ => Q none) (Act.Triple.modify hdone) fun _ => Act.Triple.pure fun _ h => h

/-- **A run on a daemon that has the proxy container as its plan wants it** removes none. -/
theorem sparesProxy_of_kept (hload : env.load = .ok ds) (hfw : ds.framework = some framework)
    (hplan : planOf env ds framework = .ok (.ok g)) (hkept : Kept (g.proxyHash env) ds w.docker) : SparesProxy env w := by
  obtain ⟨o, r, w', hrun, ⟨w₁, hdocker, hlog, hparts⟩, -⟩ := runOnce_parts env w
  have hnew : ∃ new, w'.log = w.log ++ new ∧ ∀ a ∈ new, ¬ a.RemovesProxy := by
    rcases hparts with ⟨rfl, -⟩ | ⟨hdecided, hrest⟩
    · exact ⟨[], by rw [hlog, List.append_nil], by simp⟩
    · obtain ⟨hds, hgraph⟩ := graph_of_decided hdecided hload hfw hplan
      let Q (w : World) : Prop := Watched (Kept (g.proxyHash env) ds) w₁.log w ∧ w.ctx.desiredState = some ds
      have hstart : Q w₁ := ⟨⟨hdocker ▸ hkept, [], by simp, by simp⟩, hds⟩
      have hexecute : Act.Triple (fun w => w = w₁) (executeStage env) (fun _ => Q) fun _ => Q := by
        refine executeStage_graph hds hgraph (by simp [hfw]) ?_ fun w' h => h
        have hkeeps : Act.Keeps (Watched (Kept (g.proxyHash env) ds) w₁.log)
            (executeGraph env ds g w₁.ctx.gateSnapshot) := watched_executeGraph
        refine (Act.Triple.and hkeeps (issues_executeGraph ds g w₁.ctx.gateSnapshot w₁.log w₁.ctx)).conseq ?_
          (fun _ w₂ h => ⟨h.1, ?_⟩) fun _ w₂ h => ⟨h.1, ?_⟩
        · rintro _ rfl
          exact ⟨hstart.1, .refl _ _⟩
        · rw [h.2.2, hds]
        · rw [h.2.2, hds]
      have hobserve : Act.Triple Q (observeStage env) (fun _ => Watched (fun _ => True) w₁.log)
          fun _ => Watched (fun _ => True) w₁.log := by
        refine Act.Triple.getBind fun w₂ h₂ => ?_
        rw [h₂.2]
        dsimp only
        rw [hfw]
        have hbody : Act.Triple (Watched (Kept (g.proxyHash env) ds) w₁.log) (observeBody env ds w₂.ctx)
            (fun _ => Watched (fun _ => True) w₁.log) fun _ => Watched (fun _ => True) w₁.log :=
          watched_observeBody w₂.ctx
        refine Act.Triple.bind (hbody.conseq ?_ (fun _ _ h => h) fun _ _ h => h) fun _ => Act.Keeps.pure _
        rintro _ rfl
        exact h₂.1
      have hlast : Act.Triple (fun w => w = w₁) (runStages env [.execute, .observe])
          (fun _ => Watched (fun _ => True) w₁.log) fun _ _ => False := by
        refine lastStages_spec (Q := Q) (hexecute.conseq (fun _ h => h) (fun r w₂ h₂ => ?_) fun _ w₂ h₂ => ?_) hobserve
        · cases r with
          | some e => exact ⟨trivial, h₂.1.2⟩
          | none => exact h₂
        · exact ⟨trivial, h₂.1.2⟩
      obtain ⟨-, new, hnew, hall⟩ := hlast.returned rfl hrest
      exact ⟨new, hnew.trans (congrArg (· ++ new) hlog), hall⟩
  obtain ⟨new', hnew', hall⟩ := hnew
  intro new hlognew
  rw [hrun, hnew'] at hlognew
  rw [← List.append_cancel_left hlognew]
  exact hall

/-- The calls for a container keep the names different. -/
theorem namesUnique_container (name : JsString) (options : CreateContainerOptions) :
    ContainerCalls Docker.NamesUnique name options where
  create d c d' hd h := by
    unfold Docker.createContainer at h
    split at h
    · cases h
    · rename_i hfree
      cases h
      have hnew : options.name ∉ d.containers.map (·.name) := by
        intro hmem
        obtain ⟨c, hc, hname⟩ := List.mem_map.mp hmem
        exact hfree (List.any_eq_true.mpr ⟨c, hc, beq_iff_eq.mpr hname⟩)
      unfold Docker.NamesUnique
      rw [List.map_append]
      exact List.Nodup.append hd (List.nodup_singleton _) (by simpa [Docker.newContainer] using hnew)
  start d c d' hd _ _ h := by
    obtain ⟨_, rfl⟩ := Docker.startContainer_eq h
    unfold Docker.NamesUnique Docker.mapContainers
    rw [List.map_map]
    refine (congrArg List.Nodup (List.map_congr_left fun x _ => ?_)).mpr hd
    simp only [Function.comp_apply]
    split <;> rfl
  remove d c d' hd _ _ h := by
    unfold Docker.removeContainer at h
    split at h <;> cases h
    exact List.Nodup.sublist (List.filter_sublist.map _) hd
  connect d c network d' hd _ _ h := by
    obtain ⟨_, rfl⟩ := Docker.connectNetwork_eq h
    unfold Docker.NamesUnique Docker.mapContainers
    rw [List.map_map]
    refine (congrArg List.Nodup (List.map_congr_left fun x _ => ?_)).mpr hd
    simp only [Function.comp_apply]
    split <;> rfl

theorem Docker.NamesUnique.same {d d' : Docker} (h : d.NamesUnique) (hsame : d'.containers = d.containers) :
    d'.NamesUnique := by
  rwa [NamesUnique, hsame]

/-- The proxy container is there for its plan, if there is to be one. -/
def Placed (env : Env) (g : PlanGraph) (d : Docker) : Prop :=
  d.NamesUnique ∧ ∀ spec, g.proxyPlan env = some spec → Brought env proxyContainerName spec [] d

theorem namesUnique_executeProxy (plan : NetworkPlan) (network : JsString) (ids : List JsString) :
    Act.Returns (fun w => w.docker.NamesUnique) (executeProxy env plan network ids) fun _ w =>
      w.docker.NamesUnique ∧ Brought env proxyContainerName (proxySpec env plan network ids) [] w.docker := by
  let spec := proxySpec env plan network ids
  have hcalls := namesUnique_container proxyContainerName (createOptions env proxyContainerName spec env.planId .core)
  have hnetwork : KeepsDocker Docker.NamesUnique (ensureNetwork env network env.planId .core
      (exposureNetworkDriverOptions plan network)) :=
    keeps_ensureNetwork fun d d' hd h => hd.same (Docker.containers_createNetwork h)
  refine Act.Triple.bind (hnetwork.conseq (fun _ h => h) (fun _ _ h => h) fun _ _ _ => trivial) fun net => ?_
  refine Act.Triple.bind (Q := fun _ w => w.docker.NamesUnique) (Act.Triple.modify fun _ h => h) fun _ => ?_
  refine Act.Triple.bind (ensureContainer_spec hcalls (tagged_proxy plan network ids)) fun r => ?_
  refine Act.Triple.bind (Q := fun _ w => w.docker.NamesUnique ∧ Brought env proxyContainerName spec [] w.docker)
    (Act.Triple.modify fun _ h => h) fun _ => ?_
  refine (connectAll_spec hcalls _ fun networkName => .obj [(js "networkName", .str networkName)]).conseq (fun _ h => h)
    (fun _ w h => ⟨h.1, ?_⟩) fun _ _ h => h
  obtain ⟨c, hc, hcurrent, -⟩ := h.2
  exact ⟨c, hc, hcurrent, by simp⟩

theorem placed_executeNetworkPlan : Act.Returns (fun w => w.docker.NamesUnique) (executeNetworkPlan env g)
    fun r w => r = none → Placed env g w.docker := by
  unfold executeNetworkPlan
  split
  · rename_i hplan
    exact Act.Triple.pure fun w hw _ => ⟨hw, fun spec hspec => by simp [PlanGraph.proxyPlan, hplan] at hspec⟩
  · rename_i plan hplan
    split
    · rename_i hnetwork
      exact Act.Triple.pure fun w hw _ => ⟨hw, fun spec hspec => by simp [PlanGraph.proxyPlan, hplan, hnetwork] at hspec⟩
    · rename_i network hnetwork
      have hspec : g.proxyPlan env = some (proxySpec env plan network (Obj.keys g.servicePlans)) := by
        simp [PlanGraph.proxyPlan, hplan, hnetwork]
      have hproxy : Act.Returns (fun w => w.docker.NamesUnique) (executeProxy env plan network (Obj.keys g.servicePlans))
          fun _ w => Placed env g w.docker := (namesUnique_executeProxy plan network _).conseq (fun _ h => h)
        (fun _ w h => ⟨h.1, fun spec hs => (Option.some.inj (hspec.symm.trans hs)) ▸ h.2⟩) fun _ _ h => h
      refine Act.Triple.tryCatch (F := fun _ _ => True) (hproxy.bind fun _ => Act.Triple.pure fun w h _ => h) fun e => ?_
      exact Act.Triple.bind (Q := fun _ _ => True) (Act.Triple.modify fun _ _ => trivial) fun _ =>
        Act.Triple.pure fun _ _ => by simp

/-- After EXECUTE. -/
theorem placed_executeGraph {docs : DesiredState} {gate : Option (Obj GatedService)} :
    Act.Returns (fun w => w.docker.NamesUnique) (executeGraph env docs g gate)
      fun r w => r = none → Placed env g w.docker := by
  have hservice : ∀ serviceId spec, ServiceCalls Docker.NamesUnique env docs serviceId spec := fun serviceId spec =>
    ⟨fun d d' hd h => hd.same (Docker.containers_createNetwork h), fun vol _ d d' hd h => by
      cases h
      exact hd.same rfl, namesUnique_container _ _⟩
  refine Act.Triple.bind (Q := fun _ w => w.docker.NamesUnique) ?_ fun r => ?_
  · have hloop : KeepsDocker Docker.NamesUnique (Act.forReturn g.servicePlans (executeEntry env docs gate)) :=
      Act.Keeps.forReturn fun e _ => keeps_executeEntry fun _ => hservice e.1 e.2
    exact hloop.conseq (fun _ h => h) (fun _ _ h => h) fun _ _ _ => trivial
  · cases r with
    | some e => exact Act.Triple.pure fun _ _ h => by cases h
    | none =>
      refine placed_executeNetworkPlan.bind fun r => ?_
      cases r with
      | some e => exact Act.Triple.pure fun _ _ h => by cases h
      | none =>
        have hrender : KeepsDocker (Placed env g) (executeProxyRender env g) := keeps_executeProxyRender g
        exact hrender.conseq (fun _ h => h rfl) (fun _ _ h _ => h) fun _ _ _ => trivial

/-- And after OBSERVE. -/
theorem kept_of_placed {d d' : Docker} (hplaced : Placed env g d)
    (hd : d'.containers = d.containers.filter fun c => !isDoomed ds c.labels) : Kept (g.proxyHash env) ds d' where
  alive c hc _ := by
    rw [hd] at hc
    simpa using (List.mem_filter.mp hc).2
  current c hc hname _ h hh := by
    rw [hd] at hc
    obtain ⟨spec, hspec, rfl⟩ := Option.map_eq_some_iff.mp hh
    obtain ⟨c₀, hfound, hcurrent, -⟩ := hplaced.2 spec hspec
    have hc₀ := Docker.mem_managedContainer hfound
    rw [List.inj_on_of_nodup_map hplaced.1 (List.mem_of_mem_filter hc) hc₀.1 (hname.trans hc₀.2.symm)]
    exact hcurrent.confighash

/-- **After a run that succeeded** the daemon has the proxy container as the run's plan wants it. -/
theorem SuccessfulRun.kept (h : SuccessfulRun env ds w w') (hfw : ds.framework = some framework)
    (hplan : planOf env ds framework = .ok (.ok g)) (hnames : w.docker.NamesUnique) :
    Kept (g.proxyHash env) ds w'.docker := by
  obtain ⟨o, hrun, ho⟩ := h.ended
  obtain ⟨o', r, w'', hrun', ⟨w₁, hdocker, -, hparts⟩, hphase⟩ := runOnce_parts env w
  rw [hrun] at hrun'
  cases hrun'
  have hr : r = none := not_ne_iff.mp fun h => ho (hphase.mpr h)
  rcases hparts with ⟨-, hne⟩ | ⟨hdecided, hrest⟩
  · exact absurd hr hne
  · obtain ⟨hds, hgraph⟩ := graph_of_decided hdecided h.loaded hfw hplan
    let Q (w : World) : Prop := Placed env g w.docker ∧ w.ctx.desiredState = some ds
    let R (r : StageResult) (w : World) : Prop := r = none → Kept (g.proxyHash env) ds w.docker
    have hexecute : Act.Triple (fun w => w = w₁) (executeStage env) (fun r w => r = none → Q w) fun _ _ => True := by
      refine executeStage_graph hds hgraph (by simp [hfw]) ?_ fun w' h => h
      have hissues : Issues (ForGraph env g w₁.ctx.gateSnapshot) (executeGraph env ds g w₁.ctx.gateSnapshot) :=
        issues_executeGraph ds g _
      refine (Act.Triple.and placed_executeGraph (hissues w₁.log w₁.ctx)).conseq ?_ (fun r w₂ h hr => ⟨h.1 hr, ?_⟩)
        fun _ _ _ => trivial
      · rintro _ rfl
        exact ⟨by rwa [hdocker], .refl _ _⟩
      · rw [h.2.2, hds]
    have hlast : Act.Triple (fun w => w = w₁) (runStages env [.execute, .observe]) R fun _ _ => False := by
      refine lastStages_spec (Q := Q) (hexecute.conseq (fun _ h => h) (fun r w₂ h₂ => ?_) fun _ w₂ _ => by simp [R]) ?_
      · cases r with
        | some e => simp [R]
        | none => exact h₂ rfl
      · refine Act.Triple.ofEach fun w₂ h₂ => (returns_observeStage h₂.2 (by simp [hfw])).conseq (fun _ h => h) ?_ ?_
        · exact fun _ w₃ h₃ _ => kept_of_placed h₂.1 h₃.2.containers
        · exact fun _ _ _ => by simp [R]
    exact hlast.returned rfl hrest hr

end Runs

/-! ### A reordering -/

/-- On the daemon that a successful run leaves, the other run removes no proxy container. -/
def SteadyProxy (env env' : Env) (ds : DesiredState) : Prop :=
  ∀ w w₁ w₂, w.docker.NamesUnique → SuccessfulRun env ds w w₁ → w₂.docker = w₁.docker → SparesProxy env' w₂

/-- PLAN for the other documents has the same rendered configuration, EXECUTE the same configuration hash for the proxy
container, and a run with them leaves that container where it is. -/
structure Unmoved (env env' : Env) (framework : Framework) (ds ds' : DesiredState) (g : PlanGraph) : Prop where
  planned : ∃ g', planOf env' ds' framework = .ok (.ok g') ∧ g'.proxyRender = g.proxyRender ∧
    g'.proxyHash env' = g.proxyHash env
  steady : SteadyProxy env env' ds

section Reorder

variable {env env' : Env} {ds ds' : DesiredState} {framework : Framework} {g : PlanGraph}

theorem SameDocuments.isDoomed (h : SameDocuments ds ds') (labels : Obj JsString) :
    Orchestrator.isDoomed ds' labels = Orchestrator.isDoomed ds labels := by
  unfold Orchestrator.isDoomed isOrphan
  cases serviceLabel labels with
  | none => rfl
  | some id => simp only [h.services.any_eq]

theorem exposes_iff (h : planOf env ds framework = .ok (.ok g)) :
    Exposes env framework ↔ g.networkPlan.bind (·.exposureNetwork) ≠ none := by
  have hnet := (planOf_ok h).1
  rw [Option.ne_none_iff_exists']
  constructor
  · rintro ⟨plan, network, hplan, hnetwork⟩
    rw [hnet] at hplan
    exact ⟨network, by rw [Except.ok.inj hplan, Option.bind_some, hnetwork]⟩
  · rintro ⟨network, hsome⟩
    obtain ⟨plan, hplan, hnetwork⟩ := Option.bind_eq_some_iff.mp hsome
    exact ⟨plan, network, by rw [hnet, hplan], hnetwork⟩

/-- **When a reordering leaves the proxy alone.** For every run that plans the documents, and another run that reads
the same documents in another order and gets the same answers: the rendered configuration is the same in any case, the
hash of the proxy container is the same, and the container stays, if and only if there is no proxy container or the ids
that are no array indices come in the same order. -/
theorem unmoved_iff (hload' : env'.load = .ok ds') (hfw : ds.framework = some framework)
    (hplan : planOf env ds framework = .ok (.ok g)) (hsame : SameAnswers env env') (hdocs : SameDocuments ds ds')
    (hlocale : Collates env.localeCompare (ds.services.map (·.id)))
    (hsha : Set.InjOn env.sha256 (proxyTexts env framework ds ds')) :
    Unmoved env env' framework ds ds' g ↔ (¬ Exposes env framework ∨ SameOrder ds ds') := by
  obtain ⟨g', hplan', hnet, -, -, hrender, hkeys⟩ := planOf_reordered hdocs hlocale hplan
  have hplanned : planOf env' ds' framework = .ok (.ok g') := hsame.planOf_iff.mpr hplan'
  have hhash : g'.proxyHash env' = g.proxyHash env ↔ (¬ Exposes env framework ∨ SameOrder ds ds') := by
    rw [hsame.proxyHash, proxyHash_eq_iff hnet, exposes_iff hplan, not_not, hkeys]
    intro spec spec' hspec hspec' h
    exact hsha ⟨ds', g', spec', .inr rfl, hplan', hspec', rfl⟩ ⟨ds, g, spec, .inl rfl, hplan, hspec, rfl⟩ h
  constructor
  · rintro ⟨⟨g'', hplan'', -, hsamehash⟩, -⟩
    cases Except.ok.inj (Except.ok.inj (hplanned.symm.trans hplan''))
    exact hhash.mp hsamehash
  · intro hcondition
    refine ⟨⟨g', hplanned, hrender, hhash.mpr hcondition⟩, fun w w₁ w₂ hnames hrun hdocker => ?_⟩
    refine sparesProxy_of_kept hload' (hdocs.framework.trans hfw) hplanned ?_
    have hkept := hrun.kept hfw hplan hnames
    rw [hdocker, hhash.mpr hcondition]
    exact ⟨fun c hc hname => (hdocs.isDoomed c.labels).trans (hkept.alive c hc hname), hkept.current⟩

end Reorder

/-! ### Two services -/

/-- Two service documents, in this order, under a framework with a network provider. -/
def pairDocuments (first second : JsString) (h : first ≠ second) : DesiredState where
  framework := some (providerFramework (js "network-bridge"))
  services := [first, second].map fun id =>
    ⟨id, some (js "deploy-docker"), some ⟨id ++ js ".home", 80, js "http", none⟩, .null, none⟩
  errors := []
  nodup := by simpa using h

/-- The text that is hashed of the container of a service. -/
def busyboxText (id : JsString) : JsString :=
  js "\x7b\"image\":\"busybox\",\"networks\":[\"wanfw_svc_" ++ id ++ js "\"]\x7d"

/-- The texts that are hashed in the runs below, with their digests. -/
def pairDigests : List (JsString × JsString) :=
  [(js "network:wanfw_svc_blog", js "24b45809db70d6fd9d726b19bfe76135d53a20f0baabd31fd8a3d6a7741d6373"),
    (busyboxText (js "blog"), js "a5dd02df10adb92fb0934e07f2b1b4b2b0011a581f755103d8422546989edcc1"),
    (js "network:wanfw_svc_wiki", js "7f8a04bc0babd076c3589629c4c310dc4e45bbb99c9dd435dc75cad15e630f43"),
    (busyboxText (js "wiki"), js "2624926588cf04eda9220d0514b43442d8c11e770d3ea4a079b83b9b234cc737"),
    (js "network:wanfw_svc_9", js "2fa9175bce6ca9ab0257dfdba7ffa62c1f1f105adf1680979d36f0e9b92a6a9e"),
    (busyboxText (js "9"), js "6e0803cb67984d7c23bb0f1ae6f938199c277c61130118a1992b56042b3714aa"),
    (js "network:wanfw_svc_10", js "d572554e3e277a5d53b5c107b312692a268849beeb465e1fc6f2294f55928024"),
    (busyboxText (js "10"), js "cd3f0c5d11c5477afbc62f57d8d53ee8d6f8a698cd2727701785fa222f96d76f"),
    (js "network:wanfw_exposure", js "6b148c91d66b3f806ddb39c8b99097506d405806ba2cc5a50c089107c5a67899"),
    (proxyText [js "wanfw_exposure", js "wanfw_svc_blog", js "wanfw_svc_wiki"] (js "443,80"),
      js "79de59b82d35ca290f762d665b1463a749a4ee8909b67e9fab96289c71619568"),
    (proxyText [js "wanfw_exposure", js "wanfw_svc_wiki", js "wanfw_svc_blog"] (js "443,80"),
      js "c067272cee66a4682b0e4a2ec54ba2122ff54b563896a1d5eda1d1446e098c96"),
    (proxyText [js "wanfw_exposure", js "wanfw_svc_9", js "wanfw_svc_10"] (js "443,80"),
      js "bd8087312dac3385596920b1669e93d93384cbe8d6f778b2484afe6f251e11fb")]

/-- A run over these documents. -/
def pairRun (first second : JsString) (h : first ≠ second) : Env :=
  { Env.idle with
    sha256 := shaOf pairDigests
    localeCompare := compareOrder
    load := .ok (pairDocuments first second h)
    networkPlan := fun _ _ => .ok (some bridgePlan)
    deployPlan := fun _ _ _ => .ok { image := js "busybox" }
    validateStore := ⟨[⟨js "deploy-docker", js "docker.image.pull", some anyImage.scope, false⟩], []⟩ }

/-- The name of the container that the call removes. -/
def Attempt.removedName (a : Attempt) : Option JsString :=
  match a.call with
  | .removeContainer id => (a.before.containers.find? fun c => c.id == id).map (·.name)
  | _ => none

theorem Attempt.removesProxy_of_removedName {a : Attempt} (h : a.removedName = some proxyContainerName) :
    a.RemovesProxy := by
  unfold removedName at h
  split at h
  · rename_i id hcall
    obtain ⟨c, hc, hname⟩ := Option.map_eq_some_iff.mp h
    have hid := List.find?_some hc
    exact ⟨id, hcall, c, List.mem_of_find?_eq_some hc, beq_iff_eq.mp hid, hname⟩
  · cases h

section Pair

variable {first second : JsString} (h : first ≠ second)

theorem planned_pair : ∃ g, planOf (pairRun first second h) (pairDocuments first second h)
    (providerFramework (js "network-bridge")) = .ok (.ok g) := by
  refine ⟨_, planOf_iff.mpr ⟨some bridgePlan, rfl, fun s hs => ?_, rfl⟩⟩
  obtain ⟨id, -, rfl⟩ := List.mem_map.mp hs
  rfl

theorem sameAnswers_pair : SameAnswers (pairRun first second h) (pairRun second first h.symm) :=
  ⟨rfl, rfl, rfl, rfl, rfl, rfl, rfl⟩

theorem sameDocuments_pair : SameDocuments (pairDocuments first second h) (pairDocuments second first h.symm) :=
  ⟨rfl, (List.Perm.swap _ _ []).symm⟩

theorem collates_compareOrder (ids : List JsString) : Collates compareOrder ids where
  total a b := by simpa only [compareOrder_le] using le_total a b
  trans a b c := by simpa only [compareOrder_le] using le_trans
  ties a _ b _ := by simpa only [compareOrder_le] using le_antisymm

theorem injOn_pair (s : Set (List UInt8)) : Set.InjOn (pairRun first second h).sha256 s :=
  (shaOf_injective (by decide +kernel) (by decide +kernel)).injOn

end Pair

theorem nine_ne_ten : js "9" ≠ js "10" := by decide

/-- Ids that are array indices may come in any order. -/
theorem unmoved_numbered : ∃ g, planOf (pairRun (js "9") (js "10") nine_ne_ten)
      (pairDocuments (js "9") (js "10") nine_ne_ten) (providerFramework (js "network-bridge")) = .ok (.ok g) ∧
    Unmoved (pairRun (js "9") (js "10") nine_ne_ten) (pairRun (js "10") (js "9") nine_ne_ten.symm)
      (providerFramework (js "network-bridge")) (pairDocuments (js "9") (js "10") nine_ne_ten)
      (pairDocuments (js "10") (js "9") nine_ne_ten.symm) g := by
  obtain ⟨g, hg⟩ := planned_pair nine_ne_ten
  refine ⟨g, hg, (unmoved_iff rfl rfl hg (sameAnswers_pair nine_ne_ten) (sameDocuments_pair nine_ne_ten)
    (collates_compareOrder _) (injOn_pair nine_ne_ten _)).mpr (.inr ?_)⟩
  have hnamed : named (assignable [js "10", js "9"]) = named (assignable [js "9", js "10"]) := by decide +kernel
  exact hnamed

theorem blog_ne_wiki : js "blog" ≠ js "wiki" := by decide

/-- The host after a run that has read `blog` first. -/
def blogFirst : World := (runOnce (pairRun (js "blog") (js "wiki") blog_ne_wiki) World.empty).2

theorem successful_blogFirst : SuccessfulRun (pairRun (js "blog") (js "wiki") blog_ne_wiki)
    (pairDocuments (js "blog") (js "wiki") blog_ne_wiki) World.empty blogFirst where
  loaded := rfl
  framework := rfl
  ended := by
    have hphase : ((runOnce (pairRun (js "blog") (js "wiki") blog_ne_wiki) World.empty).1.toOption.map fun o =>
        decide (o.phase = .error)) = some false := by decide +kernel
    unfold blogFirst
    revert hphase
    rcases runOnce (pairRun (js "blog") (js "wiki") blog_ne_wiki) World.empty with ⟨r, w⟩
    cases r with
    | error e => exact fun h => by cases h
    | ok o => exact fun h => ⟨o, rfl, by simpa [Except.toOption] using h⟩

/-- The next run reads `wiki` first, and removes the proxy container. -/
theorem moved_wikiFirst :
    (((runOnce (pairRun (js "wiki") (js "blog") blog_ne_wiki.symm) blogFirst).2.log.drop blogFirst.log.length).filterMap
      Attempt.removedName) = [js "wanfw-proxy"] ∧
    ¬ ∀ env env' ds ds' framework g, env'.load = .ok ds' → ds.framework = some framework →
      planOf env ds framework = .ok (.ok g) → SameAnswers env env' → SameDocuments ds ds' →
      Collates env.localeCompare (ds.services.map (·.id)) → Set.InjOn env.sha256 (proxyTexts env framework ds ds') →
      Unmoved env env' framework ds ds' g := by
  have hremoved : (((runOnce (pairRun (js "wiki") (js "blog") blog_ne_wiki.symm) blogFirst).2.log.drop
      blogFirst.log.length).filterMap Attempt.removedName) = [js "wanfw-proxy"] := by decide +kernel
  refine ⟨hremoved, fun hall => ?_⟩
  obtain ⟨g, hg⟩ := planned_pair blog_ne_wiki
  have hunmoved := hall (pairRun (js "blog") (js "wiki") blog_ne_wiki) (pairRun (js "wiki") (js "blog") blog_ne_wiki.symm)
    _ _ _ g rfl rfl hg (sameAnswers_pair blog_ne_wiki) (sameDocuments_pair blog_ne_wiki) (collates_compareOrder _)
    (injOn_pair blog_ne_wiki _)
  obtain ⟨new, hlog, -⟩ := log_runOnce (pairRun (js "wiki") (js "blog") blog_ne_wiki.symm) blogFirst
  rw [hlog, List.drop_left] at hremoved
  have hmem : js "wanfw-proxy" ∈ new.filterMap Attempt.removedName := by
    rw [hremoved]
    exact List.mem_singleton_self _
  obtain ⟨a, ha, hname⟩ := List.mem_filterMap.mp hmem
  have hspares : SparesProxy (pairRun (js "wiki") (js "blog") blog_ne_wiki.symm) blogFirst :=
    hunmoved.steady World.empty blogFirst blogFirst List.nodup_nil successful_blogFirst rfl
  exact hspares new hlog a ha (Attempt.removesProxy_of_removedName hname)

end Wanfw.Orchestrator
