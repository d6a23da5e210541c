import Wanfw.Orchestrator.Execute
import Wanfw.Orchestrator.Gate
import Wanfw.Orchestrator.Observe

/-!
# The reconcile run

`reconciler/engine.ts`, `runOnce`, over the stages in the order in which `main.ts`
wires them. The stages share a context that starts empty; a stage that returns an
error or throws ends the run.

The decision whether EXECUTE may touch a service is spread over three stages that
only meet in this context: what VALIDATE records, what GATE makes of it, and what
EXECUTE reads, where a missing entry means that no approval is needed. `Loaded`,
`Planned`, `Validated` and `Gated` are what the stages leave behind for the next,
`log_runOnce` says where every Docker call of a run comes from, and `cleared_of_run`
puts it together: every container EXECUTE creates or starts for a service was
cleared in that run.
-/

namespace Wanfw.Orchestrator

open Wanfw.Js Wanfw.Schemas

/-! ### Running the stages -/

/-- A stage. -/
def runStage (env : Env) : Stage → M StageResult
  | .load => loadStage env
  | .resolve => resolveStage env
  | .plan => planStage env
  | .renewal => renewalStage env
  | .validate => validateStage env
  | .gate => gateStage env
  | .execute => executeStage env
  | .observe => observeStage env

/-- The stages of `main.ts`. -/
def stages : List Stage := [.load, .resolve, .plan, .renewal, .validate, .gate, .execute, .observe]

/-- The stages in turn, up to the first error. -/
def runStages (env : Env) : List Stage → M StageResult
  | [] => return none
  | stage :: rest => do
    match ← Act.tryCatch (runStage env stage) fun e => return some ⟨stage.name, none, e.message⟩ with
    | some e => return some e
    | none => runStages env rest

/-- `ReconcilePhase`, as a run ends. -/
inductive ReconcilePhase where
  | live
  | degraded
  | error
  deriving DecidableEq

/-- `ReconcileOutcome`. -/
structure ReconcileOutcome where
  phase : ReconcilePhase
  lastError : Option StageError

/-- `runOnce`. -/
def runOnce (env : Env) : M ReconcileOutcome := do
  setCtx fun _ => {}
  let lastError ← runStages env stages
  let w ← Act.get
  match lastError, w.ctx.degraded with
  | some e, _ => return ⟨.error, some e⟩
  | none, some reason => return ⟨.degraded, some reason⟩
  | none, none => return ⟨.live, none⟩

/-! ### What the stages leave behind -/

/-- What a run has settled before EXECUTE: the documents, the plans, the classifications. -/
structure Prepared (env : Env) (ds : DesiredState) (framework : Framework) (graph : PlanGraph)
    (validation : Obj Classification) : Prop where
  loaded : env.load = .ok ds
  bound : ds.framework = some framework
  planned : planOf env ds framework = .ok (.ok graph)
  validated : validatePlans env ds graph.servicePlans [] = .ok (.ok validation)

/-- After LOAD. -/
def Loaded (env : Env) (ctx : Ctx) : Prop := ∃ ds, env.load = .ok ds ∧ ctx.desiredState = some ds

/-- After PLAN: there is a graph, unless there is no framework. -/
def Planned (env : Env) (ctx : Ctx) : Prop :=
  ∃ ds, env.load = .ok ds ∧ ctx.desiredState = some ds ∧ ∀ framework, ds.framework = some framework →
    ∃ graph, ctx.planGraph = some graph ∧ planOf env ds framework = .ok (.ok graph)

/-- After VALIDATE: every plan of the graph was accepted. -/
def Validated (env : Env) (ctx : Ctx) : Prop :=
  ∃ ds, ctx.desiredState = some ds ∧ ∀ framework, ds.framework = some framework →
    ∃ graph validation, ctx.planGraph = some graph ∧ ctx.validation = some validation ∧
      Prepared env ds framework graph validation

/-- After GATE: there is a snapshot of the graph. -/
def Gated (env : Env) (ctx : Ctx) : Prop :=
  ∃ ds, ctx.desiredState = some ds ∧ ∀ framework, ds.framework = some framework →
    ∃ graph validation, ctx.planGraph = some graph ∧
      ctx.gateSnapshot = some (gateServices env framework validation graph) ∧
      Prepared env ds framework graph validation

/-- No Docker call since `log`, and a context with `Q`. -/
def Quiet (log : List Attempt) (Q : Ctx → Prop) (w : World) : Prop := w.log = log ∧ Q w.ctx

/-- What a stage leaves: `Q` if it succeeds, and no Docker call in any case. -/
def Leaves (log : List Attempt) (P : Ctx → Prop) (m : M StageResult) (Q : Ctx → Prop) : Prop :=
  Act.Triple (Quiet log P) m (fun r w => w.log = log ∧ (r = none → Q w.ctx)) (fun _ w => w.log = log)

section Stages

variable {env : Env} {log : List Attempt}

/-- How LOAD ends, once the documents and the range are stored. -/
def loadReport (errors : List JsString) : M StageResult :=
  match errors with
  | [] => return none
  | errors =>
    return some ⟨js "load", none, natToString errors.length ++ js " document(s) failed to load: " ++ join errors (js "; ")⟩

theorem leaves_load {P : Ctx → Prop} : Leaves log P (loadStage env) (Loaded env) := by
  unfold Leaves loadStage
  refine Act.Triple.tryCatch (F := fun _ w => w.log = log) ?_ fun e => Act.Triple.pure fun w h => ⟨h, by simp⟩
  refine Act.Triple.bind (Q := fun ds w => env.load = .ok ds ∧ w.log = log)
    (Act.Triple.ofExcept (fun ds hds w h => ⟨hds, h.1⟩) fun e _ w h => h.1) fun ds => ?_
  refine Act.Triple.bind (Q := fun _ => Quiet log (Loaded env))
    (Act.Triple.modify fun w h => ⟨h.2, ds, h.1, rfl⟩) fun _ => ?_
  refine Act.Triple.bind (Q := fun _ => Quiet log (Loaded env)) (Act.Triple.modify fun w h => h) fun _ => ?_
  have finish : Act.Triple (Quiet log (Loaded env)) (loadReport ds.errors)
      (fun r w => w.log = log ∧ (r = none → Loaded env w.ctx)) (fun _ w => w.log = log) := by
    unfold loadReport
    split
    · exact Act.Triple.pure fun w h => ⟨h.1, fun _ => h.2⟩
    · exact Act.Triple.pure fun w h => ⟨h.1, by simp⟩
  dsimp only
  split
  · split
    · exact Act.Triple.bind (Act.Triple.modify fun w h => h) fun _ => finish
    · exact finish
  · exact finish

/-- A stage that begins by reading the context. -/
theorem leaves_get {P Q : Ctx → Prop} {f : World → M StageResult}
    (h : ∀ w, P w.ctx → Leaves log (fun ctx => ctx = w.ctx) (f w) Q) : Leaves log P (Act.get >>= f) Q := by
  intro w hw
  exact h w hw.2 w ⟨hw.1, rfl⟩

theorem leaves_pure {P Q : Ctx → Prop} {r : StageResult} (h : r = none → ∀ ctx, P ctx → Q ctx) :
    Leaves log P (pure r) Q :=
  Act.Triple.pure fun _ hw => ⟨hw.1, fun hr => h hr _ hw.2⟩

theorem leaves_ofExcept {α : Type} {x : Except JsError α} {P Q : Ctx → Prop} {f : α → M StageResult}
    (h : ∀ a, x = .ok a → Leaves log P (f a) Q) : Leaves log P (Act.ofExcept x >>= f) Q := by
  intro w hw
  cases x with
  | ok a => exact h a rfl w hw
  | error e => exact hw.1

theorem leaves_setCtx {P Q R : Ctx → Prop} {g : Ctx → Ctx} {m : M StageResult} (hg : ∀ ctx, P ctx → R (g ctx))
    (h : Leaves log R m Q) : Leaves log P (setCtx g >>= fun _ => m) Q :=
  Act.Triple.bind (Q := fun _ => Quiet log R) (Act.Triple.modify fun _ hw => ⟨hw.1, hg _ hw.2⟩) fun _ => h

theorem leaves_resolve : Leaves log (Loaded env) (resolveStage env) (Loaded env) := by
  refine leaves_get fun w hw => ?_
  split
  · exact leaves_pure fun _ ctx h => h ▸ hw
  · refine leaves_ofExcept fun r _ => ?_
    split
    · exact leaves_pure fun _ ctx h => h ▸ hw
    · exact leaves_pure (by simp)

theorem leaves_plan : Leaves log (Loaded env) (planStage env) (Planned env) := by
  refine leaves_get fun w hw => ?_
  obtain ⟨ds, hload, hds⟩ := hw
  rw [hds]
  dsimp only
  split
  · rename_i hnone
    exact leaves_pure fun _ ctx h => ⟨ds, hload, h ▸ hds, by simp [hnone]⟩
  · rename_i framework hfw
    refine leaves_ofExcept fun r hr => ?_
    split
    · exact leaves_pure (by simp)
    · rename_i graph
      refine leaves_setCtx (R := Planned env) ?_ (leaves_pure fun _ ctx h => h)
      rintro ctx rfl
      refine ⟨ds, hload, hds, fun fw hfw' => ⟨graph, rfl, ?_⟩⟩
      rw [hfw] at hfw'
      cases hfw'
      exact hr

/-- The end of RENEWAL: an attempt changes the renewal state alone. -/
theorem leaves_attempt (certIssuer : Option JsString) (due : Bool) (after : JsString → RenewalState) :
    Leaves log (Planned env)
      (match certIssuer with
        | none => pure none
        | some id =>
          if due then do
            Act.modify fun w => { w with renewal := after id }
            return none
          else return none)
      (Planned env) := by
  split
  · exact leaves_pure fun _ ctx h => h
  · split
    · exact Act.Triple.bind (Q := fun _ => Quiet log (Planned env)) (Act.Triple.modify fun _ h => h) fun _ =>
        leaves_pure fun _ ctx h => h
    · exact leaves_pure fun _ ctx h => h

theorem leaves_renewal : Leaves log (Planned env) (renewalStage env) (Planned env) := by
  refine leaves_get fun w hw => ?_
  have keep : ∀ ctx, ctx = w.ctx → Planned env ctx := fun ctx h => h ▸ hw
  split
  · exact leaves_pure fun _ => keep
  · dsimp only
    split
    · -- a degraded context has the documents and the graph of the one before
      exact leaves_setCtx (R := Planned env) keep (leaves_attempt _ _ _)
    · exact Act.Triple.conseq (leaves_attempt _ _ _) (fun w' h => ⟨h.1, keep _ h.2⟩) (fun _ _ h => h) fun _ _ h => h

theorem leaves_validate : Leaves log (Planned env) (validateStage env) (Validated env) := by
  refine leaves_get fun w hw => ?_
  obtain ⟨ds, hload, hds, hplan⟩ := hw
  split
  · rename_i ds' graph hds' hgraph
    rw [hds] at hds'
    cases hds'
    refine leaves_ofExcept fun r hr => ?_
    split
    · exact leaves_pure (by simp)
    · rename_i validation
      refine leaves_setCtx (R := Validated env) ?_ (leaves_pure fun _ ctx h => h)
      rintro ctx rfl
      refine ⟨ds, hds, fun framework hfw => ?_⟩
      obtain ⟨graph', hgraph', hplanned⟩ := hplan framework hfw
      rw [hgraph] at hgraph'
      cases hgraph'
      exact ⟨graph, validation, hgraph, rfl, hload, hfw, hplanned, hr⟩
  · rename_i hnot
    refine leaves_pure ?_
    rintro - ctx rfl
    refine ⟨ds, hds, fun framework hfw => ?_⟩
    obtain ⟨graph, hgraph, -⟩ := hplan framework hfw
    exact absurd hgraph (hnot ds graph hds)

theorem leaves_gate : Leaves log (Validated env) (gateStage env) (Gated env) := by
  refine leaves_get fun w hw => ?_
  obtain ⟨ds, hds, hval⟩ := hw
  rw [hds]
  split
  · rename_i framework graph validation hfw hgraph hvalidation
    refine Act.Triple.bind (Q := fun _ => Quiet log (Gated env)) (Act.Triple.modify ?_) fun _ =>
      leaves_pure fun _ ctx h => h
    rintro w' ⟨hlog, hctx⟩
    refine ⟨hlog, ds, by rw [hctx, hds], fun fw hfw' => ?_⟩
    obtain ⟨graph', validation', hgraph', hvalidation', hprep⟩ := hval fw hfw'
    rw [hgraph] at hgraph'
    rw [hvalidation] at hvalidation'
    rw [Option.bind_some, hfw'] at hfw
    cases hgraph'
    cases hvalidation'
    cases hfw
    exact ⟨graph, validation, by rw [hctx, hgraph], rfl, hprep⟩
  · rename_i hnot
    refine leaves_pure ?_
    rintro - ctx rfl
    refine ⟨ds, hds, fun framework hfw => ?_⟩
    obtain ⟨graph, validation, hgraph, hvalidation, -⟩ := hval framework hfw
    exact absurd hvalidation (hnot framework graph validation hfw hgraph)

end Stages

/-! ### Where the Docker calls of a run come from -/

/-- A call of EXECUTE for a graph that went through all the stages before, or a removal by OBSERVE. -/
def ForRun (env : Env) (a : Attempt) : Prop :=
  (∃ ds framework graph validation, Prepared env ds framework graph validation ∧
    ForGraph env graph (some (gateServices env framework validation graph)) a) ∨
  IsCollection a

section Run

variable {env : Env} {log : List Attempt}

/-- The calls since `log` are calls of this run. -/
def Accounted (env : Env) (log : List Attempt) (w : World) : Prop :=
  ∃ new, w.log = log ++ new ∧ ∀ a ∈ new, ForRun env a

theorem accounted_of_quiet {w : World} (h : w.log = log) : Accounted env log w := ⟨[], by simp [h], by simp⟩

theorem accounted_of_issues {α : Type} {m : M α} {P : Attempt → Prop} (hm : Issues P m) (hP : ∀ a, P a → ForRun env a) :
    Act.Triple (Accounted env log) m (fun _ => Accounted env log) (fun _ => Accounted env log) := by
  intro w hw
  have hissued : IssuedSince (ForRun env) log w.ctx w := ⟨hw, rfl⟩
  exact ((hm.mono hP) log w.ctx).conseq (fun _ h => h) (fun _ _ h => h.1) (fun _ _ h => h.1) w hissued

theorem accounted_execute :
    Act.Triple (Quiet log (Gated env)) (executeStage env) (fun _ => Accounted env log) (fun _ => Accounted env log) := by
  refine Act.Triple.getBind fun w hw => ?_
  obtain ⟨hlog, ds, hds, hgated⟩ := hw
  have start : ∀ w', w' = w → Accounted env log w' := fun w' h => accounted_of_quiet (h ▸ hlog)
  rw [hds]
  split
  · rename_i ds' graph hds' hgraph
    cases hds'
    split
    · exact Act.Triple.pure start
    · rename_i framework hfw
      obtain ⟨graph', validation, hgraph', hsnapshot, hprep⟩ := hgated framework hfw
      rw [hgraph] at hgraph'
      cases hgraph'
      rw [hsnapshot]
      refine Act.Triple.bind (Q := fun _ => Accounted env log) ?_ fun r => ?_
      · refine Act.Triple.conseq (accounted_of_issues (issues_executeGraph ds graph _) ?_) start (fun _ _ h => h)
          fun _ _ h => h
        exact fun a ha => .inl ⟨ds, framework, graph, validation, hprep, ha⟩
      · cases r with
        | some e => exact Act.Triple.pure fun _ h => h
        | none =>
          exact Act.Triple.bind (Q := fun _ => Accounted env log) (Act.Triple.modify fun _ h => h) fun _ =>
            Act.Triple.pure fun _ h => h
  · exact Act.Triple.pure start

theorem accounted_observe :
    Act.Triple (Accounted env log) (observeStage env) (fun _ => Accounted env log) (fun _ => Accounted env log) := by
  refine Act.Triple.getBind fun w hw => ?_
  have start : ∀ w', w' = w → Accounted env log w' := fun w' h => h ▸ hw
  split
  · exact Act.Triple.pure start
  · split
    · exact Act.Triple.pure start
    · refine Act.Triple.bind (Q := fun _ => Accounted env log) ?_ fun _ => Act.Triple.pure fun _ h => h
      exact Act.Triple.conseq (accounted_of_issues (issues_observeBody _ w.ctx) fun a ha => .inr ha) start
        (fun _ _ h => h) fun _ _ h => h

/-- One stage of the run, and the rest if it succeeds. -/
theorem runStages_cons {P : World → Prop} {Q : World → Prop} {D : World → Prop} {stage : Stage} {rest : List Stage}
    (hstage : Act.Triple P (runStage env stage) (fun r w => D w ∧ (r = none → Q w)) (fun _ => D))
    (hrest : Act.Triple Q (runStages env rest) (fun _ => D) (fun _ => D)) :
    Act.Triple P (runStages env (stage :: rest)) (fun _ => D) (fun _ => D) := by
  refine Act.Triple.bind (Act.Triple.tryCatch hstage fun e => Act.Triple.pure fun w h => ⟨h, by simp⟩) fun r => ?_
  cases r with
  | some e => exact Act.Triple.pure fun w h => h.1
  | none => exact Act.Triple.conseq hrest (fun w h => h.2 rfl) (fun _ _ h => h) fun _ _ h => h

/-- A stage that makes no Docker call. -/
theorem runStages_quiet {P Q : Ctx → Prop} {stage : Stage} {rest : List Stage} (hstage : Leaves log P (runStage env stage) Q)
    (hrest : Act.Triple (Quiet log Q) (runStages env rest) (fun _ => Accounted env log) (fun _ => Accounted env log)) :
    Act.Triple (Quiet log P) (runStages env (stage :: rest)) (fun _ => Accounted env log) (fun _ => Accounted env log) :=
  runStages_cons (Act.Triple.conseq hstage (fun _ h => h)
    (fun _ _ h => ⟨accounted_of_quiet h.1, fun hr => ⟨h.1, h.2 hr⟩⟩) fun _ _ h => accounted_of_quiet h) hrest

theorem accounted_runStages :
    Act.Triple (Quiet log fun _ => True) (runStages env stages) (fun _ => Accounted env log) (fun _ => Accounted env log) := by
  refine runStages_quiet leaves_load ?_
  refine runStages_quiet leaves_resolve ?_
  refine runStages_quiet leaves_plan ?_
  refine runStages_quiet leaves_renewal ?_
  refine runStages_quiet leaves_validate ?_
  refine runStages_quiet leaves_gate ?_
  refine runStages_cons (Q := Accounted env log)
    (accounted_execute.conseq (fun _ h => h) (fun _ _ h => ⟨h, fun _ => h⟩) fun _ _ h => h) ?_
  refine runStages_cons (Q := Accounted env log)
    (accounted_observe.conseq (fun _ h => h) (fun _ _ h => ⟨h, fun _ => h⟩) fun _ _ h => h) ?_
  exact Act.Triple.pure fun _ h => h

/-- **Every Docker call of a run is accounted for**, from any world. -/
theorem log_runOnce (env : Env) (w : World) : Accounted env w.log (runOnce env w).2 := by
  have h : Act.Triple (fun w' => w'.log = w.log) (runOnce env) (fun _ => Accounted env w.log)
      (fun _ => Accounted env w.log) := by
    refine Act.Triple.bind (Q := fun _ => Quiet w.log fun _ => True) (Act.Triple.modify fun _ h => ⟨h, trivial⟩) fun _ => ?_
    refine Act.Triple.bind accounted_runStages fun lastError => ?_
    refine Act.Triple.getBind fun w' hw' => ?_
    split <;> exact Act.Triple.pure fun w'' h => h ▸ hw'
  exact h.final rfl (fun _ _ h => h) fun _ _ h => h

end Run

/-! ### Approval -/

/-- What a run must have settled before it may bring up the container of a service from a plan:
the plan is the answer of the bound deploy plugin, it passed `validateContainerSpec` against that
plugin's live grants, and it is baseline where that is enough or has a live approval. -/
structure Cleared (env : Env) (serviceId : JsString) (plan : ContainerSpec) : Prop where
  settled : ∃ ds framework pluginId grants result,
    env.load = .ok ds ∧ ds.framework = some framework ∧ PlannedBy env ds serviceId plan ∧
    boundDeployPluginId ds serviceId = some pluginId ∧ loadGrantsForPlugin env.validateStore pluginId = .ok grants ∧
    validateContainerSpec env.sha256 serviceId plan grants = .ok result ∧ result.ok = true ∧
    (Baseline plan ∧ framework.strictApprovals.getD (js "powerful") ≠ js "all" ∧ serviceId ≠ js "tier1" ∨
      env.gateStore.HasApproval (computePowerfulProjectionHash env.sha256 (projectionInputOf serviceId plan)))

/-- A service that EXECUTE does not park was cleared. -/
theorem cleared_of_not_parked {env : Env} {ds : DesiredState} {framework : Framework} {graph : PlanGraph}
    {validation : Obj Classification} (h : Prepared env ds framework graph validation) {serviceId : JsString}
    {plan : ContainerSpec} (hmem : (serviceId, plan) ∈ graph.servicePlans)
    (hpark : isParked (some (gateServices env framework validation graph)) serviceId = false) :
    Cleared env serviceId plan := by
  obtain ⟨result, hpassed, hget⟩ := (validatePlans_ok graph.plans_nodup graph.plans_plain h.validated).1 serviceId plan hmem
  obtain ⟨pluginId, grants, hplugin, hgrants, hresult⟩ := hpassed.accepted
  refine ⟨ds, framework, pluginId, grants, result, h.loaded, h.bound, (planOf_ok h.planned).2 serviceId plan hmem,
    hplugin, hgrants, hresult, hpassed.ok, ?_⟩
  rw [isParked, Option.bind_some, gateServices_get hmem] at hpark
  cases hentry : gateEntry env (framework.strictApprovals.getD (js "powerful")) validation serviceId plan with
  | none => exact .inl (gateEntry_none hpassed hget hentry)
  | some gate =>
    rw [hentry] at hpark
    exact .inr (gateEntry_some hpassed hget hentry (by simpa using hpark))

/-- The call creates or starts a container of this name. -/
def Attempt.BringsUp (a : Attempt) (name : JsString) : Prop :=
  match a.call with
  | .createContainer o => o.name = name
  | .startContainer id => a.Names id name
  | _ => False

/-- The call, if it creates a container, creates the one this plan describes. -/
def Attempt.CreatesFrom (a : Attempt) (env : Env) (serviceId : JsString) (plan : ContainerSpec) : Prop :=
  ∀ o, a.call = .createContainer o →
    o = createOptions env (containerName serviceId) (withPrimaryNetwork serviceId plan) env.planId (.service serviceId)

theorem containerName_inj {serviceId serviceId' : JsString} (h : containerName serviceId = containerName serviceId') :
    serviceId = serviceId' := List.append_cancel_left h

theorem containerName_ne_proxy (serviceId : JsString) : proxyContainerName ≠ containerName serviceId := by
  intro h
  have : proxyContainerName[5]? = (containerName serviceId)[5]? := by rw [h]
  rw [containerName, List.getElem?_append_left (by decide)] at this
  revert this
  decide

/-- An id names one container. -/
theorem Attempt.Names.unique {a : Attempt} {id : ℕ} {name name' : JsString} (h : a.Names id name) (h' : a.Names id name') :
    name = name' := by
  obtain ⟨c, hc, hid, rfl⟩ := h
  obtain ⟨c', hc', hid', rfl⟩ := h'
  rw [Docker.eq_of_id hc hc' (hid.trans hid'.symm)]

theorem ForService.name_of_bringsUp {env : Env} {serviceId : JsString} {spec : ContainerSpec} {a : Attempt}
    (h : ForService env serviceId spec a) {name : JsString} (hup : a.BringsUp name) : containerName serviceId = name := by
  have hcall := h.call
  unfold Attempt.BringsUp at hup
  split at hup
  · rename_i o ho
    rw [ho] at hcall
    rw [← hup, show o = _ from hcall]
    rfl
  · rename_i id hid
    rw [hid] at hcall
    exact Attempt.Names.unique hcall hup
  · exact hup.elim

theorem ForService.createsFrom {env : Env} {serviceId : JsString} {spec : ContainerSpec} {a : Attempt}
    (h : ForService env serviceId spec a) : a.CreatesFrom env serviceId spec := by
  intro o ho
  have hcall := h.call
  rwa [ho] at hcall

theorem ForProxy.name_of_bringsUp {env : Env} {plan : NetworkPlan} {exposureNetwork : JsString}
    {serviceIds : List JsString} {a : Attempt} (h : ForProxy env plan exposureNetwork serviceIds a) {name : JsString}
    (hup : a.BringsUp name) : proxyContainerName = name := by
  have hcall := h.call
  unfold Attempt.BringsUp at hup
  split at hup
  · rename_i o ho
    rw [ho] at hcall
    rw [← hup, show o = _ from hcall]
    rfl
  · rename_i id hid
    rw [hid] at hcall
    exact Attempt.Names.unique hcall hup
  · exact hup.elim

/-- **No container of a service comes up without clearance.** Whatever the documents, the plugins'
answers, the grant and approval tables and the daemon, each call of a run that creates or starts
`wanfw_<id>` is made by EXECUTE for a plan that this run cleared under that id. -/
theorem cleared_of_run (env : Env) (w : World) :
    ∃ new, (runOnce env w).2.log = w.log ++ new ∧
      ∀ a ∈ new, ∀ serviceId, a.BringsUp (containerName serviceId) →
        ∃ plan, a.CreatesFrom env serviceId plan ∧ Cleared env serviceId plan := by
  obtain ⟨new, hnew, hall⟩ := log_runOnce env w
  refine ⟨new, hnew, fun a ha serviceId hup => ?_⟩
  rcases hall a ha with ⟨ds, framework, graph, validation, hprep, hservice | hproxy | hexec⟩ | hcollect
  · obtain ⟨id, plan, hmem, hpark, hfor⟩ := hservice
    have hid : id = serviceId := containerName_inj (hfor.name_of_bringsUp hup)
    subst hid
    exact ⟨plan, hfor.createsFrom, cleared_of_not_parked hprep hmem hpark⟩
  · obtain ⟨plan, exposureNetwork, -, -, hfor⟩ := hproxy
    exact absurd (hfor.name_of_bringsUp hup) (containerName_ne_proxy serviceId)
  · obtain ⟨-, cmd, hcall⟩ := hexec
    simp only [Attempt.BringsUp, hcall] at hup
  · obtain ⟨-, hcall⟩ := hcollect
    unfold Attempt.BringsUp at hup
    split at hup <;> simp_all

end Wanfw.Orchestrator
