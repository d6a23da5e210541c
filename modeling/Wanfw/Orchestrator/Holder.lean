import Wanfw.Orchestrator.Run

/-!
# The snapshot over a run

The holder of the gated plans outlives the runs: the sockets read it, and an approval selects its plan
from it. GATE alone writes it. `holds_runOnce`: a run leaves the snapshot it found, or that of its own
plans, with the hash, the text and the banners of each; whatever fails.
-/

namespace Wanfw.Orchestrator

open Wanfw.Js Wanfw.Schemas

/-! ### Stages that leave it alone -/

section Holder

variable {α : Type} {env : Env} {ds : DesiredState} {H : Obj GatedService → Prop}

/-- The action keeps a property of the snapshot in the holder. -/
abbrev KeepsHolder (H : Obj GatedService → Prop) (m : M α) : Prop :=
  Act.Keeps (fun w => H w.gateHolder) m

theorem holder_issue {stage : Stage} {c : Call} {f : Docker → Except JsError (α × Docker)} :
    KeepsHolder H (issue env stage c f) := by
  intro w hw
  unfold issue
  simp only
  cases env.fault w.calls with
  | none => cases f w.docker <;> exact hw
  | some fault =>
    cases fault with
    | lost message => exact hw
    | late message => cases f w.docker <;> exact hw

theorem holder_query {f : Docker → α} : KeepsHolder H (query env f) := by
  intro w hw
  unfold query
  simp only
  cases env.fault w.calls with
  | none => exact hw
  | some fault => cases fault <;> exact hw

theorem holder_journal {planId step : JsString} {payload result : Json} :
    KeepsHolder H (journal planId step payload result) := Act.Keeps.modify fun _ h => h

theorem holder_failStep {step plugin : JsString} {payload : Json} {e : JsError} :
    KeepsHolder H (failStep env step plugin payload e) := holder_journal.bind fun _ => .pure _

theorem holder_ensureNetwork {name planId : JsString} {owner : Owner}
    {options : Option NetworkDriverOptions} :
    KeepsHolder H (ensureNetwork env name planId owner options) := by
  refine holder_query.bind fun existing => ?_
  cases existing with
  | some n => exact .pure _
  | none => exact holder_issue.bind fun _ => .pure _

theorem holder_ensureVolume {name planId serviceId : JsString} {remove : Bool} :
    KeepsHolder H (ensureVolume env name planId serviceId remove) := by
  refine holder_query.bind fun existing => ?_
  cases existing with
  | some v => exact .pure _
  | none => exact holder_issue.bind fun _ => .pure _

theorem holder_ensureContainer {name planId : JsString} {spec : ContainerSpec} {owner : Owner} :
    KeepsHolder H (ensureContainer env name spec planId owner) := by
  have hcreate : ∀ options, KeepsHolder H (createAndStart env options) :=
    fun _ => holder_issue.bind fun _ => holder_issue
  refine holder_query.bind fun existing => ?_
  cases existing with
  | none => exact (hcreate _).bind fun _ => .pure _
  | some c =>
    dsimp only
    split
    · split
      · exact .pure _
      · exact holder_issue.bind fun _ => .pure _
    · exact holder_issue.bind fun _ => (hcreate _).bind fun _ => .pure _

theorem holder_connect {name network : JsString} : KeepsHolder H (connect env name network) := by
  refine holder_query.bind fun existing => ?_
  cases existing with
  | none => exact .pure _
  | some c =>
    dsimp only
    split
    · exact .pure _
    · exact holder_issue.bind fun _ => .pure _

theorem holder_executeService {serviceId : JsString} {spec : ContainerSpec} :
    KeepsHolder H (executeService env ds serviceId spec) := by
  refine holder_ensureNetwork.bind fun net => holder_journal.bind fun _ => ?_
  refine (Act.Keeps.forEach fun v _ => holder_ensureVolume.bind fun r => holder_journal).bind fun _ => ?_
  refine holder_ensureContainer.bind fun r => holder_journal.bind fun _ => ?_
  exact Act.Keeps.forEach fun n _ => holder_connect.bind fun r => holder_journal

theorem holder_executeProxy {plan : NetworkPlan} {network : JsString} {serviceIds : List JsString} :
    KeepsHolder H (executeProxy env plan network serviceIds) := by
  refine holder_ensureNetwork.bind fun net => holder_journal.bind fun _ => ?_
  refine holder_ensureContainer.bind fun r => holder_journal.bind fun _ => ?_
  exact Act.Keeps.forEach fun n _ => holder_connect.bind fun r => holder_journal

theorem holder_executeProxyRender (graph : PlanGraph) :
    KeepsHolder H (executeProxyRender env graph) := by
  unfold executeProxyRender
  split
  · exact .pure _
  · split
    · refine Act.Keeps.tryCatch (Act.Keeps.bind ?_ fun output => holder_journal.bind fun _ =>
        .pure _) fun e => holder_failStep
      unfold writeProxyConfigAndReload
      split
      · exact .throw _
      · refine Act.Keeps.bind (Act.Keeps.modify fun _ h => h) fun _ => ?_
        refine Act.Keeps.bind (Act.Keeps.get.bind fun w => holder_issue) fun r => ?_
        obtain ⟨exitCode, output⟩ := r
        dsimp only
        split
        · exact .throw _
        · exact .pure _
    · exact .pure _

theorem holder_executeGraph {graph : PlanGraph} {gate : Option (Obj GatedService)} :
    KeepsHolder H (executeGraph env ds graph gate) := by
  refine (Act.Keeps.forReturn fun e _ => ?_).bind fun r => ?_
  · unfold executeEntry
    split
    · exact holder_journal.bind fun _ => .pure _
    · exact Act.Keeps.tryCatch (holder_executeService.bind fun _ => .pure _) fun e => holder_failStep
  · cases r with
    | some e => exact .pure _
    | none =>
      refine Act.Keeps.bind ?_ fun r => ?_
      · unfold executeNetworkPlan
        split
        · exact .pure _
        · split
          · exact .pure _
          · exact Act.Keeps.tryCatch (holder_executeProxy.bind fun _ => .pure _) fun e => holder_failStep
      · cases r with
        | some e => exact .pure _
        | none => exact holder_executeProxyRender _

theorem holder_executeStage : KeepsHolder H (executeStage env) := by
  refine Act.Keeps.get.bind fun w => ?_
  split
  · split
    · exact .pure _
    · refine holder_executeGraph.bind fun r => ?_
      cases r with
      | some e => exact .pure _
      | none => exact Act.Keeps.bind (Act.Keeps.modify fun _ h => h) fun _ => .pure _
  · exact .pure _

theorem holder_observeStage : KeepsHolder H (observeStage env) := by
  refine Act.Keeps.get.bind fun w => ?_
  split
  · exact .pure _
  split
  · exact .pure _
  refine Act.Keeps.bind ?_ fun _ => .pure _
  refine (holder_query.bind fun _ => Act.Keeps.forEach fun c _ => holder_issue.bind fun _ =>
    holder_journal).bind fun _ => ?_
  refine (holder_query.bind fun _ => Act.Keeps.forEach fun c _ => holder_issue.bind fun _ =>
    holder_journal).bind fun _ => ?_
  refine (holder_query.bind fun _ => Act.Keeps.forEach fun v _ => ?_).bind fun _ =>
    holder_query.bind fun _ => ?_
  · split
    · exact holder_issue.bind fun _ => holder_journal
    · exact holder_journal
  refine (Act.Keeps.forEach fun service _ => ?_).bind fun _ => Act.Keeps.modify fun _ h => h
  unfold writeStatus
  split
  · exact .throw _
  · exact Act.Keeps.modify fun _ h => h

theorem holder_loadStage : KeepsHolder H (loadStage env) := by
  have hreport : ∀ errors, KeepsHolder H (loadReport errors) := by
    intro errors
    unfold loadReport
    split <;> exact .pure _
  refine Act.Keeps.tryCatch ?_ fun e => .pure _
  refine Act.Keeps.bind (Act.Triple.ofExcept (fun _ _ _ h => h) fun _ _ _ h => h) fun ds => ?_
  refine Act.Keeps.bind (Act.Keeps.modify fun _ h => h) fun _ =>
    Act.Keeps.bind (Act.Keeps.modify fun _ h => h) fun _ => ?_
  dsimp only
  split
  · split
    · exact Act.Keeps.bind (Act.Keeps.modify fun _ h => h) fun _ => hreport _
    · exact hreport _
  · exact hreport _

theorem holder_ofExcept (x : Except JsError α) : KeepsHolder H (Act.ofExcept x : M α) :=
  Act.Triple.ofExcept (fun _ _ _ h => h) fun _ _ _ h => h

theorem holder_setCtx (f : Ctx → Ctx) : KeepsHolder H (setCtx f) := Act.Keeps.modify fun _ h => h

theorem holder_resolveStage : KeepsHolder H (resolveStage env) := by
  refine Act.Keeps.get.bind fun w => ?_
  split
  · exact .pure _
  · refine (holder_ofExcept _).bind fun r => ?_
    split <;> exact .pure _

theorem holder_planStage : KeepsHolder H (planStage env) := by
  refine Act.Keeps.get.bind fun w => ?_
  split
  · exact .pure _
  · split
    · exact .pure _
    · refine (holder_ofExcept _).bind fun r => ?_
      split
      · exact .pure _
      · exact (holder_setCtx _).bind fun _ => .pure _

theorem holder_renewalStage : KeepsHolder H (renewalStage env) := by
  have hattempt : ∀ certIssuer due after, KeepsHolder H (renewalAttempt certIssuer due after) := by
    intro certIssuer due after
    unfold renewalAttempt
    split
    · exact .pure _
    · split
      · exact Act.Keeps.bind (Act.Keeps.modify fun _ h => h) fun _ => .pure _
      · exact .pure _
  refine Act.Keeps.get.bind fun w => ?_
  split
  · exact .pure _
  · dsimp only
    split
    · exact (holder_setCtx _).bind fun _ => hattempt _ _ _
    · exact hattempt _ _ _

theorem holder_validateStage : KeepsHolder H (validateStage env) := by
  refine Act.Keeps.get.bind fun w => ?_
  split
  · refine (holder_ofExcept _).bind fun r => ?_
    split
    · exact .pure _
    · exact (holder_setCtx _).bind fun _ => .pure _
  · exact .pure _

end Holder

/-! ### Entries of the snapshot -/

/-- A GATE stage has put up this entry for a plan of its run. -/
structure PutUp (env : Env) (plan : ContainerSpec) (g : GatedService) : Prop where
  planned : ∃ ds, env.load = .ok ds ∧ PlannedBy env ds g.serviceId plan
  projectionHash :
    g.projectionHash = computePowerfulProjectionHash env.sha256 (projectionInputOf g.serviceId plan)
  humanRendering : g.humanRendering = humanRender plan
  banners : g.banners = catastrophicBanners plan ++
    if g.serviceId = js "tier1" then [selfExposureBanner] else []

/-- The snapshot of a run. -/
structure SnapshotOf (env : Env) (services : Obj GatedService) : Prop where
  putUp : ∀ g, g ∈ services.map (·.2) → ∃ plan, PutUp env plan g

section Snapshot

variable {env : Env} {ds : DesiredState} {framework : Framework} {graph : PlanGraph}
  {validation : Obj Classification}

theorem snapshotOf_prepared (h : Prepared env ds framework graph validation) :
    SnapshotOf env (gateServices env framework validation graph) := by
  refine ⟨fun g hg => ?_⟩
  obtain ⟨⟨k, _⟩, hkg, rfl⟩ := List.mem_map.mp hg
  obtain ⟨⟨serviceId, plan⟩, hmem, hentry⟩ := List.mem_filterMap.mp hkg
  obtain ⟨g, hentry, heq⟩ := Option.map_eq_some_iff.mp hentry
  obtain ⟨-, rfl⟩ := Prod.mk.inj heq
  obtain ⟨result, hpassed, hget⟩ :=
    (validatePlans_ok graph.plans_nodup graph.plans_plain h.validated).1 serviceId plan hmem
  simp only [gateEntry, hget] at hentry
  split at hentry
  · cases hentry
    exact ⟨plan, ⟨ds, h.loaded, (planOf_ok h.planned).2 _ plan hmem⟩, gateProjectionHash_eq hpassed, rfl, rfl⟩
  · cases hentry

/-- What the holder has during a run: the snapshot that was there, or that of the run. -/
def Holds (env : Env) (old services : Obj GatedService) : Prop :=
  services = old ∨ SnapshotOf env services

variable {old : Obj GatedService} {log : List Attempt}

/-- A stage before GATE. -/
theorem holds_early {P Q : Ctx → Prop} {stage : Stage} {rest : List Stage}
    (hleaves : Leaves log P (runStage env stage) Q)
    (hkeeps : KeepsHolder (· = old) (runStage env stage))
    (hrest : Act.Triple (fun w => Quiet log Q w ∧ w.gateHolder = old) (runStages env rest)
      (fun _ w => Holds env old w.gateHolder) fun _ w => Holds env old w.gateHolder) :
    Act.Triple (fun w => Quiet log P w ∧ w.gateHolder = old) (runStages env (stage :: rest))
      (fun _ w => Holds env old w.gateHolder) fun _ w => Holds env old w.gateHolder :=
  runStages_cons ((Act.Triple.and hleaves hkeeps).conseq (fun _ h => h)
    (fun _ _ h => ⟨.inl h.2, fun hr => ⟨⟨h.1.1, h.1.2 hr⟩, h.2⟩⟩) fun _ _ h => .inl h.2) hrest

theorem holds_gate :
    Act.Triple (fun w => Quiet log (Validated env) w ∧ w.gateHolder = old) (gateStage env)
      (fun _ w => Holds env old w.gateHolder) fun _ w => Holds env old w.gateHolder := by
  refine Act.Triple.getBind fun w hw => ?_
  obtain ⟨⟨-, ds, hds, hval⟩, hold⟩ := hw
  rw [hds]
  split
  · rename_i framework graph validation hfw hgraph hvalidation
    refine Act.Triple.bind (Q := fun _ w => Holds env old w.gateHolder)
      (Act.Triple.modify fun w' _ => .inr ?_) fun _ => Act.Triple.pure fun _ h => h
    obtain ⟨graph', validation', hgraph', hvalidation', hprep⟩ := hval framework hfw
    rw [hgraph, Option.some.injEq] at hgraph'
    rw [hvalidation, Option.some.injEq] at hvalidation'
    subst hgraph' hvalidation'
    exact snapshotOf_prepared hprep
  · exact Act.Triple.pure fun w' h => .inl (h ▸ hold)

/-- **A run puts up its own plans, or leaves the snapshot as it is**, however it ends. -/
theorem holds_runOnce (env : Env) (w : World) :
    Holds env w.gateHolder (runOnce env w).2.gateHolder := by
  have hlate : ∀ stage ∈ [Stage.execute, .observe],
      KeepsHolder (Holds env w.gateHolder) (runStage env stage) := by
    intro stage hstage
    simp only [List.mem_cons, List.not_mem_nil, or_false] at hstage
    rcases hstage with rfl | rfl
    · exact holder_executeStage
    · exact holder_observeStage
  have h : Act.Triple (fun w' => w'.log = w.log ∧ w'.gateHolder = w.gateHolder) (runOnce env)
      (fun _ w' => Holds env w.gateHolder w'.gateHolder)
      fun _ w' => Holds env w.gateHolder w'.gateHolder := by
    refine Act.Triple.bind (Q := fun _ w' => Quiet w.log (fun _ => True) w' ∧ w'.gateHolder = w.gateHolder)
      (Act.Triple.modify fun _ h => ⟨⟨h.1, trivial⟩, h.2⟩) fun _ => ?_
    refine Act.Triple.bind (Q := fun _ w' => Holds env w.gateHolder w'.gateHolder) ?_ fun lastError =>
      Act.Triple.getBind fun w' hw' => by split <;> exact Act.Triple.pure fun _ h => h ▸ hw'
    refine holds_early leaves_load holder_loadStage ?_
    refine holds_early leaves_resolve holder_resolveStage ?_
    refine holds_early leaves_plan holder_planStage ?_
    refine holds_early leaves_renewal holder_renewalStage ?_
    refine holds_early leaves_validate holder_validateStage ?_
    refine runStages_cons (Q := fun w' => Holds env w.gateHolder w'.gateHolder)
      (holds_gate.conseq (fun _ h => h) (fun _ _ h => ⟨h, fun _ => h⟩) fun _ _ h => h) ?_
    refine runStages_cons (Q := fun w' => Holds env w.gateHolder w'.gateHolder)
      ((hlate .execute (by simp)).conseq (fun _ h => h) (fun _ _ h => ⟨h, fun _ => h⟩) fun _ _ h => h) ?_
    refine runStages_cons (Q := fun w' => Holds env w.gateHolder w'.gateHolder)
      ((hlate .observe (by simp)).conseq (fun _ h => h) (fun _ _ h => ⟨h, fun _ => h⟩) fun _ _ h => h) ?_
    exact Act.Triple.pure fun _ h => h
  exact h.final ⟨rfl, rfl⟩ (fun _ _ h => h) fun _ _ h => h

end Snapshot

end Wanfw.Orchestrator
