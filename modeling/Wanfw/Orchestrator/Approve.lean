import Wanfw.Orchestrator.AuditLog
import Wanfw.Orchestrator.Gate
import Wanfw.Orchestrator.StateStore

/-!
# Approving a plan

`wanfwctl plan approve --service <id>` (`cli.ts`) makes two requests on the admin socket
(`admin-socket.ts`): `GET /plans/:id`, whose banners it prints, and `POST /plans/approve`
with the service id. Each reads the snapshot of the last GATE stage, and a reconcile run
can replace the snapshot in between. A `GET` that fails is passed over.

`approval_binds_iff` says for every interleaving when the approval is for the plan that
was shown.
-/

namespace Wanfw.Orchestrator

open Wanfw.Js

/-! ### The requests -/

/-- `GET /plans/:id`, `none` for a 404. -/
def getPlan (services : Obj GatedService) (id : JsString) : Option GatedService := Obj.get services id

section Approve

variable {κ : Type} (S : SignatureScheme κ)

/-- The plan that a body of `POST /plans/approve` selects. -/
def selectPlan (services : Obj GatedService) (serviceId projectionHash : Option JsString) : Option GatedService :=
  match truthy projectionHash with
  | some hash => (services.map (·.2)).find? fun s => s.projectionHash == hash
  | none => (truthy serviceId).bind (Obj.get services)

/-- The row that an approval of a plan inserts. -/
def approvalRow (key : κ) (now : JsString) (plan : GatedService) : StateStore.ApprovalRow where
  projectionHash := plan.projectionHash
  serviceId := plan.serviceId
  humanRendering := plan.humanRendering
  sig := S.sign key (canonicalApprovalPayload plan.projectionHash plan.serviceId plan.humanRendering)
  approvedAt := now
  revokedAt := none

/-- The audit entry of an approval. -/
def approvalEntry (plan : GatedService) : AuditEntryInput :=
  .texts (js "plan.approve") [(js "serviceId", plan.serviceId), (js "projectionHash", plan.projectionHash)]
    (by simp only [List.map_cons, List.map_nil]; decide) (by simp only [List.map_cons, List.map_nil]; decide)

/-- `POST /plans/approve`: the row and the audit entry, `none` for a 404. -/
def approvePlan (key : κ) (now : JsString) (services : Obj GatedService) (serviceId projectionHash : Option JsString) :
    Option (StateStore.ApprovalRow × AuditEntryInput) :=
  (selectPlan services serviceId projectionHash).map fun plan => (approvalRow S key now plan, approvalEntry plan)

/-- The audit entry of a revocation. -/
def revokeEntry (projectionHash : JsString) : AuditEntryInput :=
  .texts (js "plan.revoke") [(js "projectionHash", projectionHash)]
    (by simp only [List.map_cons, List.map_nil]; decide) (by simp only [List.map_cons, List.map_nil]; decide)

/-- `POST /plans/revoke`: the hash whose row is revoked and the audit entry, `none` for a 400. -/
def revokePlan (projectionHash : Option JsString) : Option (JsString × AuditEntryInput) :=
  (truthy projectionHash).map fun hash => (hash, revokeEntry hash)

/-! ### The command -/

/-- The GATE stage of a reconcile run, with what the earlier stages of that run have left. -/
structure GateRun where
  env : Env
  ctx : Ctx

/-- The world after a GATE stage. -/
def GateRun.apply (w : World) (run : GateRun) : World := (gateStage run.env { w with ctx := run.ctx }).2

/-- What one execution of the command comes to. -/
structure ApproveResult where
  /-- The plan whose banners were printed. -/
  printed : Option GatedService
  written : Option StateStore.ApprovalRow

/-- `plan approve --service <id>`. GATE stages come before the first request and between the two; `answered` says
whether the answer of the first one arrives. -/
def planApprove (key : κ) (now service : JsString) (w : World) (before : List GateRun) (answered : Bool)
    (between : List GateRun) : ApproveResult :=
  let w₁ := before.foldl GateRun.apply w
  let w₂ := between.foldl GateRun.apply w₁
  { printed := if answered then getPlan w₁.gateHolder service else none
    written := (approvePlan S key now w₂.gateHolder (some service) none).map (·.1) }

end Approve

/-! ### Snapshots -/

/-- What a GATE stage replaces the snapshot with, if it does. -/
def GateRun.snapshot (run : GateRun) : Option (Obj GatedService) :=
  match run.ctx.desiredState.bind (·.framework), run.ctx.planGraph, run.ctx.validation with
  | some framework, some graph, some validation => some (gateServices run.env framework validation graph)
  | _, _, _ => none

/-- The last snapshot that is put in place of the present one. -/
def lastSnapshot (runs : List GateRun) : Option (Obj GatedService) := (runs.filterMap GateRun.snapshot).getLast?

theorem gateHolder_apply (w : World) (run : GateRun) : (run.apply w).gateHolder = run.snapshot.getD w.gateHolder := by
  unfold GateRun.apply GateRun.snapshot gateStage
  rw [Act.bind_apply]
  simp only [Act.get]
  rcases run.ctx.desiredState.bind (·.framework) with _ | framework
  · rfl
  · rcases run.ctx.planGraph with _ | graph
    · rfl
    · rcases run.ctx.validation with _ | validation
      · rfl
      · rfl

theorem gateHolder_foldl (w : World) (runs : List GateRun) :
    (runs.foldl GateRun.apply w).gateHolder = (lastSnapshot runs).getD w.gateHolder := by
  unfold lastSnapshot
  induction runs using List.reverseRecOn with
  | nil => rfl
  | append_singleton runs run ih =>
    rw [List.foldl_concat, gateHolder_apply, ih, List.filterMap_append]
    cases h : run.snapshot with
    | none => simp [h]
    | some services => simp [h]

/-! ### When the approval is for what was shown -/

section Binds

variable {κ : Type} (S : SignatureScheme κ)

/-- The approval that is written, if there is one, is for the projection hash of the plan whose banners were
printed. -/
def ApproveResult.Binds (r : ApproveResult) : Prop :=
  ∀ row, r.written = some row → ∃ plan, r.printed = some plan ∧ row.projectionHash = plan.projectionHash

/-- A snapshot gates the service with the hash of the plan that was shown, or not at all. -/
def KeepsPlan (services : Obj GatedService) (service : JsString) (shown : Option GatedService) : Prop :=
  ∀ plan, Obj.get services service = some plan → ∃ s, shown = some s ∧ s.projectionHash = plan.projectionHash

/-- **An approval binds to what was shown exactly when no reconcile run changes the plan between the requests.**
For every snapshot and all GATE stages before and between the two requests: if the last snapshot put in place
between them (the present one, if there is none) gates the service, the first request was answered with a plan
of the same projection hash. -/
theorem approval_binds_iff (key : κ) (now service : JsString) (hservice : service ≠ []) (w : World)
    (before : List GateRun) (answered : Bool) (between : List GateRun) :
    (planApprove S key now service w before answered between).Binds ↔
      let shown := (lastSnapshot before).getD w.gateHolder
      KeepsPlan ((lastSnapshot between).getD shown) service (if answered then Obj.get shown service else none) := by
  have htruthy : truthy (some service) = some service := by
    unfold truthy
    rw [Option.filter_some, if_pos (by simpa using hservice)]
  have hwritten : ∀ services : Obj GatedService,
      (approvePlan S key now services (some service) none).map (·.1) =
        (Obj.get services service).map (approvalRow S key now) := by
    intro services
    rw [approvePlan, selectPlan, htruthy, Option.map_map]
    rfl
  unfold ApproveResult.Binds KeepsPlan planApprove getPlan
  simp only [hwritten, gateHolder_foldl]
  constructor
  · intro h plan hplan
    obtain ⟨s, hs, heq⟩ := h (approvalRow S key now plan) (by rw [hplan]; rfl)
    exact ⟨s, hs, heq.symm⟩
  · intro h row hrow
    obtain ⟨plan, hplan, rfl⟩ := Option.map_eq_some_iff.mp hrow
    obtain ⟨s, hs, heq⟩ := h plan hplan
    exact ⟨s, hs, heq.symm⟩

end Binds

/-! A service that becomes privileged between the requests. -/

/-- The plan of the service `web`, with one device. -/
def webPlan (privileged : Bool) : ContainerSpec where
  image := js "nginx:1.27"
  devices := some [js "/dev/dri/renderD128"]
  privileged := some privileged

/-- The SHA-256 of the canonical projection of the plan. -/
def webHash : Bool → JsString
  | false => js "7e0c0b379bfca07e503b5fdccb8880c1981058038fefab1986aa5ff85bdfd00d"
  | true => js "aa064fae18fe48489e0a370aa222e23e934fd9c1119f616cf19e664890672e20"

/-- The GATE stage of a run with this plan, validated. -/
def webRun (privileged : Bool) : GateRun where
  env := Env.idle
  ctx := {
    desiredState := some ⟨some ⟨none, [], none, none⟩, [], [], List.nodup_nil⟩
    planGraph := some ⟨none, [(js "web", webPlan privileged)], [], none, [], by simp [Obj.keys],
      by change js "__proto__" ∉ [js "web"]; decide⟩
    validation := some [(js "web", ⟨.powerful, some (webHash privileged)⟩)] }

/-- With no reconcile run between the requests the approval is for the plan that was shown. -/
theorem approval_binds_web : (planApprove sampleScheme (js "key") [] (js "web") .empty [webRun false] true []).Binds := by
  refine (approval_binds_iff sampleScheme (js "key") [] (js "web") (by decide) .empty [webRun false] true []).mpr ?_
  intro shown plan hplan
  exact ⟨plan, hplan, rfl⟩

/-- The plan without `privileged` is shown, and the one with it is approved. -/
theorem privileged_plan_approved_unseen :
    ¬ (planApprove sampleScheme (js "key") [] (js "web") .empty [webRun false] true [webRun true]).Binds := by
  intro h
  obtain ⟨plan, hprinted, hhash⟩ := h _ rfl
  have hshown : plan.projectionHash = webHash false := by
    have := Option.some.inj (hprinted.symm.trans rfl)
    rw [this]
    rfl
  rw [hshown] at hhash
  revert hhash
  decide

end Wanfw.Orchestrator
