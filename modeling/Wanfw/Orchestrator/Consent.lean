import Wanfw.Orchestrator.Holder
import Wanfw.Orchestrator.SignedRows
import Wanfw.Schemas.BundleHash
import Wanfw.Store.History

/-!
# What the operator agreed to

Two things run side by side in the orchestrator. The requests of the admin socket trust and untrust
plugins, approve plans and take approvals back (`admin-socket.ts`); the reconcile runs read the tables
at VALIDATE and at GATE, and put a new snapshot of the gated plans in the holder (`gate-stage.ts`),
from which the next approval selects. An approval is kept across restarts, the snapshot is not.

`brought_up_approved`: in every history, a container that EXECUTE brings up for a service is either
baseline where that is enough, or the operator approved a plan with the same powers, which an earlier
run had put up, and did not take it back since.

A run stands in the history at its GATE: an approval that is taken back while EXECUTE is at work is
taken back after the run. A block of a request happens as a whole, a crash is between two of them.
-/

namespace Wanfw.Orchestrator.Consent

open Wanfw.Js Wanfw.Schemas Wanfw.Store.History StateStore TrustFlow

/-! ### The orchestrator -/

section System

variable {κ : Type} (N : Numerals) (S : SignatureScheme κ)

/-- What the requests share, and what the runs work on. -/
structure System (κ : Type) where
  admin : Admin κ
  world : World

/-- What can happen. -/
inductive Happening (κ : Type) where
  /-- A block of a request of the admin socket. -/
  | request (event : StateStore.Event κ)
  /-- `POST /plans/revoke`. -/
  | revoke (projectionHash : Option JsString) (now : JsString)
  /-- A reconcile run, at the moment of its GATE stage. -/
  | run (env : Env)
  /-- The process ends, and another one starts. -/
  | restart

/-- The tables as VALIDATE and GATE read them. -/
def storeOf (t : Tables) : Store where
  grants := t.grants.rows.map fun g => ⟨g.pluginId, g.cap, parse N g.scopeJson, g.revokedAt.isSome⟩
  approvals := t.approvals.rows.map fun a => ⟨a.projectionHash, a.revokedAt.isSome⟩

/-- An approval selects from the snapshot of the moment. -/
def onSnapshot (services : Obj GatedService) : StateStore.Event κ → StateStore.Event κ
  | .approve _ serviceId projectionHash now => .approve services serviceId projectionHash now
  | event => event

/-- A new process: it has one manager, with the key of the file, and no request. -/
def restarted (s : Admin κ) : Admin κ := ⟨s.tables, fun _ => s.file, 1, 0, s.file, fun _ => none⟩

/-- The run finds the approvals of the moment. -/
def System.gated (s : System κ) (env : Env) : Env := { env with gateStore := storeOf N s.admin.tables }

/-- The orchestrator after something happened. -/
def System.step (s : System κ) : Happening κ → System κ
  | .request event => { s with admin := s.admin.step N S (onSnapshot s.world.gateHolder event) }
  | .revoke projectionHash now =>
    match revokePlan projectionHash with
    | some (hash, _) =>
      { s with admin := { s.admin with tables := s.admin.tables.revokeApproval hash now } }
    | none => s
  | .run env => { s with world := (runOnce (s.gated N env) s.world).2 }
  | .restart => ⟨restarted s.admin, { s.world with gateHolder := [], roles := [] }⟩

/-- The orchestrator after a history. -/
def System.run (s : System κ) (history : List (Happening κ)) : System κ :=
  history.foldl (System.step N S) s

theorem System.run_concat (s : System κ) (history : List (Happening κ)) (x : Happening κ) :
    s.run N S (history ++ [x]) = (s.run N S history).step N S x := List.foldl_concat _ _ _ _

end System

/-! ### What a request does to the live rows -/

section Requests

variable {κ : Type} {N : Numerals} {S : SignatureScheme κ} {s : Admin κ} {t : Tables} {key : κ}
  {P : TrustRecordRow → Prop} {Q : StateStore.GrantRow → Prop} {R : StateStore.ApprovalRow → Prop}

/-- Signing a row again does not take the property away. -/
structure Resigned (P : TrustRecordRow → Prop) (Q : StateStore.GrantRow → Prop)
    (R : StateStore.ApprovalRow → Prop) : Prop where
  records : ∀ r sig, P r → P { r with sig := sig }
  grants : ∀ g sig, Q g → Q { g with sig := sig }
  approvals : ∀ a sig, R a → R { a with sig := sig }

theorem keeps_reSignAll (h : Resigned P Q R) : Act.Keeps (LiveRows P Q R) (reSignAll N S key) := by
  refine Act.Keeps.get.bind fun t => (Act.Keeps.forEach fun record _ => ?_).bind fun _ =>
    Act.Keeps.get.bind fun t => (Act.Keeps.forEach fun grant _ => ?_).bind fun _ =>
    Act.Keeps.get.bind fun t => Act.Keeps.forEach fun approval _ => ?_
  · refine Act.Keeps.bind (Act.Triple.ofExcept (fun _ _ _ h => h) fun _ _ _ h => h)
      fun payload => Act.Keeps.modify fun t ht => ?_
    refine ⟨?_, ht.grants, ht.approvals⟩
    rintro _ ⟨hmem, hlive⟩
    dsimp only [setRecordSig] at hmem
    obtain ⟨r, hr, rfl⟩ := Store.Table.mem_update.mp hmem
    have hold := ht.records r ⟨hr, by split at hlive <;> exact hlive⟩
    split
    · exact h.records r _ hold
    · exact hold
  · refine Act.Keeps.bind (Act.Triple.ofExcept (fun _ _ _ h => h) fun _ _ _ h => h)
      fun payload => Act.Keeps.modify fun t ht => ?_
    refine ⟨ht.records, ?_, ht.approvals⟩
    rintro _ ⟨hmem, hlive⟩
    dsimp only [setGrantSig] at hmem
    obtain ⟨g, hg, rfl⟩ := Store.Table.mem_update.mp hmem
    have hold := ht.grants g ⟨hg, by split at hlive <;> exact hlive⟩
    split
    · exact h.grants g _ hold
    · exact hold
  · refine Act.Keeps.modify fun t ht => ⟨ht.records, ht.grants, ?_⟩
    rintro _ ⟨hmem, hlive⟩
    dsimp only [setApprovalSig] at hmem
    obtain ⟨a, ha, rfl⟩ := Store.Table.mem_update.mp hmem
    have hold := ht.approvals a ⟨ha, by split at hlive <;> exact hlive⟩
    split
    · exact h.approvals a _ hold
    · exact hold

/-- The manifest that the next block of a task records, where the staging area is like this. -/
def recorded (staged : List StagedBundle) : StateStore.Task κ → Option Manifest
  | .trusting _ id sha256 => (findStagedBundle staged id sha256).bind StagedBundle.manifest
  | .trustingBuiltin _ b _ => some b.manifest
  | _ => none

/-- The event is a block of a trust call that records this manifest. -/
def Records (s : Admin κ) (event : StateStore.Event κ) (m : Manifest) : Prop :=
  ∃ request staged now task, event = .resume request staged now ∧ s.tasks request = some task ∧
    recorded staged task = some m

theorem records_resume {request : ℕ} {staged : List StagedBundle} {now : JsString}
    {task : StateStore.Task κ} {m : Manifest}
    (htask : s.tasks request = some task) : Records s (.resume request staged now) m ↔
        recorded staged task = some m := by
  constructor
  · rintro ⟨_, _, _, task', heq, htask', hm⟩
    cases heq
    rw [htask, Option.some.injEq] at htask'
    rwa [htask']
  · exact fun hm => ⟨request, staged, now, task, rfl, htask, hm⟩

/-- What the rows of a manifest satisfy. -/
def RecordedAs (S : SignatureScheme κ) (P : TrustRecordRow → Prop) (Q : StateStore.GrantRow → Prop)
    (m : Manifest) : Prop :=
  ∀ key now sha256, P (signedRecord S key now m sha256) ∧ ∀ c ∈ m.capabilities, ∀ n,
    Q { signedGrant S key now m c with id := n }

theorem liveRows_record (h : LiveRows P Q R s.tables) {m : Manifest} (hm : RecordedAs S P Q m)
    (manager : ℕ) (now sha256 : JsString) :
    LiveRows P Q R (s.record N S manager now m sha256).tables := by
  unfold Admin.record
  rw [recordTrustAndGrants_eq]
  refine h.writeAll (List.forall_mem_cons.mpr ⟨(hm _ _ _).1, fun w hw => ?_⟩)
  obtain ⟨g, hg, rfl⟩ := List.mem_map.mp hw
  obtain ⟨c, hc, rfl⟩ := List.mem_map.mp hg
  exact fun n => (hm _ _ sha256).2 c hc n

theorem tables_begin (s : Admin κ) (request : ℕ) (task : StateStore.Task κ) :
    (s.begin request task).tables = s.tables := by
  unfold Admin.begin
  split <;> rfl

theorem liveRows_resume (h : LiveRows P Q R s.tables) (hsign : Resigned P Q R) {request : ℕ}
    {staged : List StagedBundle} {now : JsString}
    (htrust : ∀ m, Records s (.resume request staged now) m → RecordedAs S P Q m) :
    LiveRows P Q R (s.resume N S request staged now).tables := by
  unfold Admin.resume
  cases htask : s.tasks request with
  | none => exact h
  | some task =>
    cases task with
    | reSigning => exact (keeps_reSignAll hsign).final h
    | trusting manager id sha256 =>
      dsimp only
      cases hfound : (findStagedBundle staged id sha256).bind StagedBundle.manifest with
      | none => exact h
      | some m =>
        exact liveRows_record h (htrust m ((records_resume htask).mpr hfound)) manager now sha256
    | trustingBuiltin manager b rest =>
      exact liveRows_record h (htrust _ ((records_resume htask).mpr rfl)) manager now b.sha256
    | readingBuiltins builtins => cases builtins <;> exact h
    | _ => exact h

theorem writes_untrust {deps : TrustFlowDeps κ} {id : JsString} {outcome : Outcome}
    (h : untrustPlugin deps id t = .ok outcome) : ∀ w ∈ outcome.writes, InsertsOnly P Q R w := by
  intro w hw
  unfold untrustPlugin at h
  dsimp only at h
  split at h
  · cases h
  · cases h
    rcases List.mem_append.mp hw with hw | hw
    · obtain ⟨r, -, rfl⟩ := List.mem_map.mp hw
      trivial
    · obtain ⟨g, -, rfl⟩ := List.mem_map.mp hw
      trivial

/-- **One block of a request.** The live rows are those that were there, perhaps signed again, those
of the manifest that it records, and the approval of the plan that it selects. -/
theorem liveRows_step (h : LiveRows P Q R s.tables) (hsign : Resigned P Q R)
    (event : StateStore.Event κ) (htrust : ∀ m, Records s event m → RecordedAs S P Q m)
    (happrove : ∀ services serviceId projectionHash now plan,
      event = .approve services serviceId projectionHash now →
      selectPlan services serviceId projectionHash = some plan → R (approvalRow S s.key now plan)) :
    LiveRows P Q R (s.step N S event).tables := by
  cases event with
  | rotate | importKey | trust | trustBuiltins =>
    unfold Admin.step
    rwa [tables_begin]
  | untrust id now =>
    unfold Admin.step
    dsimp only
    split
    · rename_i outcome houtcome
      exact h.writeAll (writes_untrust houtcome)
    · exact h
  | approve services serviceId projectionHash now =>
    unfold Admin.step
    dsimp only
    split
    · rename_i row audit hrow
      obtain ⟨plan, hplan, heq⟩ := Option.map_eq_some_iff.mp hrow
      cases heq
      exact h.write (w := .insertApproval _) (happrove _ _ _ _ plan rfl hplan)
    · exact h
  | resume request staged now => exact liveRows_resume h hsign htrust
  | fail request =>
    unfold Admin.step Admin.fail
    dsimp only
    split <;> exact h

end Requests

/-! ### Approvals in force -/

section Approvals

variable {κ : Type} (N : Numerals) (S : SignatureScheme κ) (start : System κ)

/-- `POST /plans/revoke` for this hash. -/
def Revokes (hash : JsString) (x : Happening κ) : Prop :=
  ∃ projectionHash now, x = .revoke projectionHash now ∧ truthy projectionHash = some hash

/-- The request approves this entry of the snapshot, which a run of the same process has put up for
this plan. -/
structure Approves (history : List (Happening κ)) (x : Happening κ) (env : Env)
    (plan : ContainerSpec) (g : GatedService) : Prop where
  request : ∃ services serviceId projectionHash now,
    x = .request (.approve services serviceId projectionHash now) ∧
    selectPlan (start.run N S history).world.gateHolder serviceId projectionHash = some g
  shown : Since (fun _ y => y = .run env) (fun y => y = .restart) history
  putUp : PutUp env plan g

/-- The entry was approved, and its hash was not revoked since. -/
def Consented (history : List (Happening κ)) (env : Env) (plan : ContainerSpec)
    (g : GatedService) : Prop :=
  Since (fun before x => Approves N S start before x env plan g) (Revokes g.projectionHash) history

/-- At the start nothing is approved, and there is no snapshot. -/
structure Fresh (s : System κ) : Prop where
  approvals : ∀ a, ¬ s.admin.tables.LiveApproval a
  snapshot : s.world.gateHolder = []

variable {N S start} {history : List (Happening κ)} {env : Env}

theorem putUp_of_gated {s : System κ} {plan : ContainerSpec} {g : GatedService}
    (h : PutUp (s.gated N env) plan g) : PutUp env plan g := by
  obtain ⟨⟨ds, hload, hplanned⟩, hhash, hhuman, hbanners⟩ := h
  exact ⟨⟨ds, hload, ⟨hplanned.answer⟩⟩, hhash, hhuman, hbanners⟩

/-- **Every entry of the snapshot was put up by a run of this process.** -/
theorem shown_of_holder (hfresh : Fresh start) {g : GatedService}
    (hg : g ∈ (start.run N S history).world.gateHolder.map (·.2)) :
    ∃ env plan, Since (fun _ y => y = .run env) (fun y => y = .restart) history ∧ PutUp env plan g := by
  have hsince : Since (fun _ y => ∃ env plan, y = .run env ∧ PutUp env plan g) (fun y => y = .restart) history := by
    refine since_of_holds (fun h g => g ∈ (start.run N S h).world.gateHolder.map (·.2))
      (C := fun g _ y => ∃ env plan, y = .run env ∧ PutUp env plan g)
      (D := fun _ y => y = .restart) (fun g hg => ?_) (fun h x g hg => ?_) history g hg
    · rw [System.run, List.foldl_nil, hfresh.snapshot] at hg
      cases hg
    · rw [System.run_concat] at hg
      cases x with
      | request event => exact .inr ⟨hg, by simp⟩
      | revoke projectionHash now =>
        refine .inr ⟨?_, by simp⟩
        unfold System.step at hg
        dsimp only at hg
        split at hg <;> exact hg
      | run env =>
        rcases holds_runOnce ((start.run N S h).gated N env) (start.run N S h).world with hsame | hnew
        · refine .inr ⟨?_, by simp⟩
          rwa [← hsame]
        · obtain ⟨plan, hplan⟩ := hnew.putUp g hg
          exact .inl ⟨env, plan, rfl, putUp_of_gated hplan⟩
      | restart => cases hg
  obtain ⟨before, x, after, rfl, ⟨env, plan, rfl, hputUp⟩, hafter⟩ := hsince
  exact ⟨env, plan, ⟨before, _, after, rfl, rfl, hafter⟩, hputUp⟩

theorem mem_of_selectPlan {services : Obj GatedService}
    {serviceId projectionHash : Option JsString} {g : GatedService}
    (h : selectPlan services serviceId projectionHash = some g) : g ∈ services.map (·.2) := by
  unfold selectPlan at h
  split at h
  · exact List.mem_of_find?_eq_some h
  · obtain ⟨id, -, hget⟩ := Option.bind_eq_some_iff.mp h
    exact List.mem_map.mpr ⟨_, Obj.mem_of_get hget, rfl⟩

/-- **Every approval in force was given by the operator**, for an entry that was in the snapshot. -/
theorem consented_of_live (hfresh : Fresh start) {a : StateStore.ApprovalRow}
    (ha : (start.run N S history).admin.tables.LiveApproval a) :
    ∃ env plan g, g.projectionHash = a.projectionHash ∧ Consented N S start history env plan g := by
  let C (hash : JsString) (before : List (Happening κ)) (x : Happening κ) : Prop :=
    ∃ env plan g, g.projectionHash = hash ∧ Approves N S start before x env plan g
  have hsince : Since (C a.projectionHash) (Revokes a.projectionHash) history := by
    refine since_of_holds
      (fun h hash => ∃ a, (start.run N S h).admin.tables.LiveApproval a ∧ a.projectionHash = hash)
      (C := C) (D := Revokes) ?_ ?_ history a.projectionHash ⟨a, ha, rfl⟩
    · rintro hash ⟨a, ha, -⟩
      exact hfresh.approvals a ha
    · rintro h x hash ⟨a, ha, rfl⟩
      rw [System.run_concat] at ha
      cases x with
      | request event =>
        let R (a : StateStore.ApprovalRow) : Prop := C a.projectionHash h (.request event) ∨
          ∃ a', (start.run N S h).admin.tables.LiveApproval a' ∧ a'.projectionHash = a.projectionHash
        have hlive : LiveRows (fun _ => True) (fun _ => True) R
            ((start.run N S h).step N S (.request event)).admin.tables := by
          refine liveRows_step ⟨fun _ _ => trivial, fun _ _ => trivial, fun a ha => .inr ⟨a, ha, rfl⟩⟩
            ⟨fun _ _ _ => trivial, fun _ _ _ => trivial, fun _ _ ha => ha⟩ _
            (fun _ _ _ _ _ => ⟨trivial, fun _ _ _ => trivial⟩) ?_
          intro services serviceId projectionHash now g hevent hselect
          cases event with
          | approve services' serviceId' projectionHash' now' =>
            cases hevent
            obtain ⟨env, plan, hshown, hputUp⟩ := shown_of_holder hfresh (mem_of_selectPlan hselect)
            exact .inl ⟨env, plan, g, rfl, ⟨_, _, _, _, rfl, hselect⟩, hshown, hputUp⟩
          | _ => cases hevent
        exact (hlive.approvals a ha).imp id fun hold => ⟨hold, by rintro ⟨_, _, heq, -⟩; cases heq⟩
      | revoke projectionHash now =>
        right
        unfold System.step at ha
        dsimp only at ha
        split at ha
        · rename_i hash audit hrevoke
          obtain ⟨hash', hhash, heq⟩ := Option.map_eq_some_iff.mp hrevoke
          cases heq
          obtain ⟨ha, hne⟩ := Tables.liveApproval_revokeApproval.mp ha
          refine ⟨⟨a, ha, rfl⟩, ?_⟩
          rintro ⟨_, _, heq, hrevokes⟩
          cases heq
          rw [hhash, Option.some.injEq] at hrevokes
          exact hne hrevokes.symm
        · rename_i hnone
          refine ⟨⟨a, ha, rfl⟩, ?_⟩
          rintro ⟨_, _, heq, hrevokes⟩
          cases heq
          rw [revokePlan, hrevokes] at hnone
          cases hnone
      | run env => exact .inr ⟨⟨a, ha, rfl⟩, by rintro ⟨_, _, heq, -⟩; cases heq⟩
      | restart => exact .inr ⟨⟨a, ha, rfl⟩, by rintro ⟨_, _, heq, -⟩; cases heq⟩
  obtain ⟨before, x, after, rfl, ⟨env, plan, g, hhash, happroves⟩, hafter⟩ := hsince
  refine ⟨env, plan, g, hhash, before, x, after, rfl, happroves, fun y hy => ?_⟩
  rw [hhash]
  exact hafter y hy

end Approvals

/-! ### What EXECUTE brings up -/

section Runs

variable {κ : Type} (N : Numerals) (S : SignatureScheme κ) (start : System κ)

/-- The plan of the run needs no approval, or the operator agreed to a plan with its powers. -/
structure Agreed (history : List (Happening κ)) (env : Env) (serviceId : JsString)
    (plan : ContainerSpec) : Prop where
  settled : ∃ ds framework, env.load = .ok ds ∧ ds.framework = some framework ∧
    PlannedBy env ds serviceId plan ∧
    (Baseline plan ∧ framework.strictApprovals.getD (js "powerful") ≠ js "all" ∧
      serviceId ≠ js "tier1" ∨
      ∃ env' plan' g, Consented N S start history env' plan' g ∧
        SamePlanPowers g.serviceId serviceId plan' plan)

/-- The texts that the projection hashes of the planned services are taken of. -/
def projectionTexts (history : List (Happening κ)) : Set (List UInt8) :=
  {text | ∃ env ds serviceId plan, .run env ∈ history ∧ env.load = .ok ds ∧
    PlannedBy env ds serviceId plan ∧
    text = utf8 (projectionToCanonicalJSON (projectionInputOf serviceId plan))}

/-- The runs hash with one function, without collisions among their plans. -/
structure Hashing (sha256 : List UInt8 → JsString) (history : List (Happening κ)) : Prop where
  same : ∀ env, .run env ∈ history → env.sha256 = sha256
  injOn : Set.InjOn sha256 (projectionTexts history)

variable {N S start} {history : List (Happening κ)} {env : Env} {sha256 : List UInt8 → JsString}

theorem live_of_hasApproval {t : Tables} {hash : JsString} (h : (storeOf N t).HasApproval hash) :
    ∃ a, t.LiveApproval a ∧ a.projectionHash = hash := by
  obtain ⟨row, hrow, hhash, hlive⟩ := h
  obtain ⟨a, ha, rfl⟩ := List.mem_map.mp hrow
  exact ⟨a, ⟨ha, by simpa using hlive⟩, hhash⟩

/-- A plan with the hash of an approved entry has the powers of the plan that was shown. -/
theorem samePowers_of_consented (hsha : Hashing sha256 (history ++ [.run env])) {env' : Env}
    {plan plan' : ContainerSpec} {g : GatedService} (h : Consented N S start history env' plan' g)
    {ds : DesiredState} {serviceId : JsString} (hload : env.load = .ok ds)
    (hplanned : PlannedBy env ds serviceId plan)
    (hhash : g.projectionHash = computePowerfulProjectionHash env.sha256 (projectionInputOf serviceId plan)) :
    SamePlanPowers g.serviceId serviceId plan' plan := by
  obtain ⟨before, x, after, rfl, happroves, -⟩ := h
  obtain ⟨earlier, y, later, rfl, rfl, -⟩ := happroves.shown
  obtain ⟨ds', hload', hplanned'⟩ := happroves.putUp.planned
  have hmem : Happening.run env' ∈ earlier ++ .run env' :: later ++ x :: after ++ [.run env] := by simp
  have hmem' : Happening.run env ∈ earlier ++ .run env' :: later ++ x :: after ++ [.run env] := by simp
  rw [happroves.putUp.projectionHash, hsha.same _ hmem, hsha.same _ hmem',
    computePowerfulProjectionHash_eq_iff] at hhash
  · exact (samePowers_iff _ _ _ _).mp hhash
  · refine hsha.injOn.mono ?_
    intro text htext
    rw [Set.mem_insert_iff, Set.mem_singleton_iff] at htext
    rcases htext with htext | htext
    · exact ⟨env', ds', _, _, hmem, hload', hplanned', htext⟩
    · exact ⟨env, ds, _, _, hmem', hload, hplanned, htext⟩

/-- A call of a run that brings a service's container up is for a plan that the run has cleared. -/
theorem cleared_of_bringsUp {a : Attempt} {serviceId : JsString} (h : ForRun env a)
    (hup : a.BringsUp (containerName serviceId)) :
    ∃ plan, a.CreatesFrom env serviceId plan ∧ Cleared env serviceId plan := by
  rcases h with ⟨ds, framework, graph, validation, hprep, hservice | hproxy | hexec⟩ | hcollect
  · obtain ⟨id, plan, hmem, hpark, hfor⟩ := hservice
    obtain rfl : id = serviceId := containerName_inj (hfor.name_of_bringsUp hup)
    exact ⟨plan, hfor.createsFrom, cleared_of_not_parked hprep hmem hpark⟩
  · obtain ⟨plan, network, -, -, hfor⟩ := hproxy
    exact absurd (hfor.name_of_bringsUp hup) (containerName_ne_proxy serviceId)
  · obtain ⟨-, cmd, hcall⟩ := hexec
    simp only [Attempt.BringsUp, hcall] at hup
  · obtain ⟨-, hcall⟩ := hcollect
    unfold Attempt.BringsUp at hup
    split at hup <;> simp_all

/-- **No container of a service comes up without the operator's consent.** Take any history of
requests, revocations, runs and restarts from a store without approvals. Each call of its last run
that creates or starts `wanfw_<id>` is for a plan of that service which is baseline where that is
enough, or has the powers of a plan that an earlier run of the same process had put up when the
operator approved it, and whose hash was not revoked between that and GATE. -/
theorem brought_up_approved (hfresh : Fresh start) (hsha : Hashing sha256 (history ++ [.run env])) :
    ∃ new, (start.run N S (history ++ [.run env])).world.log =
      (start.run N S history).world.log ++ new ∧
      ∀ a ∈ new, ∀ serviceId, a.BringsUp (containerName serviceId) →
        ∃ plan, a.CreatesFrom env serviceId plan ∧ Agreed N S start history env serviceId plan := by
  obtain ⟨new, hnew, hall⟩ := log_runOnce ((start.run N S history).gated N env) (start.run N S history).world
  refine ⟨new, by rw [System.run_concat]; exact hnew, fun a ha serviceId hup => ?_⟩
  obtain ⟨plan, hcreates, hcleared⟩ := cleared_of_bringsUp (hall a ha) hup
  obtain ⟨ds, framework, -, -, -, hload, hfw, hplanned, -, -, -, -, hcleared⟩ := hcleared.settled
  have hplanned : PlannedBy env ds serviceId plan := ⟨hplanned.answer⟩
  refine ⟨plan, hcreates, ds, framework, hload, hfw, hplanned, hcleared.imp_right fun happroval => ?_⟩
  obtain ⟨a, ha, hhash⟩ := live_of_hasApproval happroval
  obtain ⟨env', plan', g, hg, hconsented⟩ := consented_of_live hfresh ha
  exact ⟨env', plan', g, hconsented, samePowers_of_consented hsha hconsented hload hplanned (hg.trans hhash)⟩

end Runs

/-! ### A service that is approved between two runs -/

/-- The texts that are hashed in these runs, and that of the container without a device, with their digests. -/
def webDigests : List (JsString × JsString) :=
  [(js "\x7b\"capAdd\":[],\"devices\":[\"/dev/dri/renderD128\"]," ++ js "\"image\":\"nginx:1.27\",\"mounts\":[]," ++
      js "\"networkMode\":null,\"privileged\":false," ++ js "\"publishedPorts\":[],\"serviceId\":\"web\"\x7d",
      js "7e0c0b379bfca07e503b5fdccb8880c1981058038fefab1986aa5ff85bdfd00d"),
    (js "network:wanfw_svc_web", js "d95c7708533cb0e8a1fe723d117558c890a74cb94750859927066f5259b6fc74"),
    (js "\x7b\"devices\":[\"/dev/dri/renderD128\"],\"image\":\"nginx:1.27\"," ++
      js "\"networks\":[\"wanfw_svc_web\"],\"privileged\":false\x7d",
      js "e93ebb8b970b3e178f38a4a612b1212117dcdc1790341c7e89ad51a78baba6b1"),
    (js "\x7b\"image\":\"nginx:1.27\",\"networks\":[\"wanfw_svc_web\"]\x7d",
      js "80a342881fcc6f33dd1b694e4dca70b8746b90d51b117fc40e99f75efc2a4041")]

/-- A run with the service `web`, which has a device. -/
def webEnv : Env :=
  { Env.idle with
    sha256 := shaOf webDigests
    load := .ok ⟨some ⟨none, [], none, none⟩,
      [⟨js "web", some (js "deploy-docker"), some ⟨js "web.home", 80, js "http", none⟩, .null, none⟩],
      [], by simp⟩
    deployPlan := fun _ _ _ => .ok (webPlan false)
    validateStore := ⟨[⟨js "deploy-docker", js "docker.image.pull",
      some (.obj [(js "repos", .arr [.str (js "*")])]), false⟩,
      ⟨js "deploy-docker", js "docker.device",
        some (.obj [(js "paths", .arr [.str (js "/dev/dri/*")])]), false⟩], []⟩ }

/-- A new store and an empty host. -/
def webStart : System JsString := ⟨Admin.start (js "first"), World.empty⟩

/-- A run, after which the operator approves what it has put up. -/
def webHistory : List (Happening JsString) :=
  [.run webEnv, .request (.approve [] (some (js "web")) none [])]

/-- The call creates a container of this name. -/
def creates (name : JsString) (a : Attempt) : Bool :=
  match a.call with
  | .createContainer o => o.name == name
  | _ => false

theorem bringsUp_of_creates {name : JsString} {a : Attempt} (h : creates name a = true) :
    a.BringsUp name := by
  unfold creates at h
  split at h
  · rename_i o ho
    simpa [Attempt.BringsUp, ho] using h
  · cases h

/-- The second run brings `web` up, with the powers that were approved. -/
theorem brought_up_approved_web :
    ∃ env plan g, Consented Numerals.exact sampleScheme webStart webHistory env plan g ∧
      SamePlanPowers g.serviceId (js "web") plan (webPlan false) := by
  have hinj : Function.Injective (shaOf webDigests) := shaOf_injective (by decide +kernel) (by decide +kernel)
  have hsha : Hashing (shaOf webDigests) (webHistory ++ [.run webEnv]) :=
    ⟨fun env h => by simp [webHistory] at h; rw [h]; rfl, hinj.injOn⟩
  have hfresh : Fresh webStart := ⟨fun a ha => absurd ha.1 List.not_mem_nil, rfl⟩
  obtain ⟨new, hnew, hall⟩ := @brought_up_approved _ Numerals.exact sampleScheme webStart _ _ _ hfresh hsha
  have hbefore : (webStart.run Numerals.exact sampleScheme webHistory).world.log.length = 0 := by
    decide +kernel
  have hcreates : ((webStart.run Numerals.exact sampleScheme (webHistory ++ [.run webEnv])).world.log.any
      (creates (containerName (js "web")))) = true := by decide +kernel
  rw [hnew, List.length_eq_zero_iff.mp hbefore, List.nil_append, List.any_eq_true] at hcreates
  obtain ⟨a, ha, hcreates⟩ := hcreates
  obtain ⟨plan, -, ds, framework, -, -, hplanned, hagreed⟩ := hall a ha _ (bringsUp_of_creates hcreates)
  obtain ⟨service, pluginId, -, -, hplan⟩ := hplanned.answer
  cases hplan
  rcases hagreed with ⟨hbaseline, -⟩ | hagreed
  · cases hbaseline.noDevice
  · exact hagreed

end Wanfw.Orchestrator.Consent
