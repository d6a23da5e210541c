import Wanfw.Orchestrator.World

/-!
# VALIDATE and GATE

`reconciler/validate-stage.ts` and `reconciler/gate-stage.ts`. VALIDATE checks
every service plan of the run against the live grants of the deploy plugin the
service is bound to, and fails the run at the first plan with a violation. GATE
looks up an approval for every plan that needs one: a powerful plan, any plan under
`strictApprovals: "all"`, and a service of the name `tier1`. It never fails; a plan
without an approval is recorded as not approved, and one that needs none is not
recorded at all.

## What is proved

* `validatePlans_ok`: when VALIDATE passes, each plan was accepted, and what is
  recorded for it is its own classification.
* `gateEntry_none`, `gateEntry_some`: what a missing and what an approved entry of
  the snapshot mean for the plan.
-/

namespace Wanfw.Orchestrator

open Wanfw.Js Wanfw.Schemas

/-! ### VALIDATE -/

/-- `boundDeployPluginId`; an empty id is none. -/
def boundDeployPluginId (ds : DesiredState) (serviceId : JsString) : Option JsString :=
  ((ds.service serviceId).bind (·.deployPlugin)).filter fun p => !p.isEmpty

/-- The loop of VALIDATE: an exception, the error of the first plan that fails, or what is
recorded for the services. -/
def validatePlans (env : Env) (ds : DesiredState) :
    Obj ContainerSpec → Obj Classification → Except JsError (Except StageError (Obj Classification))
  | [], classifications => .ok (.ok classifications)
  | (serviceId, plan) :: plans, classifications =>
    match boundDeployPluginId ds serviceId with
    | none =>
      .ok (.error ⟨js "validate", some serviceId, js "service " ++ serviceId ++ js " has no deploy plugin bound"⟩)
    | some pluginId => do
      let grants ← loadGrantsForPlugin env.validateStore pluginId
      let result ← validateContainerSpec env.sha256 serviceId plan grants
      match result.violations with
      | [] => validatePlans env ds plans (classifications.assign serviceId ⟨result.tier, result.projectionHash⟩)
      | first :: _ =>
        .ok (.error ⟨js "validate", some pluginId, js "service " ++ serviceId ++ js ": " ++ first.message⟩)

/-- `buildValidateStage`. -/
def validateStage (env : Env) : M StageResult := do
  let w ← Act.get
  match w.ctx.desiredState, w.ctx.planGraph with
  | some ds, some graph =>
    match ← Act.ofExcept (validatePlans env ds graph.servicePlans []) with
    | .error e => return some e
    | .ok classifications =>
      setCtx fun ctx => { ctx with validation := some classifications }
      return none
  | _, _ => return none

/-- What VALIDATE did for one plan of the run. -/
structure PassedValidate (env : Env) (ds : DesiredState) (serviceId : JsString) (plan : ContainerSpec)
    (result : ValidationResult) : Prop where
  accepted : ∃ pluginId grants, boundDeployPluginId ds serviceId = some pluginId ∧
    loadGrantsForPlugin env.validateStore pluginId = .ok grants ∧
    validateContainerSpec env.sha256 serviceId plan grants = .ok result
  ok : result.ok = true

theorem ok_iff_violations {sha256 : List UInt8 → JsString} {serviceId : JsString} {spec : ContainerSpec}
    {grants : List Grant} {result : ValidationResult}
    (h : validateContainerSpec sha256 serviceId spec grants = .ok result) :
    result.ok = true ↔ result.violations = [] := by
  obtain ⟨violations, -, rfl⟩ := validateContainerSpec_eq h
  simp [resultOf]

/-- Each step of the loop that does not end it. -/
theorem validatePlans_cons {env : Env} {ds : DesiredState} {serviceId : JsString} {plan : ContainerSpec}
    {plans : Obj ContainerSpec} {acc v : Obj Classification}
    (h : validatePlans env ds ((serviceId, plan) :: plans) acc = .ok (.ok v)) :
    ∃ result, PassedValidate env ds serviceId plan result ∧
      validatePlans env ds plans (acc.assign serviceId ⟨result.tier, result.projectionHash⟩) = .ok (.ok v) := by
  rw [validatePlans] at h
  split at h
  · cases h
  · rename_i pluginId hplugin
    obtain ⟨grants, hgrants, h⟩ := except_bind_ok.mp h
    obtain ⟨result, hresult, h⟩ := except_bind_ok.mp h
    split at h
    · rename_i hnil
      exact ⟨result, ⟨⟨pluginId, grants, hplugin, hgrants, hresult⟩, (ok_iff_violations hresult).mpr hnil⟩, h⟩
    · cases h

/-- **When VALIDATE passes, every plan was accepted**, and its classification is recorded. -/
theorem validatePlans_ok {env : Env} {ds : DesiredState} {plans : Obj ContainerSpec} {acc v : Obj Classification}
    (hnd : (Obj.keys plans).Nodup) (hplain : js "__proto__" ∉ Obj.keys plans)
    (h : validatePlans env ds plans acc = .ok (.ok v)) :
    (∀ serviceId plan, (serviceId, plan) ∈ plans → ∃ result, PassedValidate env ds serviceId plan result ∧
      Obj.get v serviceId = some ⟨result.tier, result.projectionHash⟩) ∧
    ∀ k, k ∉ Obj.keys plans → Obj.get v k = Obj.get acc k := by
  induction plans generalizing acc with
  | nil =>
    cases h
    exact ⟨by simp, fun k _ => rfl⟩
  | cons e plans ih =>
    obtain ⟨serviceId, plan⟩ := e
    simp only [Obj.keys, List.map_cons, List.nodup_cons, List.mem_cons, not_or] at hnd hplain
    obtain ⟨result, hpassed, hrest⟩ := validatePlans_cons h
    obtain ⟨hall, hother⟩ := ih hnd.2 hplain.2 hrest
    have hget : ∀ k, Obj.get (acc.assign serviceId ⟨result.tier, result.projectionHash⟩) k =
        if serviceId = k then some ⟨result.tier, result.projectionHash⟩ else Obj.get acc k :=
      fun k => Obj.get_assign (fun h => hplain.1 h.symm) acc k _
    constructor
    · intro sid p hmem
      rcases List.mem_cons.mp hmem with heq | hmem
      · obtain ⟨rfl, rfl⟩ := Prod.mk.inj heq
        refine ⟨result, hpassed, ?_⟩
        rw [hother sid hnd.1, hget, if_pos rfl]
      · exact hall sid p hmem
    · intro k hk
      simp only [Obj.keys, List.map_cons, List.mem_cons, not_or] at hk
      rw [hother k hk.2, hget, if_neg fun h => hk.1 h.symm]

/-! ### GATE -/

/-- `projectionInputFor`. -/
def projectionInputFor (serviceId : JsString) (spec : ContainerSpec) : PowerfulProjectionInput :=
  projectionInputOf serviceId spec

/-- The prefix of the banner of a catastrophic grant. -/
def catastrophicBanner : JsString := js "**This grant is equivalent to root on the host**"

/-- The banner of a service named `tier1`. -/
def selfExposureBanner : JsString :=
  js ("**You are exposing the control plane of this system to the WAN, behind password auth only** " ++
    "(ADR-7: tier1 is hardened to LAN-threat standard, not exposed-app standard)")

/-- `/^\/dev\/(sd[a-z]+|nvme\d+n\d+|vd[a-z]+|xvd[a-z]+|hd[a-z]+)(\d+)?$/`. -/
def diskBlockDevice : Re :=
  .seqs [.bol, .lit (js "/dev/"),
    .group 1 (.alt (.seq (.lit (js "sd")) (.plus isLower))
      (.alt (.seqs [.lit (js "nvme"), .plus isDigit, .lit (js "n"), .plus isDigit])
        (.alt (.seq (.lit (js "vd")) (.plus isLower))
          (.alt (.seq (.lit (js "xvd")) (.plus isLower)) (.seq (.lit (js "hd")) (.plus isLower)))))),
    .opt (.group 2 (.plus isDigit)), .eol]

/-- The reasons of `catastrophicBanners`. -/
def catastrophicReasons (spec : ContainerSpec) : List JsString :=
  (spec.mountList.flatMap fun m =>
    if m.type = .bind ∧ m.source = js "/var/run/docker.sock" then [js "bind-mounts the Docker socket"] else []) ++
  (if spec.privileged = some true then [js "runs privileged"] else []) ++
  (if spec.isHost ∧ js "NET_ADMIN" ∈ spec.capAdd.getD [] then [js "host networking + NET_ADMIN"] else []) ++
  ((spec.devices.getD []).flatMap fun device =>
    if device = js "/dev/mem" then [js "accesses /dev/mem (raw physical memory)"]
    else if diskBlockDevice.test device then [js "accesses raw disk block device " ++ device]
    else [])

/-- `catastrophicBanners`. -/
def catastrophicBanners (spec : ContainerSpec) : List JsString :=
  match catastrophicReasons spec with
  | [] => []
  | reasons => [catastrophicBanner ++ js ": " ++ join reasons (js "; ")]

/-- `humanRender`. -/
def humanRender (spec : ContainerSpec) : JsString :=
  join ([js "image: " ++ spec.image] ++
    (spec.mountList.flatMap fun m =>
      if m.type = .bind then
        [js "bind mount " ++ m.source ++ js " " ++
          (if m.readOnly = some true then js "read-only" else js "read-write") ++ js " at " ++ m.target]
      else []) ++
    ((spec.devices.getD []).map fun device => js "device " ++ device) ++
    (if spec.privileged = some true then [js "privileged: true"] else []) ++
    (if spec.isHost then [js "network mode: host"] else []) ++
    ((spec.capAdd.getD []).map fun cap => js "capability " ++ cap) ++
    ((spec.ports.getD []).map fun port => js "publish port " ++ numberToString port)) (js "; ")

/-- The hash GATE looks up: the one VALIDATE recorded, or the plan's own. -/
def gateProjectionHash (sha256 : List UInt8 → JsString) (c : Classification) (serviceId : JsString)
    (plan : ContainerSpec) : JsString :=
  c.projectionHash.getD (computePowerfulProjectionHash sha256 (projectionInputFor serviceId plan))

/-- The tier GATE works with. -/
def gateTier (serviceId : JsString) (c : Classification) : FieldTier :=
  if serviceId = js "tier1" then .powerful else c.tier

/-- The body of GATE's loop: the entry of a service, if it needs an approval. -/
def gateEntry (env : Env) (strictApprovals : JsString) (validation : Obj Classification) (serviceId : JsString)
    (plan : ContainerSpec) : Option GatedService :=
  match validation.get serviceId with
  | none => none
  | some c =>
    if gateTier serviceId c = .powerful ∨ strictApprovals = js "all" then
      some {
        serviceId := serviceId
        tier := gateTier serviceId c
        projectionHash := gateProjectionHash env.sha256 c serviceId plan
        humanRendering := humanRender plan
        approved := env.gateStore.isApproved (gateProjectionHash env.sha256 c serviceId plan)
        banners := catastrophicBanners plan ++ if serviceId = js "tier1" then [selfExposureBanner] else [] }
    else none

/-- The snapshot of a run. -/
def gateServices (env : Env) (framework : Framework) (validation : Obj Classification) (graph : PlanGraph) :
    Obj GatedService :=
  graph.servicePlans.filterMap fun e =>
    (gateEntry env (framework.strictApprovals.getD (js "powerful")) validation e.1 e.2).map fun g => (e.1, g)

/-- `buildGateStage`. -/
def gateStage (env : Env) : M StageResult := do
  let w ← Act.get
  match w.ctx.desiredState.bind (·.framework), w.ctx.planGraph, w.ctx.validation with
  | some framework, some graph, some validation =>
    let services := gateServices env framework validation graph
    Act.modify fun w => { w with gateHolder := services, ctx := { w.ctx with gateSnapshot := some services } }
    return none
  | _, _, _ => return none

/-- Reading the snapshot of a service whose plan is in the graph. -/
theorem gateServices_get {env : Env} {framework : Framework} {validation : Obj Classification} {graph : PlanGraph}
    {serviceId : JsString} {plan : ContainerSpec} (hmem : (serviceId, plan) ∈ graph.servicePlans) :
    Obj.get (gateServices env framework validation graph) serviceId =
      gateEntry env (framework.strictApprovals.getD (js "powerful")) validation serviceId plan := by
  have hnd := graph.plans_nodup
  unfold gateServices
  generalize graph.servicePlans = plans at hmem hnd
  induction plans with
  | nil => cases hmem
  | cons e plans ih =>
    simp only [Obj.keys, List.map_cons, List.nodup_cons] at hnd
    rw [List.filterMap_cons]
    rcases List.mem_cons.mp hmem with rfl | hmem
    · cases hg : gateEntry env (framework.strictApprovals.getD (js "powerful")) validation serviceId plan with
      | some g => simp [Obj.get_cons]
      | none =>
        simp only [Option.map_none]
        refine Obj.get_eq_none fun hk => hnd.1 ?_
        obtain ⟨⟨k, g⟩, hkg, rfl⟩ := List.mem_map.mp hk
        obtain ⟨e', he', hsome⟩ := List.mem_filterMap.mp hkg
        rw [Option.map_eq_some_iff] at hsome
        obtain ⟨g', -, heq⟩ := hsome
        rw [← (Prod.mk.inj heq).1]
        exact List.mem_map.mpr ⟨e', he', rfl⟩
    · have hne : e.1 ≠ serviceId := by
        rintro rfl
        exact hnd.1 (List.mem_map.mpr ⟨_, hmem, rfl⟩)
      cases hg : gateEntry env (framework.strictApprovals.getD (js "powerful")) validation e.1 e.2 with
      | some g =>
        simp only [Option.map_some]
        rw [Obj.get_cons, if_neg hne]
        exact ih hmem hnd.2
      | none =>
        simp only [Option.map_none]
        exact ih hmem hnd.2

/-- A plan with no powerful field. -/
structure Baseline (plan : ContainerSpec) : Prop where
  noBind : ∀ m ∈ plan.mountList, m.type ≠ .bind
  noDevice : plan.devices.getD [] = []
  notHost : plan.networkMode ≠ some (js "host")
  notPrivileged : plan.privileged ≠ some true
  noCapability : plan.capAdd.getD [] = []
  noPort : plan.ports.getD [] = []

theorem baseline_of_not_powerful {plan : ContainerSpec} (h : plan.isPowerful = false) : Baseline plan := by
  simp only [ContainerSpec.isPowerful, ContainerSpec.isHost, Bool.or_eq_false_iff, List.any_eq_false, decide_eq_true_eq,
    Bool.not_eq_false', List.isEmpty_iff, decide_eq_false_iff_not, beq_eq_false_iff_ne] at h
  obtain ⟨⟨⟨⟨⟨h1, h2⟩, h3⟩, h4⟩, h5⟩, h6⟩ := h
  exact ⟨h1, h2, h3, h4, h5, h6⟩

/-- The store holds a live approval under this hash. -/
def Store.HasApproval (store : Store) (projectionHash : JsString) : Prop :=
  ∃ row ∈ store.approvals, row.projectionHash = projectionHash ∧ row.revoked = false

theorem Store.hasApproval_of_isApproved {store : Store} {hash : JsString} (h : store.isApproved hash = true) :
    store.HasApproval hash := by
  unfold Store.isApproved at h
  split at h
  · rename_i row hrow
    refine ⟨row, List.mem_of_find?_eq_some hrow, ?_, by simpa using h⟩
    simpa using List.find?_some hrow
  · cases h

section Entry

variable {env : Env} {ds : DesiredState} {strict serviceId : JsString} {validation : Obj Classification}
  {plan : ContainerSpec} {result : ValidationResult}

theorem gateProjectionHash_eq (hpassed : PassedValidate env ds serviceId plan result) :
    gateProjectionHash env.sha256 ⟨result.tier, result.projectionHash⟩ serviceId plan =
      computePowerfulProjectionHash env.sha256 (projectionInputOf serviceId plan) := by
  obtain ⟨⟨pluginId, grants, -, -, h⟩, -⟩ := hpassed
  exact projectionHash_of_ok h

theorem tier_of_passed (hpassed : PassedValidate env ds serviceId plan result) :
    result.tier = if plan.isPowerful then .powerful else .baseline := by
  obtain ⟨⟨pluginId, grants, -, -, h⟩, -⟩ := hpassed
  obtain ⟨violations, -, rfl⟩ := validateContainerSpec_eq h
  rfl

/-- A validated plan without an entry is baseline and needs no approval. -/
theorem gateEntry_none (hpassed : PassedValidate env ds serviceId plan result)
    (hget : Obj.get validation serviceId = some ⟨result.tier, result.projectionHash⟩)
    (h : gateEntry env strict validation serviceId plan = none) :
    Baseline plan ∧ strict ≠ js "all" ∧ serviceId ≠ js "tier1" := by
  simp only [gateEntry, hget, ite_eq_right_iff, reduceCtorEq, imp_false, not_or, gateTier] at h
  obtain ⟨htier, hstrict⟩ := h
  split at htier
  · exact absurd rfl htier
  · rename_i hne
    refine ⟨baseline_of_not_powerful ?_, hstrict, hne⟩
    rw [tier_of_passed hpassed] at htier
    cases hp : plan.isPowerful with
    | false => rfl
    | true => simp [hp] at htier

/-- An approved entry rests on an approval of exactly this plan. -/
theorem gateEntry_some (hpassed : PassedValidate env ds serviceId plan result)
    (hget : Obj.get validation serviceId = some ⟨result.tier, result.projectionHash⟩) {g : GatedService}
    (h : gateEntry env strict validation serviceId plan = some g) (happroved : g.approved = true) :
    env.gateStore.HasApproval (computePowerfulProjectionHash env.sha256 (projectionInputOf serviceId plan)) := by
  simp only [gateEntry, hget] at h
  split at h
  · cases h
    simp only [gateProjectionHash_eq hpassed] at happroved
    exact Store.hasApproval_of_isApproved happroved
  · cases h

end Entry

/-! ### The approval key -/

/-- The plans ask for the same powers under the same id. -/
structure SamePlanPowers (serviceId serviceId' : JsString) (plan plan' : ContainerSpec) : Prop where
  serviceId : serviceId = serviceId'
  image : plan.image = plan'.image
  binds : plan.binds.Perm plan'.binds
  devices : (plan.devices.getD []).Perm (plan'.devices.getD [])
  capAdd : (plan.capAdd.getD []).Perm (plan'.capAdd.getD [])
  ports : (plan.ports.getD []).Perm (plan'.ports.getD [])
  host : plan.networkMode = some (js "host") ↔ plan'.networkMode = some (js "host")
  privileged : plan.privileged = some true ↔ plan'.privileged = some true

theorem samePowers_iff (serviceId serviceId' : JsString) (plan plan' : ContainerSpec) :
    SamePowers (projectionInputOf serviceId plan) (projectionInputOf serviceId' plan') ↔
      SamePlanPowers serviceId serviceId' plan plan' := by
  have hhost : ((if plan.isHost then some (js "host") else none) = if plan'.isHost then some (js "host") else none) ↔
      (plan.networkMode = some (js "host") ↔ plan'.networkMode = some (js "host")) := by
    simp only [ContainerSpec.isHost, decide_eq_true_eq]
    by_cases h : plan.networkMode = some (js "host") <;> by_cases h' : plan'.networkMode = some (js "host") <;>
      simp [h, h']
  have hpriv : plan.privileged.getD false = plan'.privileged.getD false ↔
      (plan.privileged = some true ↔ plan'.privileged = some true) := by
    rcases plan.privileged with - | (_ | _) <;> rcases plan'.privileged with - | (_ | _) <;> simp
  constructor
  · rintro ⟨h1, h2, h3, h4, h5, h6, h7, h8⟩
    exact ⟨h1, h2, h3, h4, h7, h8, hhost.mp h5, hpriv.mp h6⟩
  · rintro ⟨h1, h2, h3, h4, h5, h6, h7, h8⟩
    exact ⟨h1, h2, h3, h4, hhost.mpr h7, hpriv.mpr h8, h5, h6⟩

/-- **The approval key identifies exactly the powerful content.** For any two service ids and plans
that VALIDATE classified, the hashes GATE looks up are equal if and only if the ids and images are
equal, the bind mounts, devices, capabilities and ports are equal up to order, and both agree on
host networking and on privileged; provided SHA-256 does not collide on the two texts hashed. -/
theorem gate_hash_eq_iff {sha256 : List UInt8 → JsString} {serviceId serviceId' : JsString}
    {plan plan' : ContainerSpec} {grants grants' : List Grant} {result result' : ValidationResult}
    (h : validateContainerSpec sha256 serviceId plan grants = .ok result)
    (h' : validateContainerSpec sha256 serviceId' plan' grants' = .ok result')
    (hsha : Set.InjOn sha256 {utf8 (projectionToCanonicalJSON (projectionInputOf serviceId plan)),
      utf8 (projectionToCanonicalJSON (projectionInputOf serviceId' plan'))}) :
    gateProjectionHash sha256 ⟨result.tier, result.projectionHash⟩ serviceId plan =
        gateProjectionHash sha256 ⟨result'.tier, result'.projectionHash⟩ serviceId' plan' ↔
      SamePlanPowers serviceId serviceId' plan plan' := by
  rw [gateProjectionHash, gateProjectionHash, projectionInputFor, projectionInputFor, projectionHash_of_ok h,
    projectionHash_of_ok h', computePowerfulProjectionHash_eq_iff hsha, samePowers_iff]

/-- The Jellyfin scenario of the source's tests. -/
def jellyfin : ContainerSpec where
  image := js "jellyfin/jellyfin:10.9.11"
  mounts := some [⟨.bind, js "/srv/media", js "/media", some true⟩]
  devices := some [js "/dev/dri/renderD128"]

/-- The grants of a plugin that may deploy it. -/
def jellyfinGrants : List Grant :=
  [⟨js "docker.image.pull", .obj [(js "repos", .arr [.str (js "*")])]⟩,
    ⟨js "docker.mount.bind", .obj [(js "paths", .arr [.str (js "/srv/media/*")])]⟩,
    ⟨js "docker.device", .obj [(js "paths", .arr [.str (js "/dev/dri/*")])]⟩]

/-- A hash that has the SHA-256 of the Jellyfin projection. -/
def jellyfinSha (bytes : List UInt8) : JsString :=
  if bytes = utf8 (projectionToCanonicalJSON (projectionInputOf (js "jellyfin") jellyfin)) then
    js "b48107f0866717b4dc8992ddfc45182b02fd037231488dbc62d047923678061f"
  else []

theorem accepted_jellyfin (env : Option (Obj JsString)) :
    Accepted (js "jellyfin") { jellyfin with env := env } jellyfinGrants where
  image := by rfl
  mounts := by
    intro m hm
    rw [List.mem_singleton.mp hm]
    rfl
  devices := by
    intro d hd
    rw [List.mem_singleton.mp hd]
    rfl
  networkMode := by rfl
  privileged := by rfl
  capAdd := by simp [jellyfin]
  ports := by rfl
  networks := by simp [jellyfin]

/-- An edit of the environment keeps the approval of the Jellyfin plan. -/
theorem gate_hash_jellyfin_env :
    gateProjectionHash jellyfinSha ⟨.powerful, none⟩ (js "jellyfin") jellyfin =
      js "b48107f0866717b4dc8992ddfc45182b02fd037231488dbc62d047923678061f" ∧
    gateProjectionHash jellyfinSha
        ⟨(resultOf jellyfinSha (js "jellyfin") jellyfin []).tier,
          (resultOf jellyfinSha (js "jellyfin") jellyfin []).projectionHash⟩ (js "jellyfin") jellyfin =
      gateProjectionHash jellyfinSha
        ⟨(resultOf jellyfinSha (js "jellyfin") { jellyfin with env := some [(js "TZ", js "UTC")] } []).tier,
          (resultOf jellyfinSha (js "jellyfin") { jellyfin with env := some [(js "TZ", js "UTC")] } []).projectionHash⟩
        (js "jellyfin") { jellyfin with env := some [(js "TZ", js "UTC")] } := by
  constructor
  · rw [gateProjectionHash, Option.getD_none, computePowerfulProjectionHash, projectionInputFor, jellyfinSha, if_pos rfl]
  refine (gate_hash_eq_iff (ok_of_accepted (accepted_jellyfin none))
    (ok_of_accepted (accepted_jellyfin (some [(js "TZ", js "UTC")]))) ?_).mpr ?_
  · have hsame : projectionInputOf (js "jellyfin") { jellyfin with env := some [(js "TZ", js "UTC")] } =
        projectionInputOf (js "jellyfin") { jellyfin with env := none } := rfl
    rw [hsame, Set.pair_eq_singleton]
    exact Set.injOn_singleton _ _
  · exact ⟨rfl, rfl, .refl _, .refl _, .refl _, .refl _, Iff.rfl, Iff.rfl⟩

end Wanfw.Orchestrator
