import Wanfw.Js.KeyOrder
import Wanfw.Orchestrator.Execute
import Wanfw.Orchestrator.Plan
import Wanfw.Schemas.CanonicalJson

/-!
# PLAN for the documents in another order

The services are planned in the order in which their documents were read. PLAN sorts
the routes, so that the rendered configuration forgets that order, and the names of the
certificate too (`planOf_reordered`); EXECUTE takes the networks of the proxy container
from the keys of the service plans, and these keep it. `proxyHash_eq_iff` says when the
configuration hash of that container is the same.
-/

namespace Wanfw.Orchestrator

open Wanfw.Js Wanfw.Schemas

/-! ### PLAN -/

/-- Another run gets the same answers: from the plugins, and from what is configured once. -/
structure SameAnswers (env env' : Env) : Prop where
  sha256 : env'.sha256 = env.sha256
  localeCompare : env'.localeCompare = env.localeCompare
  networkPlan : env'.networkPlan = env.networkPlan
  deployPlan : env'.deployPlan = env.deployPlan
  proxyRender : env'.proxyRender = env.proxyRender
  certsVolumeName : env'.certsVolumeName = env.certsVolumeName
  proxycfgVolumeName : env'.proxycfgVolumeName = env.proxycfgVolumeName

/-- The same documents, in any order. -/
structure SameDocuments (ds ds' : DesiredState) : Prop where
  framework : ds'.framework = ds.framework
  services : ds.services.Perm ds'.services

/-- The comparison orders the texts, and takes no two of these ids for equal. -/
structure Collates (localeCompare : JsString → JsString → ℤ) (ids : List JsString) : Prop where
  total : ∀ a b, localeCompare a b ≤ 0 ∨ localeCompare b a ≤ 0
  trans : ∀ a b c, localeCompare a b ≤ 0 → localeCompare b c ≤ 0 → localeCompare a c ≤ 0
  ties : ∀ a ∈ ids, ∀ b ∈ ids, localeCompare a b ≤ 0 → localeCompare b a ≤ 0 → a = b

/-- What PLAN has for a service. -/
structure PlanEntry where
  id : JsString
  plan : ContainerSpec
  expose : Expose

/-- The entry of a service, if its plugin answers. -/
def planEntry (env : Env) (service : Service) : Option PlanEntry :=
  match truthy service.deployPlugin, service.expose with
  | some pluginId, some expose => (env.deployPlan pluginId service.spec service.id).toOption.map (⟨service.id, ·, expose⟩)
  | _, _ => none

/-- The route of an entry. -/
def PlanEntry.route (e : PlanEntry) : RouteEntry :=
  ⟨e.id, e.expose.hostname, e.expose.backendPort, e.expose.backendProtocol⟩

/-- The graph with these entries. -/
def PlanGraph.addAll (g : PlanGraph) (entries : List PlanEntry) : PlanGraph :=
  entries.foldl (fun g e => g.add e.id e.plan e.expose) g

section Plan

variable {env env' : Env} {ds ds' : DesiredState} {framework : Framework} {g g' : PlanGraph} {services : List Service}

/-- The step of PLAN for a service with an entry. -/
theorem planServices_some {s : Service} {e : PlanEntry} (h : planEntry env s = some e) :
    planServices env (s :: services) g = planServices env services (g.add e.id e.plan e.expose) := by
  unfold planEntry at h
  rw [planServices]
  split at h
  · rename_i pluginId expose hplugin hexpose
    simp only [hplugin, hexpose]
    cases hanswer : env.deployPlan pluginId s.spec s.id with
    | error message => simp [hanswer, Except.toOption] at h
    | ok plan =>
      simp only [hanswer, Except.toOption, Option.map_some, Option.some.injEq] at h
      rw [← h]
  · cases h

/-- PLAN stops at a service without an entry. -/
theorem planServices_none {s : Service} (h : planEntry env s = none) :
    planServices env (s :: services) g ≠ .ok (.ok g') := by
  unfold planEntry at h
  rw [planServices]
  cases hplugin : truthy s.deployPlugin with
  | none => simp
  | some pluginId =>
    dsimp only
    cases hanswer : env.deployPlan pluginId s.spec s.id with
    | error message => simp
    | ok plan =>
      cases hexpose : s.expose with
      | none => simp
      | some expose => simp [hplugin, hexpose, hanswer, Except.toOption] at h

/-- PLAN succeeds when every service has an entry, and adds the entries in turn. -/
theorem planServices_iff : planServices env services g = .ok (.ok g') ↔
    (∀ s ∈ services, (planEntry env s).isSome) ∧ g.addAll (services.filterMap (planEntry env)) = g' := by
  induction services generalizing g with
  | nil =>
    rw [planServices, Except.ok.injEq, Except.ok.injEq]
    exact ⟨fun h => ⟨by simp, h⟩, fun h => h.2⟩
  | cons s services ih =>
    cases hentry : planEntry env s with
    | none =>
      refine ⟨fun h => absurd h (planServices_none hentry), fun h => ?_⟩
      have hs := h.1 s List.mem_cons_self
      rw [hentry] at hs
      cases hs
    | some e =>
      rw [planServices_some hentry, ih, List.filterMap_cons_some hentry, List.forall_mem_cons, hentry]
      exact ⟨fun h => ⟨⟨rfl, h.1⟩, h.2⟩, fun h => ⟨h.1.2, h.2⟩⟩

/-- What is in a graph after these entries. -/
theorem PlanGraph.addAll_spec (g : PlanGraph) (entries : List PlanEntry) :
    (g.addAll entries).networkPlan = g.networkPlan ∧ (g.addAll entries).proxyRender = g.proxyRender ∧
      (g.addAll entries).servicePlans = Obj.fill g.servicePlans (entries.map fun e => (e.id, e.plan)) ∧
      (g.addAll entries).routes = g.routes ++ entries.map PlanEntry.route ∧
      (g.addAll entries).certNames = g.certNames ++ entries.map fun e => e.expose.hostname := by
  induction entries generalizing g with
  | nil => simp [addAll, Obj.fill]
  | cons e entries ih =>
    obtain ⟨hnetwork, hrender, hplans, hroutes, hnames⟩ := ih (g.add e.id e.plan e.expose)
    exact ⟨hnetwork, hrender, hplans, hroutes.trans (List.append_assoc _ _ _), hnames.trans (List.append_assoc _ _ _)⟩

/-- The entries of services that all have one stand under the ids of the services. -/
theorem ids_planEntries (h : ∀ s ∈ services, (planEntry env s).isSome) :
    (services.filterMap (planEntry env)).map (·.id) = services.map (·.id) := by
  induction services with
  | nil => rfl
  | cons s services ih =>
    obtain ⟨e, he⟩ := Option.isSome_iff_exists.mp (h s List.mem_cons_self)
    have hid : e.id = s.id := by
      unfold planEntry at he
      split at he
      · obtain ⟨plan, -, rfl⟩ := Option.map_eq_some_iff.mp he
        rfl
      · cases he
    rw [List.filterMap_cons_some he, List.map_cons, List.map_cons, hid, ih fun s hs => h s (List.mem_cons_of_mem _ hs)]

theorem planOf_iff : planOf env ds framework = .ok (.ok g) ↔ ∃ net, planNetwork env framework = .ok net ∧
    (∀ s ∈ ds.services, (planEntry env s).isSome) ∧
    planProxy env framework (((PlanGraph.empty net).addAll (ds.services.filterMap (planEntry env))).finish env) =
      .ok g := by
  unfold planOf
  cases planNetwork env framework with
  | error e => simp
  | ok net =>
    simp only [except_bind_ok, Except.ok.injEq, exists_eq_left']
    constructor
    · rintro ⟨r, hr, h⟩
      cases r with
      | error e => cases h
      | ok g₀ =>
        obtain ⟨hall, rfl⟩ := planServices_iff.mp hr
        exact ⟨hall, Except.ok.inj h⟩
    · rintro ⟨hall, h⟩
      exact ⟨_, planServices_iff.mpr ⟨hall, rfl⟩, congrArg Except.ok h⟩

/-- The proxy engine is asked for the routes alone. -/
theorem planProxy_congr {g₁ g₂ : PlanGraph} (hroutes : g₂.routes = g₁.routes) (hrender : g₂.proxyRender = g₁.proxyRender)
    (h : planProxy env framework g₁ = .ok g) : ∃ r, g = { g₁ with proxyRender := r } ∧
      planProxy env framework g₂ = .ok { g₂ with proxyRender := r } := by
  unfold planProxy at h ⊢
  rw [hroutes]
  split at h
  · cases h
    refine ⟨g.proxyRender, rfl, ?_⟩
    rw [← hrender, ← hroutes]
  · split at h
    · cases h
    · rename_i r _
      cases h
      exact ⟨r, rfl, rfl⟩

/-- With the same answers PLAN makes the same graph. -/
theorem SameAnswers.planOf_iff (h : SameAnswers env env') :
    planOf env' ds framework = .ok (.ok g) ↔ planOf env ds framework = .ok (.ok g) := by
  have hentry : planEntry env' = planEntry env := by
    funext s
    unfold planEntry
    rw [h.deployPlan]
  have hnetwork : planNetwork env' framework = planNetwork env framework := by
    unfold planNetwork
    rw [h.networkPlan]
  have hproxy : ∀ g₀ : PlanGraph,
      planProxy env' framework (g₀.finish env') = planProxy env framework (g₀.finish env) := by
    intro g₀
    unfold planProxy PlanGraph.finish
    rw [h.localeCompare, h.proxyRender]
  simp only [Orchestrator.planOf_iff, hentry, hnetwork, hproxy]

/-- Routes of different services come in the order of their ids, whatever order they came in. -/
theorem sort_routes {entries entries' : List PlanEntry} (hperm : entries.Perm entries') (hnd : (entries.map (·.id)).Nodup)
    (hlocale : Collates env.localeCompare (entries.map (·.id))) :
    sortBy (fun a b => env.localeCompare a.serviceId b.serviceId) (entries.map PlanEntry.route) =
      sortBy (fun a b => env.localeCompare a.serviceId b.serviceId) (entries'.map PlanEntry.route) := by
  refine sortBy_eq_of_perm (fun a b => hlocale.total _ _) (fun a b c => hlocale.trans _ _ _) (fun a ha b hb hab hba => ?_)
    (hperm.map _)
  obtain ⟨x, hx, rfl⟩ := List.mem_map.mp ha
  obtain ⟨y, hy, rfl⟩ := List.mem_map.mp hb
  have hid : x.id = y.id := hlocale.ties _ (List.mem_map_of_mem hx) _ (List.mem_map_of_mem hy) hab hba
  rw [List.inj_on_of_nodup_map hnd hx hy hid]

/-- The ids that are no array indices come in the same order. -/
def SameOrder (ds ds' : DesiredState) : Prop :=
  named (assignable (ds'.services.map (·.id))) = named (assignable (ds.services.map (·.id)))

/-- **PLAN for the documents in another order.** The graph has the same network plan, routes, names and rendered
configuration; its service plans come in the same order exactly when the ids do that are no array indices. -/
theorem planOf_reordered (hdocs : SameDocuments ds ds') (hlocale : Collates env.localeCompare (ds.services.map (·.id)))
    (h : planOf env ds framework = .ok (.ok g)) :
    ∃ g', planOf env ds' framework = .ok (.ok g') ∧ g'.networkPlan = g.networkPlan ∧ g'.routes = g.routes ∧
      g'.certNames = g.certNames ∧ g'.proxyRender = g.proxyRender ∧
      (Obj.keys g'.servicePlans = Obj.keys g.servicePlans ↔ SameOrder ds ds') := by
  obtain ⟨net, hnet, hall, hproxy⟩ := planOf_iff.mp h
  let entries := ds.services.filterMap (planEntry env)
  let entries' := ds'.services.filterMap (planEntry env)
  have hperm : entries.Perm entries' := hdocs.services.filterMap _
  have hall' : ∀ s ∈ ds'.services, (planEntry env s).isSome := fun s hs => hall s (hdocs.services.mem_iff.mpr hs)
  have hids : entries.map (·.id) = ds.services.map (·.id) := ids_planEntries hall
  have hids' : entries'.map (·.id) = ds'.services.map (·.id) := ids_planEntries hall'
  have hnd : (entries.map (·.id)).Nodup := hids ▸ ds.nodup
  let g₁ := ((PlanGraph.empty net).addAll entries).finish env
  let g₂ := ((PlanGraph.empty net).addAll entries').finish env
  obtain ⟨hnetwork₁, hrender₁, hplans₁, hroutes₁, hnames₁⟩ := (PlanGraph.empty net).addAll_spec entries
  obtain ⟨hnetwork₂, hrender₂, hplans₂, hroutes₂, hnames₂⟩ := (PlanGraph.empty net).addAll_spec entries'
  have hroutes : g₂.routes = g₁.routes := by
    change sortBy _ ((PlanGraph.empty net).addAll entries').routes =
      sortBy _ ((PlanGraph.empty net).addAll entries).routes
    rw [hroutes₁, hroutes₂]
    exact (sort_routes hperm hnd (hids ▸ hlocale)).symm
  have hnames : g₂.certNames = g₁.certNames := by
    change sortStrings (List.eraseDups _) = sortStrings (List.eraseDups _)
    rw [hnames₁, hnames₂, sortStrings_eq_iff]
    exact eraseDups_perm (hperm.symm.map _)
  obtain ⟨r, rfl, hproxy'⟩ := planProxy_congr hroutes (hrender₂.trans hrender₁.symm) hproxy
  refine ⟨{ g₂ with proxyRender := r }, ?_, hnetwork₂.trans hnetwork₁.symm, hroutes, hnames, rfl, ?_⟩
  · exact planOf_iff.mpr ⟨net, hnet, hall', hproxy'⟩
  · have hkeys : Obj.keys (entries.map fun e => (e.id, e.plan)) = ds.services.map (·.id) := by
      rw [Obj.keys, List.map_map, ← hids]
      rfl
    have hkeys' : Obj.keys (entries'.map fun e => (e.id, e.plan)) = ds'.services.map (·.id) := by
      rw [Obj.keys, List.map_map, ← hids']
      rfl
    have horder := Obj.keys_fill_eq_iff (hkeys' ▸ ds'.nodup) (hperm.symm.map fun e => (e.id, e.plan))
    rw [hkeys, hkeys'] at horder
    change Obj.keys ((PlanGraph.empty net).addAll entries').servicePlans =
      Obj.keys ((PlanGraph.empty net).addAll entries).servicePlans ↔ _
    rw [hplans₁, hplans₂]
    exact horder

end Plan

/-! ### The plan of the proxy container -/

/-- The plan that EXECUTE has for the proxy container, if there is to be one. -/
def PlanGraph.proxyPlan (g : PlanGraph) (env : Env) : Option ContainerSpec :=
  g.networkPlan.bind fun plan => plan.exposureNetwork.map fun network =>
    proxySpec env plan network (Obj.keys g.servicePlans)

/-- Its configuration hash. -/
def PlanGraph.proxyHash (g : PlanGraph) (env : Env) : Option JsString := (g.proxyPlan env).map (computeConfigHash env)

/-- The bytes that a configuration hash is taken of. -/
def configText (spec : ContainerSpec) : List UInt8 := utf8 (canonicalJSONStringify spec.toJson)

/-- The bytes hashed for the proxy container, over both orders of the documents. -/
def proxyTexts (env : Env) (framework : Framework) (ds ds' : DesiredState) : Set (List UInt8) :=
  {text | ∃ docs g spec, (docs = ds ∨ docs = ds') ∧ planOf env docs framework = .ok (.ok g) ∧
    g.proxyPlan env = some spec ∧ text = configText spec}

/-- The network provider's plan has an exposure network, so that there is a proxy container. -/
def Exposes (env : Env) (framework : Framework) : Prop :=
  ∃ plan network, planNetwork env framework = .ok (some plan) ∧ plan.exposureNetwork = some network

section Hash

variable {env env' : Env} {ds ds' : DesiredState} {framework : Framework} {g g' : PlanGraph}

theorem SameAnswers.proxyHash (h : SameAnswers env env') (g : PlanGraph) : g.proxyHash env' = g.proxyHash env := by
  unfold PlanGraph.proxyHash PlanGraph.proxyPlan proxySpec
  rw [h.certsVolumeName, h.proxycfgVolumeName]
  congr 1
  funext spec
  rw [computeConfigHash, computeConfigHash, h.sha256]

/-- The text of the proxy's plan determines the services, in their order. -/
theorem configText_proxySpec_inj {plan : NetworkPlan} {network : JsString} {ids ids' : List JsString}
    (h : configText (proxySpec env plan network ids) = configText (proxySpec env plan network ids')) : ids = ids' := by
  have hcanonical := utf8_stringify_inj h
  have hnetworks : ∀ ids : List JsString, (canonicalize (proxySpec env plan network ids).toJson).prop (js "networks") =
      some (canonicalize (stringsJson (network :: ids.map serviceNetworkName))) := by
    intro ids
    have hjson : ∃ mounts rest, (proxySpec env plan network ids).toJson = .obj ((js "image", .str proxyImage) ::
        (js "mounts", mounts) :: (js "networks", stringsJson (network :: ids.map serviceNetworkName)) :: rest) := by
      simp only [ContainerSpec.toJson, proxySpec, buildProxyContainerSpec, member, Option.map_some, Option.map_none,
        Option.toList_some, Option.toList_none, List.append_nil, List.cons_append, List.nil_append]
      exact ⟨_, _, rfl⟩
    obtain ⟨mounts, rest, hjson⟩ := hjson
    have himage : js "image" ≠ js "networks" := by decide
    have hmounts : js "mounts" ≠ js "networks" := by decide
    rw [hjson, prop_canonicalize (by decide), Obj.get_cons, if_neg himage, Obj.get_cons, if_neg hmounts, Obj.get_cons,
      if_pos rfl, Option.map_some]
  have hstrings : ∀ xs : List JsString, canonicalize (stringsJson xs) = stringsJson xs := by
    intro xs
    rw [stringsJson, canonicalize, canonicalizeItems_eq_map, List.map_map]
    rfl
  have hsame := hnetworks ids
  rw [hcanonical, hnetworks, hstrings, hstrings, Option.some.injEq, stringsJson, stringsJson, Json.arr.injEq] at hsame
  have hnames := (List.map_injective_iff.mpr fun _ _ => Json.str.inj) hsame
  have htails := (List.cons.inj hnames).2
  exact ((List.map_injective_iff.mpr fun _ _ => List.append_cancel_left) htails).symm

/-- **When the hash is the same** for two graphs with one network plan. -/
theorem proxyHash_eq_iff (hnet : g'.networkPlan = g.networkPlan)
    (hsha : ∀ spec spec', g.proxyPlan env = some spec → g'.proxyPlan env = some spec' →
      env.sha256 (configText spec') = env.sha256 (configText spec) → configText spec' = configText spec) :
    g'.proxyHash env = g.proxyHash env ↔
      (g.networkPlan.bind (·.exposureNetwork) = none ∨ Obj.keys g'.servicePlans = Obj.keys g.servicePlans) := by
  unfold PlanGraph.proxyHash
  cases hplan : g.networkPlan with
  | none => simp [PlanGraph.proxyPlan, hnet, hplan]
  | some plan =>
    cases hnetwork : plan.exposureNetwork with
    | none => simp [PlanGraph.proxyPlan, hnet, hplan, hnetwork]
    | some network =>
      have hspec : g.proxyPlan env = some (proxySpec env plan network (Obj.keys g.servicePlans)) := by
        simp [PlanGraph.proxyPlan, hplan, hnetwork]
      have hspec' : g'.proxyPlan env = some (proxySpec env plan network (Obj.keys g'.servicePlans)) := by
        simp [PlanGraph.proxyPlan, hnet, hplan, hnetwork]
      rw [hspec, hspec', Option.map_some, Option.map_some, Option.some.injEq, Option.bind_some, hnetwork]
      constructor
      · exact fun h => .inr (configText_proxySpec_inj (hsha _ _ hspec hspec' h))
      · rintro (h | h)
        · cases h
        · rw [h]

/-- The text of a volume that is mounted read-only. -/
def mountText (source target : JsString) : JsString :=
  js "\x7b\"readOnly\":true,\"source\":\"" ++ source ++ js "\",\"target\":\"" ++ target ++ js "\",\"type\":\"volume\"\x7d"

/-- The text that is hashed of a proxy container on these networks, with these ports. -/
def proxyText (networks : List JsString) (ports : JsString) : JsString :=
  js "\x7b\"image\":\"" ++ proxyImage ++ js "\",\"mounts\":[" ++ mountText (js "wanfw_wanfw_certs") (js "/data/certs") ++ js "," ++
    mountText (js "wanfw_wanfw_proxycfg") (js "/etc/caddy") ++ js "],\"networks\":[\"" ++ join networks (js "\",\"") ++
    js "\"],\"ports\":[" ++ ports ++ js "],\"restart\":\"unless-stopped\"\x7d"

end Hash

end Wanfw.Orchestrator
