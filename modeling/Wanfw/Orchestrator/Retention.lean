import Wanfw.Orchestrator.Collection
import Wanfw.Orchestrator.Preserve
import Wanfw.Orchestrator.Run

/-!
# The data of a removed service

A volume is created once, with the labels of that moment, and no step changes the labels
of a volume that exists. OBSERVE decides by these labels when the service is gone.
`Life` follows a volume through the runs in which its service is desired, with the
choice of the document it was created under and the choice of the last document.
`removed_iff`: the last choice decides exactly when it is the first.
-/

namespace Wanfw.Orchestrator

open Wanfw.Js

/-! ### What EXECUTE does to volumes -/

/-- A volume that EXECUTE adds: without labels, or labelled for a service of the documents. -/
def Labelled (env : Env) (ds : DesiredState) (v : Volume) : Prop :=
  v.labels = [] ∨ ∃ serviceId, v.labels = volumeLabels env v.name env.planId serviceId (removeVolumesOnDelete ds serviceId)

section Execute

variable {env : Env} {ds : DesiredState} {vs : List Volume}

theorem grown_container (name : JsString) (options : CreateContainerOptions) :
    ContainerCalls (Grown (Labelled env ds) vs) name options where
  create d c d' hd h := by
    obtain ⟨new, hnew, hall⟩ := Docker.mountVolumes_eq d.volumes options.mounts
    exact hd.more ⟨new, (Docker.volumes_createContainer h).trans hnew, fun v hv => .inl (hall v hv)⟩
  start d c d' hd _ _ h := hd.same (Docker.volumes_startContainer h)
  remove d c d' hd _ _ h := hd.same (Docker.volumes_removeContainer h)
  connect d c network d' hd _ _ h := hd.same (Docker.volumes_connectNetwork h)

/-- **What EXECUTE does to volumes**: it adds some, with the choices of this run's documents. -/
theorem grown_executeGraph (graph : PlanGraph) (gateSnapshot : Option (Obj GatedService)) :
    KeepsDocker (Grown (Labelled env ds) vs) (executeGraph env ds graph gateSnapshot) := by
  refine keeps_executeGraph (fun serviceId spec _ _ => ⟨?_, ?_, grown_container _ _⟩) fun plan exposureNetwork _ _ =>
    ⟨?_, grown_container _ _⟩
  · exact fun d d' hd h => hd.same (Docker.volumes_createNetwork h)
  · rintro vol - d d' hd h
    cases h
    obtain ⟨new, hnew, hall⟩ := Docker.addVolume_eq d.volumes vol.source
      (volumeLabels env vol.source env.planId serviceId (removeVolumesOnDelete ds serviceId))
    exact hd.more ⟨new, hnew, fun v hv => .inr ⟨serviceId, by rw [hall v hv]⟩⟩
  · exact fun d d' hd h => hd.same (Docker.volumes_createNetwork h)

end Execute

/-! ### A successful run -/

/-- The run reads `ds`, which has a framework document, and ends without an error. -/
structure SuccessfulRun (env : Env) (ds : DesiredState) (w w' : World) : Prop where
  loaded : env.load = .ok ds
  framework : ds.framework.isSome
  ended : ∃ o, runOnce env w = (.ok o, w') ∧ o.phase ≠ .error

section Successful

variable {env : Env} {ds : DesiredState} {w w' : World}

/-- The volumes after EXECUTE and OBSERVE: those before and new ones, without the ones that are collected. -/
def Retained (env : Env) (ds : DesiredState) (vs : List Volume) (w : World) : Prop :=
  ∃ d : Docker, (∃ new, d.volumes = vs ++ new ∧ ∀ v ∈ new, Labelled env ds v) ∧
    w.docker.volumes = d.volumes.filter fun v => !(isDoomed ds v.labels && v.optsIn)

theorem lastStages_retained (hds : w.ctx.desiredState = some ds) (hframework : ds.framework.isSome) :
    Act.Triple (· = w) (runStages env [.execute, .observe])
      (fun r w' => r = none → Retained env ds w.docker.volumes w') fun _ _ => False := by
  let Q (w' : World) : Prop := Grown (Labelled env ds) w.docker.volumes w'.docker ∧ w'.ctx.desiredState = some ds
  have hidle : Q w := ⟨⟨[], by simp, by simp⟩, hds⟩
  refine lastStages_spec (Q := Q) ?_ ?_
  · refine executeStage_spec ?_ ?_ ?_
    · exact hidle
    · intro ds' graph hds' hgraph _
      cases hds.symm.trans hds'
      have hkeeps : KeepsDocker (Grown (Labelled env ds) w.docker.volumes) (executeGraph env ds graph w.ctx.gateSnapshot) :=
        grown_executeGraph graph _
      refine (hkeeps.and (issues_executeGraph ds graph w.ctx.gateSnapshot w.log w.ctx)).conseq ?_ ?_ fun _ _ _ h => by cases h
      · rintro _ rfl
        exact ⟨hidle.1, .refl _ _⟩
      · rintro r w' ⟨hgrown, hissued⟩
        cases r with
        | some e => exact fun h => by cases h
        | none => exact ⟨hgrown, by rw [hissued.2, hds]⟩
    · exact fun w' h => h
  · refine Act.Triple.ofEach fun w₁ ⟨hgrown, hds₁⟩ => ?_
    refine (returns_observeStage hds₁ hframework).conseq (fun _ h => h) (fun r w' h _ => ?_) fun _ _ _ h => by cases h
    exact ⟨w₁.docker, hgrown, h.2.volumes⟩

theorem SuccessfulRun.retained (h : SuccessfulRun env ds w w') : Retained env ds w.docker.volumes w' := by
  obtain ⟨o, hrun, hphase⟩ := h.ended
  obtain ⟨o', r, w'', hrun', ⟨w₁, hdocker, -, hparts⟩, herror⟩ := runOnce_parts env w
  obtain ⟨ho, rfl⟩ := Prod.mk.inj (hrun.symm.trans hrun')
  cases ho
  have hr : r = none := by
    by_contra hr
    exact hphase (herror.mpr hr)
  rcases hparts with ⟨-, hne⟩ | ⟨hdecided, hlast⟩
  · exact absurd hr hne
  · obtain ⟨ds', hload, -, hds⟩ := hdecided.read
    cases h.loaded.symm.trans hload
    have hretained := (lastStages_retained hds h.framework).returned rfl hlast hr
    rwa [hdocker] at hretained

end Successful

/-! ### The life of a volume -/

/-- The volume was made for the service. -/
def Volume.ofService (v : Volume) (serviceId : JsString) : Prop :=
  isManaged v.labels = true ∧ serviceLabel v.labels = some serviceId

/-- The documents have one for the service. -/
def DesiredState.Desires (ds : DesiredState) (serviceId : JsString) : Prop := serviceId ∈ ds.services.map (·.id)

instance (ds : DesiredState) (serviceId : JsString) : Decidable (ds.Desires serviceId) :=
  inferInstanceAs (Decidable (_ ∈ _))

/-- What has happened up to now to a volume of this name, made for the service by a successful run: the choice
`removeVolumesOnDelete` of that run's document, and the choice of the last document seen since. -/
inductive Life (serviceId name : JsString) : World → Bool → Bool → Prop where
  /-- A run in which the service is desired makes the volume. -/
  | created {env : Env} {ds : DesiredState} {w w' : World} (hrun : SuccessfulRun env ds w w')
      (hdesired : ds.Desires serviceId) (habsent : ∀ v ∈ w.docker.volumes, v.name ≠ name)
      (hmade : ∃ v ∈ w'.docker.volumes, v.name = name ∧ v.ofService serviceId) :
      Life serviceId name w' (removeVolumesOnDelete ds serviceId) (removeVolumesOnDelete ds serviceId)
  /-- A run that leaves the volume there, with or without a document of the service. -/
  | run {env : Env} {ds : DesiredState} {w w' : World} {first last : Bool} (h : Life serviceId name w first last)
      (hrun : SuccessfulRun env ds w w') (hthere : ∃ v ∈ w'.docker.volumes, v.name = name) :
      Life serviceId name w' first (if ds.Desires serviceId then removeVolumesOnDelete ds serviceId else last)
  /-- Whatever else happens on the host, as long as it is not to this volume. -/
  | elapsed {w w' : World} {first last : Bool} (h : Life serviceId name w first last)
      (hsame : ∀ v, v.name = name → (v ∈ w'.docker.volumes ↔ v ∈ w.docker.volumes)) : Life serviceId name w' first last

section Life

variable {env : Env} {ds : DesiredState} {w w' : World} {serviceId name : JsString} {first last : Bool}

theorem get_volumeLabels (planId serviceId : JsString) (flag : Bool) {k : JsString}
    (hk : k ∈ [js "wanfw.managed", js "wanfw.service", js "wanfw.removeVolumesOnDelete"]) :
    Obj.get (volumeLabels env name planId serviceId flag) k =
      Obj.get [(js "wanfw.managed", js "true"), (js "wanfw.service", serviceId),
        (js "wanfw.removeVolumesOnDelete", if flag then js "true" else js "false")] k := by
  rw [volumeLabels, baseLabels, Obj.get_spread _ _ (by simp [Obj.keys]; decide)]
  simp only [List.mem_cons, List.not_mem_nil, or_false] at hk
  rcases hk with rfl | rfl | rfl <;> rfl

/-- A volume that EXECUTE made for the service has the choice of the document of that run. -/
theorem Labelled.optsIn {v : Volume} (h : Labelled env ds v) (hof : v.ofService serviceId) :
    v.optsIn = removeVolumesOnDelete ds serviceId := by
  rcases h with hnil | ⟨id, hlabels⟩
  · have := hof.2
    rw [hnil] at this
    cases this
  · have hid := hof.2
    rw [serviceLabel, hlabels, get_volumeLabels _ _ _ (by simp)] at hid
    have hid : truthy (some id) = some serviceId := hid
    obtain rfl : id = serviceId := by
      rw [truthy, Option.filter_eq_some_iff] at hid
      exact Option.some.inj hid.1
    rw [Volume.optsIn, hlabels, get_volumeLabels _ _ _ (by simp)]
    cases removeVolumesOnDelete ds id <;> rfl

/-- No run changes the labels of a volume, so they keep the choice of the run that made it. -/
theorem Life.volume (h : Life serviceId name w first last) :
    ∃ v ∈ w.docker.volumes, v.name = name ∧ v.ofService serviceId ∧ v.optsIn = first := by
  induction h with
  | created hrun hdesired habsent hmade =>
    obtain ⟨v, hv, hname, hof⟩ := hmade
    obtain ⟨d, ⟨new, hd, hnew⟩, hvolumes⟩ := hrun.retained
    rw [hvolumes, hd] at hv
    rcases List.mem_append.mp (List.mem_filter.mp hv).1 with hold | hv'
    · exact absurd hname (habsent v hold)
    · exact ⟨v, by rw [hvolumes, hd]; exact hv, hname, hof, (hnew v hv').optsIn hof⟩
  | run h hrun hthere ih =>
    obtain ⟨v, hv, hname, hof, hopts⟩ := ih
    obtain ⟨v', hv', hname'⟩ := hthere
    obtain ⟨d, ⟨new, hd, hnew⟩, hvolumes⟩ := hrun.retained
    have hmem : v ∈ d.volumes := by
      rw [hd]
      exact List.mem_append_left _ hv
    have hmem' : v' ∈ d.volumes := by
      rw [hvolumes] at hv'
      exact (List.mem_filter.mp hv').1
    rw [List.inj_on_of_nodup_map d.volumes_nodup hmem' hmem (hname'.trans hname.symm)] at hv'
    exact ⟨v, hv', hname, hof, hopts⟩
  | elapsed h hsame ih =>
    obtain ⟨v, hv, hname, hof, hopts⟩ := ih
    exact ⟨v, (hsame v hname).mpr hv, hname, hof, hopts⟩

/-- The volume as the next run finds it, before OBSERVE. -/
theorem Life.found (h : Life serviceId name w first last) (hrun : SuccessfulRun env ds w w') :
    ∃ d : Docker, (w'.docker.volumes = d.volumes.filter fun v => !(isDoomed ds v.labels && v.optsIn)) ∧
      ∃ v ∈ d.volumes, v.name = name ∧ v.ofService serviceId ∧ v.optsIn = first := by
  obtain ⟨v, hv, hname, hof, hopts⟩ := h.volume
  obtain ⟨d, ⟨new, hd, -⟩, hvolumes⟩ := hrun.retained
  refine ⟨d, hvolumes, v, ?_, hname, hof, hopts⟩
  rw [hd]
  exact List.mem_append_left _ hv

/-- As long as the service is desired the volume stays. -/
theorem Life.desired (h : Life serviceId name w first last) (hrun : SuccessfulRun env ds w w')
    (hdesired : ds.Desires serviceId) : Life serviceId name w' first (removeVolumesOnDelete ds serviceId) := by
  obtain ⟨d, hvolumes, v, hv, hname, ⟨hmanaged, hservice⟩, -⟩ := h.found hrun
  have hspared : isDoomed ds v.labels = false := by
    have hmem : (ds.services.any fun s => s.id == serviceId) = true := by
      simpa [DesiredState.Desires] using hdesired
    simp [isDoomed, hmanaged, isOrphan, hservice, hmem]
  have hthere : ∃ v ∈ w'.docker.volumes, v.name = name := by
    refine ⟨v, ?_, hname⟩
    rw [hvolumes]
    exact List.mem_filter.mpr ⟨hv, by simp [hspared]⟩
  have hlife := Life.run h hrun hthere
  rwa [if_pos hdesired] at hlife

/-- The volume goes by the choice of the run that made it. -/
theorem Life.gone_iff (h : Life serviceId name w first last) (hrun : SuccessfulRun env ds w w')
    (hremoved : ¬ ds.Desires serviceId) : (∀ v ∈ w'.docker.volumes, v.name ≠ name) ↔ first = true := by
  obtain ⟨d, hvolumes, v, hmem, hname, ⟨hmanaged, hservice⟩, hopts⟩ := h.found hrun
  have hdoomed : isDoomed ds v.labels = true := by
    have hnot : (ds.services.any fun s => s.id == serviceId) = false := by
      simpa [DesiredState.Desires] using hremoved
    simp [isDoomed, hmanaged, isOrphan, hservice, hnot]
  rw [← hopts]
  constructor
  · intro hgone
    by_contra hkept
    refine hgone v ?_ hname
    rw [hvolumes]
    exact List.mem_filter.mpr ⟨hmem, by simp [hkept]⟩
  · intro hopt v' hv' hname'
    rw [hvolumes] at hv'
    obtain ⟨hmem', hkept⟩ := List.mem_filter.mp hv'
    rw [List.inj_on_of_nodup_map d.volumes_nodup hmem' hmem (hname'.trans hname.symm)] at hkept
    simp [hdoomed, hopt] at hkept

/-- **When the last choice decides.** For every history of a volume, the run that finds the service's
document removed does as the last document asked if and only if the document of the run that made the
volume asked for the same. -/
theorem removed_iff (h : Life serviceId name w first last) (hrun : SuccessfulRun env ds w w')
    (hremoved : ¬ ds.Desires serviceId) :
    ((∀ v ∈ w'.docker.volumes, v.name ≠ name) ↔ last = true) ↔ first = last := by
  rw [h.gone_iff hrun hremoved]
  cases first <;> cases last <;> simp

end Life

/-! ### A choice that changes -/

/-- The documents with `blog` and its choice, or without `blog`. -/
def blogDocuments (choice : Option Bool) : DesiredState where
  framework := some ⟨none, [], none, none⟩
  services := choice.toList.map fun flag =>
    ⟨js "blog", some (js "deploy-docker"), some ⟨js "blog.home", 80, js "http", some flag⟩, .null, none⟩
  errors := []
  nodup := by cases choice <;> simp

/-- A run over these documents, in which `blog` mounts a volume of its own. -/
def blogRun (choice : Option Bool) : Env :=
  { Env.idle with
    load := .ok (blogDocuments choice)
    deployPlan := fun _ _ _ => .ok
      { image := js "blog", mounts := some [⟨.volume, js "wanfw_blog_posts", js "/posts", none⟩] }
    validateStore := ⟨[⟨js "deploy-docker", js "docker.image.pull", some anyImage.scope, false⟩], []⟩ }

/-- The host after a run with the first choice and one with the last. -/
def afterToggle (first last : Bool) : World :=
  (runOnce (blogRun (some last)) (runOnce (blogRun (some first)) World.empty).2).2

theorem successful_blogRun (choice : Option Bool) (w : World)
    (hphase : ((runOnce (blogRun choice) w).1.toOption.map fun o => decide (o.phase = .error)) = some false) :
    SuccessfulRun (blogRun choice) (blogDocuments choice) w (runOnce (blogRun choice) w).2 where
  loaded := rfl
  framework := rfl
  ended := by
    revert hphase
    rcases runOnce (blogRun choice) w with ⟨r, w'⟩
    cases r with
    | error e => exact fun h => by cases h
    | ok o => exact fun h => ⟨o, rfl, by simpa [Except.toOption] using h⟩

theorem life_afterToggle (first last : Bool) :
    Life (js "blog") (js "wanfw_blog_posts") (afterToggle first last) first last := by
  have hrun := successful_blogRun (some first) World.empty (by cases first <;> decide +kernel)
  have hvolumes : (runOnce (blogRun (some first)) World.empty).2.docker.volumes.map
      (fun v => (v.name, isManaged v.labels, serviceLabel v.labels)) =
        [(js "wanfw_blog_posts", true, some (js "blog"))] := by
    cases first <;> decide +kernel
  have hmade : Life (js "blog") (js "wanfw_blog_posts") (runOnce (blogRun (some first)) World.empty).2
      (removeVolumesOnDelete (blogDocuments (some first)) (js "blog"))
      (removeVolumesOnDelete (blogDocuments (some first)) (js "blog")) := by
    refine .created hrun (List.mem_singleton_self _) (fun v hv => by cases hv) ?_
    obtain ⟨v, hv, hnamed⟩ := List.mem_map.mp (hvolumes ▸ List.mem_singleton_self _)
    simp only [Prod.mk.injEq] at hnamed
    exact ⟨v, hv, hnamed.1, hnamed.2.1, hnamed.2.2⟩
  exact hmade.desired (successful_blogRun (some last) _ (by cases first <;> cases last <;> decide +kernel))
    (List.mem_singleton_self _)

/-- The run that finds the document removed. -/
theorem successful_removal (first last : Bool) :
    SuccessfulRun (blogRun none) (blogDocuments none) (afterToggle first last)
      (runOnce (blogRun none) (afterToggle first last)).2 :=
  successful_blogRun none _ (by cases first <;> cases last <;> decide +kernel)

/-- A choice that never changed. -/
theorem removed_optedIn :
    (∀ v ∈ (runOnce (blogRun none) (afterToggle true true)).2.docker.volumes, v.name ≠ js "wanfw_blog_posts") ↔
      true = true :=
  (removed_iff (life_afterToggle true true) (successful_removal true true) (by decide)).mpr rfl

/-- Opting out comes too late to save the data, and opting in too late to remove it. -/
theorem not_removed_toggled :
    (runOnce (blogRun none) (afterToggle true false)).2.docker.volumes.map (·.name) = [] ∧
    (runOnce (blogRun none) (afterToggle false true)).2.docker.volumes.map (·.name) = [js "wanfw_blog_posts"] ∧
    ¬ ∀ serviceId name w first last env ds w', Life serviceId name w first last → SuccessfulRun env ds w w' →
      ¬ ds.Desires serviceId → ((∀ v ∈ w'.docker.volumes, v.name ≠ name) ↔ last = true) := by
  have hkept : (runOnce (blogRun none) (afterToggle false true)).2.docker.volumes.map (·.name) =
      [js "wanfw_blog_posts"] := by decide +kernel
  refine ⟨by decide +kernel, hkept, fun h => ?_⟩
  have hgone := (h _ _ _ _ _ _ _ _ (life_afterToggle false true) (successful_removal false true) (by decide)).mpr rfl
  obtain ⟨v, hv, hname⟩ := List.mem_map.mp (hkept ▸ List.mem_singleton_self _)
  exact hgone v hv hname

end Wanfw.Orchestrator
